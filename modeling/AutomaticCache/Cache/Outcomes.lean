import AutomaticCache.Cache.Callers
import AutomaticCache.Lib.CacheAside.Miss

/-!
# What a miss yields

A `Get` whose key cannot be read returns what its initializer returns, whatever then becomes of the
object, in all caches but `MemcachedClient`: that one waits for its store, and returns the store's
error for an object that it could not store.
-/

namespace AutomaticCache

open Bytes CacheAside

section outcome

variable {σ δ : Type} (S : Store σ Bytes Object δ GoError)
  (program : CacheCall → CacheM δ (Result Object GoError))

/-- The key cannot be read. -/
def Misses (w : σ × List Object) (key : Bytes) : Prop := ∃ x, S.lookup w.1 key = .error x

/-- An initializer that fails makes the call fail with its error, and nothing is stored. -/
def YieldsError : Prop :=
  ∀ w key err, Misses S w key → ∃ err', S.exec (program (.get key (some (.error err)))) w =
    (.error err', w) ∧ err ∈ err'.chain

/-- The object of an initializer is returned, whether or not it can be stored. -/
def YieldsObject : Prop :=
  ∀ w key o, Misses S w key → (S.exec (program (.get key (some (.ok o)))) w).1 = .ok (some o)

/-- The object of an initializer is returned if it can be stored, and otherwise the store's
error. -/
def YieldsStored : Prop :=
  ∀ w key o, Misses S w key → S.exec (program (.get key (some (.ok o)))) w =
    match S.put w.1 o with
    | .ok s => (.ok (some o), s, w.2)
    | .error err => (.error err, w)

variable {S program} {d : Design Bytes Object GoError}

theorem exec_of_misses (hprogram : ∀ call, program call = d.program δ (.start call))
    {w : σ × List Object} {key : Bytes} (h : Misses S w key) (r : Except GoError Object) :
    S.exec (program (.get key (some r))) w = S.exec (d.running δ r) w := by
  obtain ⟨x, hx⟩ := h
  rw [hprogram]
  exact d.exec_of_miss hx r

theorem yieldsError_of_design (hprogram : ∀ call, program call = d.program δ (.start call))
    (hchain : ∀ err, err ∈ (d.initError err).chain) : YieldsError S program := by
  intro w key err h
  exact ⟨d.initError err, (exec_of_misses hprogram h _).trans (d.exec_running_error err w),
    hchain err⟩

end outcome

theorem BigcacheWrapper.yieldsObject {σ : Type} (bc : Backend σ Gob.Message) :
    YieldsObject (store bc) program := by
  intro w key o h
  rw [exec_of_misses program_eq h, Design.exec_running_ok, Design.exec_storing_background _ rfl]

theorem DummyPrinterCache.yieldsObject : YieldsObject store program := by
  intro w key o h
  rw [exec_of_misses program_eq h, Design.exec_running_ok,
    Design.exec_storing_ok (s := put w.1 o) _ rfl rfl]

theorem FakePasstroughCache.yieldsObject : YieldsObject store program := fun _ _ _ _ => rfl

theorem MemcachedClient.yieldsStored {σ : Type} (client : Backend σ Item) (ttl : ℤ) :
    YieldsStored (store client ttl) program := by
  intro w key o h
  rw [exec_of_misses program_eq h, Design.exec_running_ok]
  cases hput : (store client ttl).put w.1 o with
  | ok s => exact Design.exec_storing_ok _ rfl hput
  | error err => exact Design.exec_storing_error _ rfl hput

/-- **What a miss yields.** -/
theorem miss_yields {σ τ : Type} (bc : Backend σ Gob.Message)
    (client : Backend τ Item) (ttl : ℤ) :
    (YieldsError (BigcacheWrapper.store bc) BigcacheWrapper.program ∧
      YieldsError (MemcachedClient.store client ttl) MemcachedClient.program ∧
      YieldsError DummyPrinterCache.store DummyPrinterCache.program ∧
      YieldsError FakePasstroughCache.store FakePasstroughCache.program) ∧
    (YieldsObject (BigcacheWrapper.store bc) BigcacheWrapper.program ∧
      YieldsObject DummyPrinterCache.store DummyPrinterCache.program ∧
      YieldsObject FakePasstroughCache.store FakePasstroughCache.program) ∧
    YieldsStored (MemcachedClient.store client ttl) MemcachedClient.program := by
  refine ⟨⟨?_, ?_, ?_, ?_⟩, ⟨?_, ?_, ?_⟩, ?_⟩
  · exact yieldsError_of_design BigcacheWrapper.program_eq GoError.mem_chain
  · exact yieldsError_of_design MemcachedClient.program_eq fun err =>
      List.mem_cons_of_mem _ err.mem_chain
  · exact yieldsError_of_design DummyPrinterCache.program_eq GoError.mem_chain
  · exact fun w key err _ => ⟨err, rfl, err.mem_chain⟩
  · exact BigcacheWrapper.yieldsObject bc
  · exact DummyPrinterCache.yieldsObject
  · exact FakePasstroughCache.yieldsObject
  · exact MemcachedClient.yieldsStored client ttl

/-- A server that cannot be reached. -/
def offline : Backend Unit Item where
  set := fun _ _ _ => .error (.new "connect: connection refused")
  get := fun _ _ => .error (.new "connect: connection refused")

/-- What was fetched is lost with the server. -/
theorem offline_miss_loses_object : ¬ ∀ (σ : Type) (client : Backend σ Item) (ttl : ℤ),
    YieldsObject (MemcachedClient.store client ttl) MemcachedClient.program := by
  intro h
  let o : Object := ⟨ascii "host/bucket/key", some [1], none⟩
  have hyields := h Unit offline 120 ((), []) (ascii "host/bucket/key") o ⟨_, rfl⟩
  rw [MemcachedClient.yieldsStored offline 120 ((), []) (ascii "host/bucket/key") o
    ⟨_, rfl⟩] at hyields
  cases hyields

end AutomaticCache
