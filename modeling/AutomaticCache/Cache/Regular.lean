import AutomaticCache.Cache.LostUpdate
import AutomaticCache.Lib.CacheAside.Regular

/-!
# What a get may return

Whatever the callers do at the same time, and whatever the store drops to make room: a get returns
what its own initializer has given, or what was stored last under its key when it looked. The store
need not keep anything (`Backend.Honest`).
-/

namespace AutomaticCache

open Bytes CacheAside Runs

/-- What is read was set, and was not overwritten since. -/
structure Backend.Honest {σ ν : Type} (b : Backend σ ν) : Prop where
  own : ∀ s k v s' v', b.set s k v = .ok s' → b.get s' k = .ok v' → v' = v
  other : ∀ s k v s' k' v', b.set s k v = .ok s' → k' ≠ k → b.get s' k' = .ok v' →
    b.get s k' = .ok v'

/-- In every run from an empty store, every object that a get returns is the one of its own
initializer, or the last one that was stored under its key before it looked. -/
def ReadsRegularly {σ δ : Type} (S : Store σ Bytes Object δ GoError) (back : Object → Object)
    (program : CacheCall → CacheM δ (Result Object GoError)) : Prop :=
  ∀ store, (∀ key o, S.lookup store key ≠ .ok o) →
    ∀ s, (callers S program store).Reachable s →
    ∀ g, s.Regular S back Prog.next g

theorem BigcacheWrapper.get_ok_iff {σ : Type} {bc : Backend σ Gob.Message} {s : σ} {key : Bytes}
    {o : Object} : BigcacheWrapper.get bc s key = .ok o ↔
      ∃ data, bc.get s key = .ok data ∧ Object.decode data = .ok o := by
  unfold BigcacheWrapper.get BigcacheWrapper.deserializeObj
  cases bc.get s key with
  | error err => exact ⟨nofun, fun ⟨_, h, _⟩ => nomatch h⟩
  | ok data =>
    dsimp only
    cases hd : Object.decode data with
    | error err =>
      refine ⟨nofun, fun ⟨_, h, hdata⟩ => ?_⟩
      cases h
      cases hd.symm.trans hdata
    | ok o' =>
      refine ⟨fun h => ⟨data, rfl, hd.trans h⟩, fun ⟨_, h, hdata⟩ => ?_⟩
      cases h
      exact hd.symm.trans hdata

theorem BigcacheWrapper.honest {σ : Type} {bc : Backend σ Gob.Message} (hbc : bc.Honest) :
    (BigcacheWrapper.store bc).Honest Object.normalize where
  found := fun s s' o o' hput hget => by
    obtain ⟨data, hdata, hdecode⟩ := BigcacheWrapper.get_ok_iff.1 hget
    obtain rfl := hbc.own s o.key o.encode s' data hput hdata
    rw [Object.decode_encode] at hdecode
    exact (Except.ok.inj hdecode).symm
  other := fun s s' o k o' hput hne hget => by
    obtain ⟨data, hdata, hdecode⟩ := BigcacheWrapper.get_ok_iff.1 hget
    exact BigcacheWrapper.get_ok_iff.2 ⟨data,
      hbc.other s o.key o.encode s' k data hput hne hdata, hdecode⟩

theorem MemcachedClient.get_ok_iff {σ : Type} {client : Backend σ Item} {s : σ} {key : Bytes}
    {o : Object} : MemcachedClient.get client s key = .ok o ↔
    MemcachedClient.invalidKey key = false ∧
      ∃ item, client.get s key = .ok item ∧ Object.decode item.value = .ok o := by
  unfold MemcachedClient.get MemcachedClient.deserializeObj
  cases MemcachedClient.invalidKey key with
  | true => exact ⟨nofun, fun h => nomatch h.1⟩
  | false =>
    rw [if_neg Bool.false_ne_true, and_iff_right rfl]
    cases client.get s key with
    | error err => exact ⟨nofun, fun ⟨_, h, _⟩ => nomatch h⟩
    | ok item =>
      dsimp only
      cases hd : Object.decode item.value with
      | error err =>
        refine ⟨nofun, fun ⟨_, h, hitem⟩ => ?_⟩
        cases h
        cases hd.symm.trans hitem
      | ok o' =>
        refine ⟨fun h => ⟨item, rfl, hd.trans h⟩, fun ⟨_, h, hitem⟩ => ?_⟩
        cases h
        exact hd.symm.trans hitem

theorem MemcachedClient.honest {σ : Type} {client : Backend σ Item}
    (hclient : client.Honest) (ttl : ℤ) :
    (MemcachedClient.store client ttl).Honest Object.normalize where
  found := fun s s' o o' hput hget => by
    obtain ⟨-, item, hitem, hdecode⟩ := MemcachedClient.get_ok_iff.1 hget
    obtain rfl :=
      hclient.own s o.key ⟨o.encode, ttl⟩ s' item (MemcachedClient.set_of_put hput) hitem
    rw [Object.decode_encode] at hdecode
    exact (Except.ok.inj hdecode).symm
  other := fun s s' o k o' hput hne hget => by
    obtain ⟨hkey, item, hitem, hdecode⟩ := MemcachedClient.get_ok_iff.1 hget
    exact MemcachedClient.get_ok_iff.2 ⟨hkey, item,
      hclient.other s o.key ⟨o.encode, ttl⟩ s' k item (MemcachedClient.set_of_put hput) hne
        hitem, hdecode⟩

theorem DummyPrinterCache.honest : DummyPrinterCache.store.Honest id where
  found := fun s s' o o' hput hget => DummyPrinterCache.lawful.found s s' o o' hput hget
  other := fun s s' o k _ hput hne hget =>
    (DummyPrinterCache.lawful.other s s' o k hput hne).symm.trans hget

/-- **Regular reads.** For each of the caches. -/
theorem reads_regularly {σ τ : Type} (bc : Backend σ Gob.Message) (hbc : bc.Honest)
    (client : Backend τ Item) (hclient : client.Honest) (ttl : ℤ) :
    ReadsRegularly (BigcacheWrapper.store bc) Object.normalize BigcacheWrapper.program ∧
    ReadsRegularly (MemcachedClient.store client ttl) Object.normalize MemcachedClient.program ∧
    ReadsRegularly DummyPrinterCache.store id DummyPrinterCache.program :=
  ⟨fun _ hempty _ h g => regular_program (BigcacheWrapper.honest hbc)
    (fun _ _ _ ho => by cases ho) hempty BigcacheWrapper.program_eq h g,
    fun _ hempty _ h g => regular_program (MemcachedClient.honest hclient ttl)
      (fun _ _ _ ho => by cases ho) hempty MemcachedClient.program_eq h g,
    fun _ hempty _ h g => regular_program DummyPrinterCache.honest
      (fun _ _ _ ho => (Except.ok.inj ho).symm) hempty DummyPrinterCache.program_eq h g⟩

/-- A store that has room for one entry. -/
def lastEntry (ν : Type) (miss : GoError) : Backend (Option (Bytes × ν)) ν where
  set := fun _ k v => .ok (some (k, v))
  get := fun s k =>
    match s with
    | none => .error miss
    | some (k', v) => if k = k' then .ok v else .error miss

theorem lastEntry_honest (ν : Type) (miss : GoError) : (lastEntry ν miss).Honest where
  own := fun s k v s' v' hset hget => by
    obtain rfl := Except.ok.inj hset
    simp only [lastEntry, if_true] at hget
    exact (Except.ok.inj hget).symm
  other := fun s k v s' k' v' hset hne hget => by
    obtain rfl := Except.ok.inj hset
    simp only [lastEntry, if_neg hne] at hget
    cases hget

/-- A fill that is stored in the background, and a get that finds it there. -/
def fillAndGet : List (CacheAside.Act CacheCall) :=
  [.call (.get bucketObject (some (.ok (fillWith 1).1))), .run 0, .run 0, .run 0, .run 0, .put 0,
    .call (.get bucketObject none), .run 1]

theorem reads_regularly_fillAndGet :
    let S := BigcacheWrapper.store (lastEntry Gob.Message BigcacheWrapper.errEntryNotFound)
    ∃ s, (callers S BigcacheWrapper.program none).run
      (callers S BigcacheWrapper.program none).init fillAndGet = some s ∧
      (s.callers[1]?.bind (Caller.result Prog.next)) = some (.ok (some (fillWith 1).1)) ∧
      s.Regular S Object.normalize Prog.next 1 :=
  ⟨_, rfl, rfl, (reads_regularly (lastEntry _ _) (lastEntry_honest _ _)
    (lastEntry Item MemcachedClient.memcacheErrCacheMiss) (lastEntry_honest _ _) 120).1 none
    (fun _ _ h => by cases h) _ ⟨fillAndGet, rfl⟩ 1⟩

end AutomaticCache
