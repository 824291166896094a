import AutomaticCache.Cache.SingleFetch
import AutomaticCache.Lib.CacheAside.LostUpdate

/-!
# Lost updates

None of the caches orders the store of a fill after or before the puts of its key. What a get finds
is what was stored last (`outdated_storedAfter`), and that may be the object of an initializer that
was invoked before a put which has long returned.
-/

namespace AutomaticCache

open Bytes CacheAside Runs

/-- Any number of calls, each run by a program of the cache. -/
abbrev callers {σ δ : Type} (S : Store σ Bytes Object δ GoError)
    (program : CacheCall → CacheM δ (Result Object GoError)) (store : σ) :
    System (State σ Bytes Object CacheCall (CacheM δ (Result Object GoError)))
      (CacheAside.Act CacheCall) :=
  system S Prog.next program store

/-- After a put has returned, no later get of its key returns what came from an initializer invoked
before the put was called. -/
def NoLostUpdate {σ δ : Type} (S : Store σ Bytes Object δ GoError)
    (program : CacheCall → CacheM δ (Result Object GoError)) : Prop :=
  ∀ store s, (callers S program store).Reachable s → ∀ p g j, ¬ s.Outdated S Prog.next p g j

/-- Where a later get does, the object was stored after the put's. -/
def OutdatedStoredAfter {σ δ : Type} (S : Store σ Bytes Object δ GoError)
    (back : Object → Object) (program : CacheCall → CacheM δ (Result Object GoError)) : Prop :=
  ∀ store s, (callers S program store).Reachable s →
    ∀ p g j, s.Outdated S Prog.next p g j → s.StoredAfter back Prog.next p g j

theorem BigcacheWrapper.lawful {σ : Type} {bc : Backend σ Gob.Message} (hbc : bc.ReadsBack)
    (hkeep : bc.KeepsOthers) : (BigcacheWrapper.store bc).Lawful Object.normalize where
  found := fun _ _ _ _ hput hget =>
    Except.ok.inj (hget.symm.trans (BigcacheWrapper.get_of_put hbc hput))
  other := fun s s' o k hput hne => by
    show BigcacheWrapper.get bc s' k = BigcacheWrapper.get bc s k
    unfold BigcacheWrapper.get
    rw [hkeep s o.key o.encode s' k hput hne]

/-- A put that succeeds has set the item. -/
theorem MemcachedClient.set_of_put {σ : Type} {client : Backend σ Item} {ttl : ℤ} {s s' : σ}
    {o : Object} (h : MemcachedClient.set client ttl s (some o) = .ok s') :
    client.set s o.key ⟨o.encode, ttl⟩ = .ok s' := by
  unfold MemcachedClient.set at h
  dsimp only at h
  split_ifs at h
  exact h

theorem MemcachedClient.lawful {σ : Type} {client : Backend σ Item} (hclient : client.ReadsBack)
    (hkeep : client.KeepsOthers) (ttl : ℤ) :
    (MemcachedClient.store client ttl).Lawful Object.normalize where
  found := fun s s' o o' hput hget => by
    cases hkey : MemcachedClient.invalidKey o.key with
    | false => exact Except.ok.inj (hget.symm.trans (MemcachedClient.get_of_set hclient hkey hput))
    | true =>
      have hno : MemcachedClient.get client s' o.key = .error errInvalidKey := by
        unfold MemcachedClient.get
        rw [if_pos hkey]
      cases hget.symm.trans hno
  other := fun s s' o k hput hne => by
    show MemcachedClient.get client s' k = MemcachedClient.get client s k
    unfold MemcachedClient.get
    rw [hkeep s o.key ⟨o.encode, ttl⟩ s' k (MemcachedClient.set_of_put hput) hne]

theorem DummyPrinterCache.lawful : DummyPrinterCache.store.Lawful id where
  found := fun s s' o o' hput hget => by
    obtain rfl := Except.ok.inj hput
    exact Except.ok.inj (hget.symm.trans (DummyPrinterCache.lookup_put s o))
  other := fun s s' o k hput hne => by
    obtain rfl := Except.ok.inj hput
    exact DummyPrinterCache.lookup_put_of_ne s o hne

/-- **Later writes.** For each of the caches, in every run of any calls: when a get that begins
after a put of its key has returned gives back an object from an initializer that was invoked before
the put was called, that object was stored after the put's. -/
theorem outdated_storedAfter {σ τ : Type} (bc : Backend σ Gob.Message) (hbc : bc.ReadsBack)
    (hbc' : bc.KeepsOthers) (client : Backend τ Item) (hclient : client.ReadsBack)
    (hclient' : client.KeepsOthers) (ttl : ℤ) :
    OutdatedStoredAfter (BigcacheWrapper.store bc) Object.normalize BigcacheWrapper.program ∧
    OutdatedStoredAfter (MemcachedClient.store client ttl) Object.normalize
      MemcachedClient.program ∧
    OutdatedStoredAfter DummyPrinterCache.store id DummyPrinterCache.program :=
  ⟨fun _ _ h _ _ _ ho => storedAfter_of_outdated (BigcacheWrapper.lawful hbc hbc')
      (fun _ _ _ _ he => by cases he) BigcacheWrapper.program_eq h ho,
    fun _ _ h _ _ _ ho => storedAfter_of_outdated (MemcachedClient.lawful hclient hclient' ttl)
      (fun _ _ _ _ he => by cases he) MemcachedClient.program_eq h ho,
    fun _ _ h _ _ _ ho => storedAfter_of_outdated DummyPrinterCache.lawful
      (fun _ _ _ hput => by cases hput) DummyPrinterCache.program_eq h ho⟩

/-- A get is in its initializer while a put of its key is called and returns; its own object is
stored after that, and a third caller finds it. `stored` is the step that stores it in the
background, if any. -/
def slowFill (stored : List (CacheAside.Act CacheCall)) : List (CacheAside.Act CacheCall) :=
  [.call (.get bucketObject (some (.ok (fillWith 1).1))), .run 0, .run 0,
    .call (.put (fillWith 2).1), .run 1, .run 0, .run 0] ++ stored ++
  [.call (.get bucketObject none), .run 2]

/-- A put, and a get that begins after it and finds it. -/
theorem outdated_storedAfter_slowFill :
    ∃ s, (callers DummyPrinterCache.store DummyPrinterCache.program ∅).run
        (callers DummyPrinterCache.store DummyPrinterCache.program ∅).init
          (slowFill []) = some s ∧
      s.StoredAfter id Prog.next 1 2 0 :=
  ⟨_, rfl, (outdated_storedAfter bigcacheEntries (mapBackend_readsBack _ _)
    (mapBackend_keepsOthers _ _)
    memcachedItems (mapBackend_readsBack _ _) (mapBackend_keepsOthers _ _) 120).2.2 ∅ _
    ⟨slowFill [], rfl⟩ 1 2 0 ⟨_, _, _, _, _, _, _, _, rfl, rfl, rfl, rfl, rfl, rfl,
      rfl, by decide, rfl,
      rfl, by decide, Or.inl ⟨_, rfl, rfl⟩⟩⟩

/-- In each of the caches the get returns the object of the fill. -/
theorem not_noLostUpdate :
    ¬ NoLostUpdate (BigcacheWrapper.store bigcacheEntries) BigcacheWrapper.program ∧
    ¬ NoLostUpdate (MemcachedClient.store memcachedItems 120) MemcachedClient.program ∧
    ¬ NoLostUpdate DummyPrinterCache.store DummyPrinterCache.program := by
  refine ⟨fun h => ?_, fun h => ?_, fun h => ?_⟩
  · exact h ∅ _ ⟨slowFill [.put 0], rfl⟩ 1 2 0
      ⟨_, _, _, _, _, _, _, _, rfl, rfl, rfl, rfl, rfl, rfl, rfl,
      by decide, rfl, rfl, by decide, Or.inl ⟨_, rfl, rfl⟩⟩
  · exact h ∅ _ ⟨slowFill [], rfl⟩ 1 2 0
      ⟨_, _, _, _, _, _, _, _, rfl, rfl, rfl, rfl, rfl, rfl, rfl,
      by decide, rfl, rfl, by decide, Or.inl ⟨_, rfl, rfl⟩⟩
  · exact h ∅ _ ⟨slowFill [], rfl⟩ 1 2 0
      ⟨_, _, _, _, _, _, _, _, rfl, rfl, rfl, rfl, rfl, rfl, rfl,
      by decide, rfl, rfl, by decide, Or.inl ⟨_, rfl, rfl⟩⟩

end AutomaticCache
