import AutomaticCache.Cache.Callers
import AutomaticCache.Lib.CacheAside.SingleFetch

/-!
# Single fetch

Calls of `Get` for one absent key, with initializers that all succeed. The second lookup in
`initialize` is there to invoke only one of them; it does so exactly when nobody makes it between
the invocation of an initializer and the store of its object (`oneInvoked_iff`).
-/

namespace AutomaticCache

open Bytes CacheAside Runs

/-- A call `Get(key, init)` with an initializer that succeeds with an object for the key. -/
def Fill (key : Bytes) := { o : Object // o.key = key }

def Fill.call {key : Bytes} (fill : Fill key) : CacheCall := .get key (some (.ok fill.1))

/-- Any number of such calls, each run by a program of the cache. -/
def fillers {σ δ : Type} (S : Store σ Bytes Object δ GoError)
    (program : CacheCall → CacheM δ (Result Object GoError)) (key : Bytes) (store : σ) :
    System (State σ Bytes Object (Fill key) (CacheM δ (Result Object GoError)))
      (CacheAside.Act (Fill key)) :=
  system S Prog.next (program ∘ Fill.call) store

/-- At most one of the initializers is invoked, in every run from a store without the key. -/
def SingleFetch {σ δ : Type} (S : Store σ Bytes Object δ GoError)
    (program : CacheCall → CacheM δ (Result Object GoError)) (key : Bytes) : Prop :=
  ∀ store, (¬ ∃ o, S.lookup store key = .ok o) →
    ∀ s, (fillers S program key store).Reachable s → s.OneInvoked

/-- In every run, no two initializers are invoked exactly if every second lookup is made with all
objects stored whose initializers have been invoked. -/
def SingleFetchIffChecked {σ δ : Type} (S : Store σ Bytes Object δ GoError)
    (program : CacheCall → CacheM δ (Result Object GoError)) (key : Bytes) : Prop :=
  ∀ store, (¬ ∃ o, S.lookup store key = .ok o) → ∀ as t,
    (fillers S program key store).run (fillers S program key store).init as = some t →
    ((fillers S program key store).States State.OneInvoked (fillers S program key store).init as ↔
      (fillers S program key store).Steps (Checked Prog.next) (fillers S program key store).init as)

theorem singleFetchIffChecked_of_design {σ δ : Type} {S : Store σ Bytes Object δ GoError}
    {program : CacheCall → CacheM δ (Result Object GoError)} {d : Design Bytes Object GoError}
    (hprogram : ∀ call, program call = d.program δ (.start call)) {key : Bytes}
    (hkey : S.keyOf = Object.key) (hfinds : S.Finds key) : SingleFetchIffChecked S program key :=
  fun _ habsent _ _ hrun => oneInvoked_iff_checked_program hfinds
    (fun fill => ⟨fill.1, (congrFun hkey fill.1).trans fill.2, rfl⟩) habsent
    (fun fill => hprogram fill.call) hrun

theorem BigcacheWrapper.finds {σ : Type} {bc : Backend σ Gob.Message} (hbc : bc.ReadsBack)
    (key : Bytes) : (BigcacheWrapper.store bc).Finds key := by
  rintro s s' o rfl hput
  exact ⟨_, get_of_put hbc hput⟩

theorem MemcachedClient.finds {σ : Type} {client : Backend σ Item} (hclient : client.ReadsBack)
    (ttl : ℤ) {key : Bytes} (hkey : invalidKey key = false) :
    (MemcachedClient.store client ttl).Finds key := by
  rintro s s' o rfl hput
  exact ⟨_, get_of_set hclient hkey hput⟩

theorem DummyPrinterCache.finds (key : Bytes) : DummyPrinterCache.store.Finds key := by
  rintro s s' o rfl hput
  obtain rfl := Except.ok.inj hput
  exact ⟨o, lookup_put s o⟩

/-- **Single fetch.** For each of the caches and every run of any number of calls of `Get` for a
valid key that is absent at first: at most one of the initializers is ever invoked exactly if no
caller makes its second lookup while an object is still to be stored whose initializer was
invoked. -/
theorem oneInvoked_iff {σ τ : Type} (bc : Backend σ Gob.Message) (hbc : bc.ReadsBack)
    (client : Backend τ Item) (hclient : client.ReadsBack) (ttl : ℤ) (key : Bytes) :
    SingleFetchIffChecked (BigcacheWrapper.store bc) BigcacheWrapper.program key ∧
    (MemcachedClient.invalidKey key = false →
      SingleFetchIffChecked (MemcachedClient.store client ttl) MemcachedClient.program key) ∧
    SingleFetchIffChecked DummyPrinterCache.store DummyPrinterCache.program key :=
  ⟨singleFetchIffChecked_of_design BigcacheWrapper.program_eq rfl (BigcacheWrapper.finds hbc key),
    fun hkey => singleFetchIffChecked_of_design MemcachedClient.program_eq rfl
      (MemcachedClient.finds hclient ttl hkey),
    singleFetchIffChecked_of_design DummyPrinterCache.program_eq rfl
      (DummyPrinterCache.finds key)⟩

def bigcacheEntries : Backend (Finmap fun _ : Bytes => Gob.Message) Gob.Message :=
  mapBackend Gob.Message BigcacheWrapper.errEntryNotFound

/-- A memcached server that never drops anything. -/
def memcachedItems : Backend (Finmap fun _ : Bytes => Item) Item :=
  mapBackend Item (.new "memcache: cache miss")

/-- The key of `/bucket/object`. -/
def bucketObject : Bytes := ascii "/bucket/object?"

/-- A call that fills it with an object of one byte. -/
def fillWith (body : UInt8) : Fill bucketObject :=
  ⟨⟨bucketObject, some [body], some ∅⟩, rfl⟩

/-- A second call that begins once the object of the first is stored. -/
theorem oneInvoked_iff_stored :
    (fillers (BigcacheWrapper.store bigcacheEntries) BigcacheWrapper.program
      bucketObject ∅).States State.OneInvoked
      (fillers (BigcacheWrapper.store bigcacheEntries) BigcacheWrapper.program
        bucketObject ∅).init
      [.call (fillWith 1), .run 0, .run 0, .run 0, .run 0, .put 0, .call (fillWith 2), .run 1] :=
  ((oneInvoked_iff bigcacheEntries (mapBackend_readsBack _ _) memcachedItems
    (mapBackend_readsBack _ _) 120 bucketObject).1 ∅ (by rintro ⟨o, ho⟩; cases ho)
    _ _ rfl).2 (by decide)

/-- Two callers look the key up twice before either has stored it. -/
def sideBySide : List (CacheAside.Act (Fill bucketObject)) :=
  [.call (fillWith 1), .call (fillWith 2), .run 0, .run 1, .run 0, .run 1]

theorem not_singleFetch {σ δ : Type} {S : Store σ Bytes Object δ GoError}
    {program : CacheCall → CacheM δ (Result Object GoError)} (store : σ)
    (habsent : ¬ ∃ o, S.lookup store bucketObject = .ok o)
    (hrun : ((fillers S program bucketObject store).run (fillers S program bucketObject store).init
      sideBySide).any (fun t => (t.invokedAt 0).isSome && (t.invokedAt 1).isSome) = true) :
    ¬ SingleFetch S program bucketObject := by
  intro h
  obtain ⟨t, ht, hinvoked⟩ := (Option.any_eq_true _ _).1 hrun
  rw [Bool.and_eq_true, Option.isSome_iff_ne_none, Option.isSome_iff_ne_none] at hinvoked
  exact absurd (h store habsent t ⟨sideBySide, ht⟩ 0 1 hinvoked.1 hinvoked.2) (by decide)

/-- In each of the caches, both initializers are invoked. -/
theorem not_singleFetch_sideBySide :
    ¬ SingleFetch (BigcacheWrapper.store bigcacheEntries) BigcacheWrapper.program bucketObject ∧
    ¬ SingleFetch (MemcachedClient.store memcachedItems 120) MemcachedClient.program
      bucketObject ∧
    ¬ SingleFetch DummyPrinterCache.store DummyPrinterCache.program bucketObject :=
  ⟨not_singleFetch ∅ (by rintro ⟨o, ho⟩; cases ho) (by decide),
    not_singleFetch ∅ (by rintro ⟨o, ho⟩; cases ho) (by decide),
    not_singleFetch ∅ (by rintro ⟨o, ho⟩; cases ho) (by decide)⟩

end AutomaticCache
