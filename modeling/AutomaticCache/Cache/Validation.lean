import AutomaticCache.Cache.Refinement
import AutomaticCache.Lib.CacheAside.Miss

/-!
# What a key is

`MemcachedClient.set` takes any key but the empty one, `get` and `Delete` only those with three
parts. So an object that was put can be got and deleted exactly if its key has them
(`put_get_delete_iff`).
-/

namespace AutomaticCache

open Bytes CacheAside

namespace MemcachedClient

variable {σ : Type} (client : Backend σ Item)
    (delete : σ → Bytes → Except GoError σ) (ttl : ℤ)

/-- What the client relies on in its server, which drops nothing by itself. -/
structure Serves : Prop where
  readsBack : client.ReadsBack
  /-- An item that is there can be deleted. -/
  deletes : ∀ s k item, client.get s k = .ok item → ∃ s', delete s k = .ok s'
  /-- An item that was deleted is there no more. -/
  misses : ∀ s k s', delete s k = .ok s' →
    client.get s' k = .error memcacheErrCacheMiss ∧ delete s' k = .error memcacheErrCacheMiss

/-- `Get` returns the object, whatever initializer it is called with, and does not call it. -/
def GetsBack (s : σ) (o : Object) : Prop :=
  ∀ init, ∃ trace, (program (.get o.key init)).exec (Prog.recording (store client ttl).world)
    ((s, []), []) = (.ok (some o), (s, []), trace) ∧ ∀ e ∈ trace, e.1 ≠ .initializer

/-- `Delete` removes the object, and returns `ErrCacheMiss` when it is called again. -/
def Deletes (s : σ) (key : Bytes) : Prop :=
  ∃ s', Delete delete s key = .ok s' ∧ (∀ o, get client s' key ≠ .ok o) ∧
    Delete delete s' key = .error errCacheMiss

variable {client delete ttl} {s : σ} {o : Object}

theorem getsBack_of_get (h : get client s o.key = .ok o) : GetsBack client ttl s o := by
  intro init
  have hlookup : Prog.recording (store client ttl).world (.lookup o.key) ((s, []), []) =
      (.ok o, (s, []), [⟨.lookup o.key, .ok o⟩]) := by
    simp only [Prog.recording, Store.world, store, h, List.nil_append]
  refine ⟨[⟨.lookup o.key, .ok o⟩], ?_, List.forall_mem_singleton.2 fun h => by cases h⟩
  rw [program_eq]
  unfold Stage.start Design.program
  rw [Prog.exec_op, hlookup]
  rfl

theorem invalidKey_of_get {key : Bytes} (h : get client s key = .ok o) :
    invalidKey key = false := by
  by_contra hne
  unfold get at h
  rw [if_pos (Bool.not_eq_false _ ▸ hne)] at h
  cases h

/-- An object that can be got is on the server. -/
theorem item_of_get {key : Bytes} (h : get client s key = .ok o) :
    ∃ item, client.get s key = .ok item := by
  have hkey := invalidKey_of_get h
  unfold get at h
  rw [hkey] at h
  cases hitem : client.get s key with
  | ok item => exact ⟨item, rfl⟩
  | error err =>
    rw [hitem] at h
    cases h

theorem Serves.deletes_of_get (hserves : Serves client delete) {key : Bytes}
    (h : get client s key = .ok o) : Deletes client delete s key := by
  have hkey := invalidKey_of_get h
  obtain ⟨item, hitem⟩ := item_of_get h
  obtain ⟨s', hdelete⟩ := hserves.deletes s key item hitem
  obtain ⟨hget, hmiss⟩ := hserves.misses s key s' hdelete
  refine ⟨s', ?_, fun o ho => ?_, ?_⟩
  · unfold Delete
    rw [hkey, hdelete]
    rfl
  · obtain ⟨item, hitem⟩ := item_of_get ho
    cases hget.symm.trans hitem
  · unfold Delete
    rw [hkey, hmiss]
    rfl

/-- **What a key is.** Of an object that was put, the calls that follow are what its key is for
them. -/
theorem put_get_delete_iff {σ : Type} (client : Backend σ Item)
    (delete : σ → Bytes → Except GoError σ) (ttl : ℤ) (s s' : σ) (o : Object)
    (hserves : Serves client delete) (hdata : o.HasData)
    (hput : set client ttl s (some o) = .ok s') :
    (GetsBack client ttl s' o ∧ Deletes client delete s' o.key) ↔ invalidKey o.key = false := by
  constructor
  · rintro ⟨-, s'', hdelete, -⟩
    by_contra hne
    unfold Delete at hdelete
    rw [if_pos (Bool.not_eq_false _ ▸ hne)] at hdelete
    cases hdelete
  · intro hkey
    have hget := get_of_set hserves.readsBack hkey hput
    rw [hdata.normalize] at hget
    exact ⟨getsBack_of_get hget, hserves.deletes_of_get hget⟩

/-! ## A server -/

/-- A server that keeps its items in a map. -/
abbrev Items := Finmap fun _ : Bytes => Item

def mapClient : Backend Items Item := mapBackend Item memcacheErrCacheMiss

def mapDelete (s : Items) (key : Bytes) : Except GoError Items :=
  match s.lookup key with
  | none => .error memcacheErrCacheMiss
  | some _ => .ok (s.erase key)

theorem mapClient_serves : Serves mapClient mapDelete where
  readsBack := mapBackend_readsBack Item memcacheErrCacheMiss
  deletes := fun s k item h => by
    unfold mapClient mapBackend at h
    unfold mapDelete
    dsimp only at h
    cases hk : s.lookup k with
    | none => rw [hk] at h; cases h
    | some _ => exact ⟨_, rfl⟩
  misses := fun s k s' h => by
    have hs' : s'.lookup k = none := by
      unfold mapDelete at h
      cases hk : s.lookup k with
      | none => rw [hk] at h; cases h
      | some _ =>
        rw [hk] at h
        obtain rfl := Except.ok.inj h
        exact Finmap.lookup_erase k s
    unfold mapClient mapBackend mapDelete
    dsimp only
    rw [hs']
    exact ⟨rfl, rfl⟩

def objectAt (key : Bytes) : Object := ⟨key, some [1], none⟩

theorem put_get_delete_threeParts :
    (GetsBack mapClient 120 (Finmap.insert (ascii "host/bucket/key")
      ⟨(objectAt (ascii "host/bucket/key")).encode, 120⟩ ∅)
        (objectAt (ascii "host/bucket/key")) ∧
    Deletes mapClient mapDelete (Finmap.insert (ascii "host/bucket/key")
      ⟨(objectAt (ascii "host/bucket/key")).encode, 120⟩ ∅) (ascii "host/bucket/key")) ↔
    invalidKey (ascii "host/bucket/key") = false :=
  put_get_delete_iff mapClient mapDelete 120 ∅ _ (objectAt (ascii "host/bucket/key"))
    mapClient_serves ⟨[1], rfl, by decide⟩ rfl

/-- With two parts, an object is put and cannot be had again. -/
theorem put_not_deleted : ¬ ∀ (σ : Type) (client : Backend σ Item)
    (delete : σ → Bytes → Except GoError σ) (ttl : ℤ) (s s' : σ) (o : Object),
    Serves client delete →
      o.HasData → set client ttl s (some o) = .ok s' →
        GetsBack client ttl s' o ∧ Deletes client delete s' o.key := by
  intro h
  obtain ⟨-, s'', hdelete, -⟩ :=
    h _ mapClient mapDelete 120 ∅ _ (objectAt (ascii "host/bucket"))
    mapClient_serves ⟨[1], rfl, by decide⟩ rfl
  cases hdelete

end MemcachedClient

end AutomaticCache
