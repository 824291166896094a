import AutomaticCache.Proxy.Remote

/-!
# A hit answers like a miss

On a miss the response is made of the object just fetched, on a hit of what the cache gives back for
it. The two agree unless the body is empty (`hit_agrees_iff`): an empty body is not encoded, its
pointer comes back nil, and `CreateLocalResponse` dereferences it.
-/

namespace AutomaticCache

open Bytes

namespace MinioObjectStorageAdapter

/-- The two objects give the same response, and neither ends the process. -/
def SameResponse (fresh cached : Object) : Prop :=
  ∃ response, createLocalResponse fresh = .ok (.ok response) ∧
    createLocalResponse cached = .ok (.ok response)

/-- An object that was stored answers like the fresh one unless its data are empty. -/
theorem sameResponse_normalize_iff (key data : Bytes) (header : Option Gob.StringMap) :
    SameResponse ⟨key, some data, header⟩ (Object.normalize ⟨key, some data, header⟩) ↔
    data ≠ [] := by
  constructor
  · rintro ⟨response, -, hcached⟩ rfl
    cases hcached
  · intro h
    have hfilter : (some data).filter (· ≠ []) = some data := by
      rw [Option.filter_some, if_pos (decide_eq_true h)]
    unfold SameResponse Object.normalize
    rw [hfilter]
    exact ⟨_, rfl, rfl⟩

/-- What the cache gives back for the fetched object answers like it. -/
def HitAgrees (fresh : Object) (cached : Except GoError Object) : Prop :=
  ∃ o, cached = .ok o ∧ SameResponse fresh o

/-- **A hit answers like a miss.** For an intercepted request and the object built from a complete
response to it: once either client has stored the object, reading it back gives an object that
answers like the fresh one exactly when the body is not empty. -/
theorem hit_agrees_iff {σ τ : Type} (bc : Backend σ Gob.Message) (hbc : bc.ReadsBack)
    (client : Backend τ Item) (hclient : client.ReadsBack) (ttl : ℤ)
    (mosa : MinioObjectStorageAdapter) (req : Request) (hreq : mosa.shouldIntercept req = true)
    (res : Response) (o : Object) (hres : receive (extractObjectKey req) res = .ok o) :
    (∀ s s', BigcacheWrapper.put bc s o = .ok s' →
      (HitAgrees o (BigcacheWrapper.get bc s' (extractObjectKey req)) ↔ res.body.data ≠ [])) ∧
    (∀ s s', MemcachedClient.set client ttl s (some o) = .ok s' →
      (HitAgrees o (MemcachedClient.get client s' (extractObjectKey req)) ↔
        res.body.data ≠ [])) := by
  obtain ⟨-, rfl⟩ := receive_eq_ok.1 hres
  have hagrees (cached : Except GoError Object)
      (h : cached =
        .ok (Object.normalize ⟨extractObjectKey req, some res.body.data, res.header⟩)) :
      HitAgrees ⟨extractObjectKey req, some res.body.data, res.header⟩ cached ↔
        res.body.data ≠ [] := by
    rw [← sameResponse_normalize_iff (extractObjectKey req) res.body.data res.header, h]
    exact ⟨fun ⟨o, ho, hsame⟩ => Except.ok.inj ho ▸ hsame,
      fun hsame => ⟨_, rfl, hsame⟩⟩
  constructor
  · intro s s' hput
    exact hagrees _ (BigcacheWrapper.get_of_put hbc hput)
  · intro s s' hset
    have hkey := validKey_of_intercepts (shouldIntercept_iff.1 hreq)
    exact hagrees _ (MemcachedClient.get_of_set hclient hkey hset)

/-- A store with nothing in it but what bigcache is given. -/
def bigcacheMap : Backend (Finmap fun _ : Bytes => Gob.Message) Gob.Message :=
  mapBackend Gob.Message BigcacheWrapper.errEntryNotFound

/-- A body of one byte comes back. -/
theorem hit_agrees_oneByte :
    ∃ s, BigcacheWrapper.put bigcacheMap ∅
      ⟨extractObjectKey getObject, some [1], some ∅⟩ = .ok s ∧
      HitAgrees ⟨extractObjectKey getObject, some [1], some ∅⟩
        (BigcacheWrapper.get bigcacheMap s (extractObjectKey getObject)) :=
  ⟨_, rfl, ((hit_agrees_iff bigcacheMap (mapBackend_readsBack _ _)
    (mapBackend Item BigcacheWrapper.errEntryNotFound) (mapBackend_readsBack _ _) 120
    ⟨ascii "host.lima.internal:9000"⟩ getObject (by decide)
      (okResponse [1]) _ rfl).1 ∅ _ rfl).2
    (List.cons_ne_nil _ _)⟩

/-- An empty body comes back as a nil pointer, and the response to the second request for the
object is the end of the process. -/
theorem hit_not_agrees :
    ¬ ∀ res o, receive (extractObjectKey getObject) res = .ok o →
      ∀ s s', BigcacheWrapper.put bigcacheMap s o = .ok s' →
        HitAgrees o (BigcacheWrapper.get bigcacheMap s' (extractObjectKey getObject)) := by
  intro h
  obtain ⟨o, ho, response, -, hcached⟩ := h (okResponse []) _ rfl ∅ _ rfl
  have hget := BigcacheWrapper.get_of_put (mapBackend_readsBack _ _)
    (show BigcacheWrapper.put bigcacheMap ∅
      ⟨extractObjectKey getObject, some [], some ∅⟩ = .ok _ from rfl)
  obtain rfl := Except.ok.inj (hget.symm.trans ho)
  cases hcached

end MinioObjectStorageAdapter

end AutomaticCache
