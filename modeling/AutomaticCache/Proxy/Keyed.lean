import AutomaticCache.Proxy.Asked

/-!
# The keys of the proxy

The key of an intercepted request has at least the slashes of its path, and this key is the only one
that the proxy looks up and stores under while it handles the request. So `MemcachedClient` refuses
none of its calls (`keys_accepted`).
-/

namespace AutomaticCache

open Bytes

namespace MemcachedClient

/-- `get` and `Delete` do not refuse the key themselves. -/
structure TakesKey (key : Bytes) : Prop where
  get : ∀ {σ : Type} (client : Backend σ Item) (s : σ),
    client.get s key ≠ .error errInvalidKey →
    MemcachedClient.get client s key ≠ .error errInvalidKey
  delete : ∀ {σ : Type} (delete : σ → Bytes → Except GoError σ) (s : σ),
    delete s key ≠ .error errInvalidKey → Delete delete s key ≠ .error errInvalidKey

/-- `set` hands the object to the server under the key, and then `get` finds it there. -/
structure TakesObject (key : Bytes) (o : Object) : Prop where
  carries : o.key = key
  set : ∀ {σ : Type} (client : Backend σ Item) (ttl : ℤ) (s : σ),
    MemcachedClient.set client ttl s (some o) = client.set s key ⟨o.encode, ttl⟩
  get : ∀ {σ : Type} (client : Backend σ Item) (ttl : ℤ) (s s' : σ), client.ReadsBack →
    MemcachedClient.set client ttl s (some o) = .ok s' →
      MemcachedClient.get client s' key = .ok o.normalize

variable {key : Bytes}

theorem takesKey_of_valid (h : invalidKey key = false) : TakesKey key where
  get := fun client s hclient => by
    unfold MemcachedClient.get
    rw [h, if_neg Bool.false_ne_true]
    cases hget : client.get s key with
    | error err =>
      rw [hget] at hclient
      intro he
      exact hclient (congrArg _ (Except.error.inj he))
    | ok item =>
      dsimp only
      cases deserializeObj item.value with
      | error err => exact nofun
      | ok o => exact nofun
  delete := fun delete s hdelete => by
    unfold Delete
    rw [h, if_neg Bool.false_ne_true]
    cases herr : delete s key with
    | ok s' => exact nofun
    | error err =>
      rw [herr] at hdelete
      intro he
      have herr' := Except.error.inj he
      split_ifs at herr' with hmiss
      · exact absurd herr' (by decide)
      · exact hdelete (congrArg _ herr')

theorem takesObject_of_valid {o : Object} (h : invalidKey key = false) (ho : o.For key) :
    TakesObject key o where
  carries := ho.key
  set := fun client ttl s => by
    have hne : o.key ≠ [] := fun hnil => by
      rw [← ho.key, hnil] at h
      exact absurd h (by decide)
    unfold MemcachedClient.set
    dsimp only
    rw [if_neg hne, if_neg ho.data, ho.key]
    rfl
  get := fun client ttl s s' hclient hset => by
    have hget := get_of_set hclient (by rw [ho.key]; exact h) hset
    rwa [ho.key] at hget

end MemcachedClient

namespace Proxy

open Goroutines Bytes

/-- It looks up and stores under this key only, and `MemcachedClient` takes what it stores. -/
def KeepsTo (key : Bytes) : ProxyOp → Prop
  | .get k => k = key
  | .put o | .goPut o => MemcachedClient.TakesObject key o
  | _ => True

/-- What is asked for while a request is handled that is read first. -/
theorem asked_of_read {ω : Type} {env : (i : ProxyOp) → ω → i.Ans × ω} {kind : CacheKind}
    {adapters : List ObjectStorage} {targetAddr : Addr} {request : Request} {w : ω}
    (hread : (env .readRequest w).1 = .ok request)
    {s : Goroutines.State ProxyOp Chan Retrieval Chan.Val ProxyOp.Ans (Except Panic Unit)
      (ω × List (Σ i : ProxyOp, i.Ans))}
    (hs : (Goroutines.system (Prog.recording env) Retrieval.goroutine
      (handleHttpInternal kind adapters targetAddr) (w, [])).Reachable s) :
    ∀ e ∈ s.world.2, e.1 = .readRequest ∨ e.1 = .close ∨
      Asked adapters targetAddr request e.1 := by
  let P (i : ProxyOp) : Prop :=
    i = .readRequest ∨ i = .close ∨ Asked adapters targetAddr request i
  let I (p : ProxyM (Except Panic Unit)) (w' : ω × List (Σ i : ProxyOp, i.Ans)) : Prop :=
    (p = handleInline kind adapters targetAddr ∧ w' = (w, [])) ∨
      (p.Only P ∧ ∀ e ∈ w'.2, P e.1)
  have hI : I (handleInline kind adapters targetAddr) (w, []) := Or.inl ⟨rfl, rfl⟩
  have hstep : ∀ i next w', I (.op i next) w' →
      I (next (Prog.recording env i w').1) (Prog.recording env i w').2 := by
    rintro i next w' (⟨hp, rfl⟩ | ⟨honly, hasked⟩)
    · obtain ⟨rfl, hnext⟩ := Prog.op.inj hp
      obtain rfl := eq_of_heq hnext
      refine Or.inr ⟨?_, List.forall_mem_singleton.2 (Or.inl rfl)⟩
      dsimp only [Prog.recording]
      rw [hread]
      have hrequest := (handleRequest_only adapters targetAddr request kind).mono fun i hi =>
        show P i from Or.inr (Or.inr hi)
      exact hrequest.bind fun _ => .bind (ask_only (Or.inr (Or.inl rfl))) fun _ => .ret _
    · cases honly with
      | op hi hnext =>
        refine Or.inr ⟨hnext _, fun e he => ?_⟩
        rcases List.mem_append.1 he with he | he
        · exact hasked e he
        · obtain rfl := List.mem_singleton.1 he
          exact hi
  have hm := handleWith_behavesAs (get_behavesAs kind) adapters targetAddr
  obtain ⟨p, -, ⟨-, hw⟩ | ⟨-, hasked⟩⟩ := hm.invariant hI hstep hs
  · rw [hw]
    exact nofun
  · exact hasked

/-- **Keys.** -/
theorem keys_accepted (mosa : MinioObjectStorageAdapter) (request : Request)
    (h : mosa.shouldIntercept request = true) :
    let key := MinioObjectStorageAdapter.extractObjectKey request
    (key ≠ [] ∧ 3 ≤ (key.splitOn (byte '/')).length) ∧ MemcachedClient.TakesKey key ∧
      ∀ (ω : Type) (env : (i : ProxyOp) → ω → i.Ans × ω) (kind : CacheKind)
        (adapters : List ObjectStorage) (targetAddr : Addr) (w : ω) s,
          shouldIntercept adapters request = some mosa.toObjectStorage →
          (env .readRequest w).1 = .ok request →
          (Goroutines.system (Prog.recording env) Retrieval.goroutine
            (handleHttpInternal kind adapters targetAddr) (w, [])).Reachable s →
            ∀ e ∈ s.world.2, KeepsTo key e.1 := by
  intro key
  have hvalid : MemcachedClient.invalidKey key = false :=
    MinioObjectStorageAdapter.validKey_of_intercepts
      (MinioObjectStorageAdapter.shouldIntercept_iff.1 h)
  have hparts : key ≠ [] ∧ 3 ≤ (key.splitOn (byte '/')).length := by
    unfold MemcachedClient.invalidKey at hvalid
    rwa [Bool.or_eq_false_iff, decide_eq_false_iff_not, decide_eq_false_iff_not,
      Nat.not_lt] at hvalid
  refine ⟨hparts, MemcachedClient.takesKey_of_valid hvalid, ?_⟩
  intro ω env kind adapters targetAddr w s hadapter hread hs e he
  obtain ⟨i, r⟩ := e
  have hkey {adapter : ObjectStorage} (h : shouldIntercept adapters request = some adapter) :
      adapter.extractObjectKey request = key := by
    obtain rfl := Option.some.inj (hadapter.symm.trans h)
    rfl
  obtain rfl | rfl | hasked := asked_of_read hread hs _ he
  · trivial
  · trivial
  · cases hasked with
    | get h => exact hkey h
    | put h ho | goPut h ho => exact MemcachedClient.takesObject_of_valid hvalid (hkey h ▸ ho)
    | write | respond | dial | writeRequest | readResponse => trivial

/-- A miss: the two lookups, the fetch, the put and the response. -/
def missed : List Goroutines.Act :=
  [.main, .main, .main, .main, .goroutine 0, .goroutine 0, .goroutine 0, .recv 0, .recv 0, .main,
    .main, .main]

/-- The key is looked up, and `set` takes what is fetched for it. -/
theorem keys_accepted_getObject :
    let key := MinioObjectStorageAdapter.extractObjectKey getObject
    let client := mapBackend Item MemcachedClient.memcacheErrCacheMiss
    let internal := Goroutines.system (Prog.recording missWorld) Retrieval.goroutine
      (handleHttpInternal .memcached
        [MinioObjectStorageAdapter.toObjectStorage ⟨getObject.host⟩]
        ⟨0x0a000001, 9000⟩) ((), [])
    (key ≠ [] ∧ 3 ≤ (key.splitOn (byte '/')).length) ∧
      MemcachedClient.get client ∅ key ≠ .error errInvalidKey ∧
      ∃ s o store, internal.run internal.init missed = some s ∧
        (∃ r, s.world.2[1]? = some ⟨.get key, r⟩) ∧
        (∃ r, s.world.2[6]? = some ⟨.put o, r⟩) ∧
        MemcachedClient.set client 120 ∅ (some o) = .ok store ∧
        MemcachedClient.get client store key = .ok o.normalize := by
  intro key client internal
  obtain ⟨hparts, hkey, hkeeps⟩ := keys_accepted ⟨getObject.host⟩ getObject (by decide)
  refine ⟨hparts, hkey.get client ∅ (by decide), ?_⟩
  have hput := hkeeps Unit missWorld .memcached
    [MinioObjectStorageAdapter.toObjectStorage ⟨getObject.host⟩]
      ⟨0x0a000001, 9000⟩ () _ rfl rfl
    ⟨missed, rfl⟩
  have hobject : MemcachedClient.TakesObject key _ :=
    hput ⟨.put _, _⟩ (List.mem_of_getElem? (i := 6) rfl)
  exact ⟨_, _, _, rfl, ⟨_, rfl⟩, ⟨_, rfl⟩, rfl,
    hobject.get client 120 ∅ _ (mapBackend_readsBack _ _) rfl⟩

end Proxy

end AutomaticCache
