import AutomaticCache.Proxy.Serving

/-!
# Destination isolation

Nothing ties a hit to the fetch that filled the entry but the key. `ExtractObjectKey` takes the host
from `req.URL.Host`, which is empty in a request with an origin-form line, and takes nothing from
the destination. The proxy keeps destinations apart just where the requests it gets are such that
the key alone tells them (`isolated_iff`).
-/

namespace AutomaticCache

open Bytes Runs

namespace Proxy

/-- What a client is served from the cache was fetched for a request with its Host header, from its
destination. -/
def State.Isolated (hosts : List Bytes) (s : State) : Prop :=
  ∀ c ∈ s.clients, ∀ j response, c.hit = some j → c.reply = some (.served response) →
    ∃ d o req req', s.clients[j]? = some d ∧ d.Built (minioAdapters hosts) o ∧
      MinioObjectStorageAdapter.createLocalResponse o.normalize = .ok (.ok response) ∧
      c.request = some req ∧ d.request = some req' ∧
      req'.host = req.host ∧ d.targetAddr = c.targetAddr

/-- Of the destinations and requests in `R`, those that are intercepted and have the same key have
the same Host header and the same destination. -/
def Distinguishes (hosts : List Bytes) (R : Addr → Request → Prop) : Prop :=
  ∀ a req a' req', R a req → R a' req' →
    (shouldIntercept (minioAdapters hosts) req).isSome →
    (shouldIntercept (minioAdapters hosts) req').isSome →
    MinioObjectStorageAdapter.extractObjectKey req =
    MinioObjectStorageAdapter.extractObjectKey req' →
    req.host = req'.host ∧ a = a'

/-- All requests so far are in `R`, each with its destination. -/
def State.Within (R : Addr → Request → Prop) (s : State) : Prop :=
  ∀ c ∈ s.clients, ∀ req, c.request = some req → R c.targetAddr req

variable {hosts : List Bytes} {R : Addr → Request → Prop} {s : State} {req : Request}
  {adapter : ObjectStorage}

/-! ## What the key tells apart is kept apart -/

theorem isolated_of_distinguishes (hd : Distinguishes hosts R)
    (hs : (system (minioAdapters hosts)).Reachable s) (hw : s.Within R) : s.Isolated hosts := by
  intro c hc j response hj hreply
  obtain ⟨o, req, adapter, hsource, hreq, ha, hlocal⟩ :=
    (allServe_of_reachable hs c hc).reply response hreply
  rcases hsource with ⟨hnone, -⟩ | ⟨j', filled, hj', ⟨d, hdc, hbuilt⟩, hasks, rfl⟩
  · exact absurd (hj.symm.trans hnone) nofun
  · obtain rfl : j = j' := Option.some.inj (hj.symm.trans hj')
    have hbuilt' := hbuilt
    obtain ⟨req', -, -, hreq', -⟩ := hbuilt'
    obtain ⟨hi', hkey'⟩ := hbuilt.key_eq hreq'
    obtain ⟨hhost, haddr⟩ := hd d.targetAddr req' c.targetAddr req
      (hw d (List.mem_of_getElem? hdc) req' hreq') (hw c hc req hreq) hi'
      (Option.isSome_iff_exists.2 ⟨adapter, ha⟩) (hkey'.trans (hasks.key_eq hreq).symm)
    rw [(minio_of_shouldIntercept ha).2] at hlocal
    exact ⟨d, _, req, req', hdc, hbuilt, hlocal, hreq, hreq', hhost, haddr⟩

/-! ## What it does not tell apart is mixed up -/

theorem put_bigcache (filler : ℕ) (store : Store) (o : Object) :
    BigcacheWrapper.put (bigcache filler) store o =
    .ok (store.insert o.key ⟨o.encode, filler⟩) := rfl

theorem run_missRun {adapters : List ObjectStorage} {a : Addr} {res : Response} {o : Object}
    (ha : shouldIntercept adapters req = some adapter)
    (ho : receive (adapter.extractObjectKey req) res = .ok o) :
    (system adapters).run initial (missRun 0 a req res) =
      some ⟨(∅ : Store).insert o.key ⟨o.encode, 0⟩, [],
        [⟨a, some req, .serve o, some .ended, none, some res, none, none⟩], none⟩ := by
  have hmiss : BigcacheWrapper.get (bigcache 0) ∅ (adapter.extractObjectKey req) =
      .error BigcacheWrapper.errEntryNotFound := get_of_lookup_none (Finmap.lookup_empty _)
  simp [missRun, System.run_cons, system, step, initial, Client.next,
    Client.accepted, ha, ho, hmiss,
    State.after, Client.only, put_bigcache]

/-- Client `i` of `addr` sends the request, which hits, and is answered. -/
def hitRun (i : ℕ) (addr : Addr) (req : Request) : List Act :=
  [.accept addr, .client i (.readRequest (.ok req)), .client i .get, .client i .serve,
    .client i (.send none)]

theorem run_hitRun {adapters : List ObjectStorage} {a : Addr} {o : Object} {entry : Entry}
    {response : Response} (ha : shouldIntercept adapters req = some adapter) (hp : s.panic = none)
    (hl : s.store.lookup (adapter.extractObjectKey req) = some entry)
    (hdata : entry.data = o.encode) (hr : adapter.createLocalResponse o.normalize =
      .ok (.ok response)) :
    (system adapters).run s (hitRun s.clients.length a req) =
      some { s with
        clients := s.clients ++ [⟨a, some req, .done, none, none, none, some entry.filler,
          some (.served response)⟩] } := by
  have hget := get_of_lookup_some hl hdata
  simp [hitRun, System.run_cons, system, step, Client.next, Client.accepted, ha, hget, State.after,
    Client.only, hr, hp, fillerOf, hl]

/-- The first client's object is stored, and the second is served it. -/
def mixUp (a a' : Addr) (req req' : Request) : List Act :=
  missRun 0 a req (okResponse [1]) ++ hitRun 1 a' req'

theorem run_mixUp (a a' : Addr) {req' : Request}
    (hi : (shouldIntercept (minioAdapters hosts) req).isSome)
    (hi' : (shouldIntercept (minioAdapters hosts) req').isSome)
    (hkey : MinioObjectStorageAdapter.extractObjectKey req =
      MinioObjectStorageAdapter.extractObjectKey req') :
    ∃ s c d response, (system (minioAdapters hosts)).run initial
      (mixUp a a' req req') = some s ∧
      s.clients = [d, c] ∧ d.targetAddr = a ∧ d.request = some req ∧ c.targetAddr = a' ∧
      c.request = some req' ∧ c.hit = some 0 ∧ c.reply = some (.served response) := by
  obtain ⟨adapter, ha⟩ := Option.isSome_iff_exists.1 hi
  obtain ⟨adapter', ha'⟩ := Option.isSome_iff_exists.1 hi'
  have hsame : adapter.extractObjectKey req = adapter'.extractObjectKey req' := by
    rw [(minio_of_shouldIntercept ha).1, (minio_of_shouldIntercept ha').1, hkey]
  let o : Object := ⟨adapter.extractObjectKey req, some [1], some ∅⟩
  have ho : receive (adapter.extractObjectKey req) (okResponse [1]) = .ok o := rfl
  have hl : ((∅ : Store).insert o.key ⟨o.encode, 0⟩).lookup (adapter'.extractObjectKey req') =
      some ⟨o.encode, 0⟩ := by
    rw [← hsame]
    exact Finmap.lookup_insert _
  have hlocal : adapter'.createLocalResponse o.normalize =
      .ok (.ok { okResponse [1] with status := [] }) := by
    rw [(minio_of_shouldIntercept ha').2]
    rfl
  unfold mixUp
  rw [System.run_append_eq _ (run_missRun ha ho)]
  exact ⟨_, _, _, _, run_hitRun ha' rfl hl rfl hlocal, rfl, rfl, rfl, rfl, rfl, rfl, rfl⟩

theorem distinguishes_of_isolated
    (h : ∀ s, (system (minioAdapters hosts)).Reachable s → s.Within R → s.Isolated hosts) :
    Distinguishes hosts R := by
  intro a req a' req' hR hR' hi hi' hkey
  obtain ⟨s, c, d, response, hrun, hclients, hda, hdreq, hca, hcreq, hhit, hreply⟩ :=
    run_mixUp a a' hi hi' hkey
  have hwithin : s.Within R := by
    intro e he r hr
    rw [hclients] at he
    rcases List.mem_pair.1 he with rfl | rfl
    · obtain rfl : req = r := Option.some.inj (hdreq.symm.trans hr)
      rwa [hda]
    · obtain rfl : req' = r := Option.some.inj (hcreq.symm.trans hr)
      rwa [hca]
  obtain ⟨d', o, r', r, hd', -, -, hr', hr, hhost, haddr⟩ :=
    h s ⟨_, hrun⟩ hwithin c (by rw [hclients]; exact List.mem_pair.2 (Or.inr rfl)) 0
      response hhit hreply
  rw [hclients] at hd'
  obtain rfl : d = d' := Option.some.inj hd'
  obtain rfl : req' = r' := Option.some.inj (hcreq.symm.trans hr')
  obtain rfl : req = r := Option.some.inj (hdreq.symm.trans hr)
  exact ⟨hhost, by rw [← hda, ← hca]; exact haddr⟩

/-- **Destination isolation.** Whatever the hosts of the adapters: that every response served from
the cache in any run with requests in `R` was fetched for the Host header and from the destination
of the request it answers, holds exactly when the key tells the requests in `R` apart. -/
theorem isolated_iff (hosts : List Bytes) (R : Addr → Request → Prop) :
    (∀ s, (system (minioAdapters hosts)).Reachable s → s.Within R → s.Isolated hosts) ↔
      Distinguishes hosts R :=
  ⟨distinguishes_of_isolated, fun hd _ hs hw => isolated_of_distinguishes hd hs hw⟩

/-- `GET /bucket/object` for another host, whose name contains that of the first. -/
def getObjectElsewhere : Request := { getObject with host := ascii "x.host.lima.internal:9000" }

/-- The second client asks another host at another address, and is served the object of the
first. -/
theorem not_isolated :
    ∃ s c d, (system (minioAdapters [ascii "host.lima.internal:9000"])).run initial
        (mixUp ⟨0x0a000001, 9000⟩ ⟨0x0a000002, 9000⟩ getObject getObjectElsewhere) =
        some s ∧
      s.clients = [d, c] ∧ c.hit = some 0 ∧ c.reply = some (.served
        { okResponse [1] with status := [] }) ∧
      d.targetAddr = ⟨0x0a000001, 9000⟩ ∧ c.targetAddr = ⟨0x0a000002, 9000⟩ ∧
      ¬ s.Isolated [ascii "host.lima.internal:9000"] := by
  refine ⟨_, _, _, rfl, rfl, rfl, rfl, rfl, rfl, fun h => ?_⟩
  obtain ⟨d, -, -, -, hd, -, -, -, -, -, haddr⟩ :=
    h _ (List.mem_cons_of_mem _ (List.mem_cons_self ..)) 0 _ rfl rfl
  obtain rfl := Option.some.inj hd
  cases haddr

end Proxy

end AutomaticCache
