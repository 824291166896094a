import AutomaticCache.Proxy.Isolation
import AutomaticCache.Proxy.Origin

/-!
# Reads after a write

Writes are forwarded, and nothing that is done for one touches the cache. A `GET` received after the
response to a `PUT` or `DELETE` is answered with a state of the origin after the write unless the
cache answers it (`reads_after_write`); what the cache answers is the origin's response when the
entry was fetched, be that before the write.
-/

namespace AutomaticCache

open Bytes Runs

def methodPut : Bytes := ascii "PUT"
def methodDelete : Bytes := ascii "DELETE"

def Request.SameObject (req req' : Request) : Prop :=
  req.host = req'.host ∧ req.url.path = req'.url.path

namespace Proxy

/-- The client is answered with this response of the origin, or with what came of it before the
connection broke. -/
def Reply.Shows (res : Response) : Reply → Prop
  | .unavailable => False
  | .served response =>
    response.statusCode = res.statusCode ∧ response.header = res.header ∧
      response.body = res.body
  | .relayed res' => ∃ cut, res' = res.cutOff cut

/-- The request of the client has not been read. -/
def State.Unread (s : State) (i : ℕ) : Prop := ∀ c, s.clients[i]? = some c → c.request = none

section World

variable {Ω : Type} (respond : Ω → Request → Ω × Response)

/-- A client has the response to its write, which the origin served as the `n`-th request. -/
def World.Wrote (W : World Ω) (n : ℕ) (req : Request) : Prop :=
  ∃ i c res sent, W.proxy.clients[i]? = some c ∧ c.request = some req ∧
    (req.method = methodPut ∨ req.method = methodDelete) ∧
    c.reply = some (.relayed sent) ∧ W.Served i .forward n res

/-- The reply is what the origin answers to the request in a state after its `n`-th request. -/
def World.ShowsAfter (W : World Ω) (n : ℕ) (req : Request) (reply : Reply) : Prop :=
  ∃ m ω, n < m ∧ W.states[m]? = some ω ∧ reply.Shows (respond ω req).2

/-- The reply is what the origin answered, completely and with status 200, when it served the fetch
for client `j`, for an intercepted request with the key of this one. -/
def World.ShowsFilled (hosts : List Bytes) (W : World Ω) (j : ℕ) (req : Request)
    (reply : Reply) :
    Prop :=
  ∃ m ω req' res, W.Served j .fetch m res ∧ W.states[m]? = some ω ∧
    res = (respond ω req').2 ∧
    (shouldIntercept (minioAdapters hosts) req').isSome ∧
    MinioObjectStorageAdapter.extractObjectKey req' =
      MinioObjectStorageAdapter.extractObjectKey req ∧
    res.Complete ∧ reply.Shows res

/-- `P` holds of every write that is answered in `W` and every `GET` of its object that is read
after `W` and answered in `W'`. -/
def ReadsAfter (P : ℕ → Client → Request → Reply → Prop) (W W' : World Ω) : Prop :=
  ∀ n reqw i c req reply, W.Wrote n reqw → W.proxy.Unread i →
    W'.proxy.clients[i]? = some c → c.request = some req → req.method = methodGet →
    reqw.SameObject req → c.reply = some reply → P n c req reply

/-- Every such answer is a state of the origin after the write. -/
def Coherent (W W' : World Ω) : Prop :=
  ReadsAfter (fun n _ req reply => W'.ShowsAfter respond n req reply) W W'

/-- Every such answer is the proxy's own 503, a state of the origin after the write, or a hit. -/
def CoherentButHits (hosts : List Bytes) (W W' : World Ω) : Prop :=
  ReadsAfter (fun n c req reply => reply = .unavailable ∨ W'.ShowsAfter respond n req reply ∨
    ∃ j, c.hit = some j ∧ W'.ShowsFilled respond hosts j req reply) W W'

variable {respond} {adapters : List ObjectStorage} {W W' : World Ω}

/-! ## The order in which the origin serves -/

theorem World.states_of_log {n : ℕ} {ω : Ω} {req : Request} (h : W.log[n]? = some (ω, req)) :
    W.states[n]? = some ω := by
  have hmap : (W.log.map Prod.fst)[n]? = some ω := by rw [List.getElem?_map, h, Option.map_some]
  exact (List.getElem?_append_left (List.getElem?_eq_some_iff.1 hmap).1).trans hmap

/-- The request of the client, if the origin has served one, was not among the first `N`. -/
structure World.Later (i N : ℕ) (W : World Ω) : Prop where
  log : N ≤ W.log.length
  served : ∀ conn ∈ W.conns, conn.client = i →
    ∀ n res, conn.served = some (n, res) → N ≤ n

/-- The origin has served no request of a client whose request has not been read. -/
theorem World.Ok.later (h : W.Ok adapters respond) {i : ℕ} (hi : W.proxy.Unread i) :
    W.Later i W.log.length where
  log := le_rfl
  served := fun conn hconn he n res hserved => by
    obtain ⟨c, hc, hreq⟩ := h.request conn hconn
    rw [he] at hc
    rw [hi c hc] at hreq
    cases hreq

theorem World.Later.step {i N : ℕ} (h : W.Later i N) {a : WorldAct}
    (hs : W.step adapters respond a = some W') : W'.Later i N := by
  cases a with
  | proxy a =>
    obtain ⟨-, s, -, rfl⟩ := World.step_proxy hs
    refine ⟨h.log, fun conn hconn he n res hserved => ?_⟩
    rcases List.mem_append.1 hconn with hconn | hconn
    · exact h.served conn hconn he n res hserved
    · exact absurd ((State.opened_request hconn).1.symm.trans hserved) nofun
  | serve k =>
    obtain ⟨conn, -, -, rfl⟩ := World.step_serve hs
    refine ⟨?_, fun conn' hconn he n res hserved => ?_⟩
    · have hlog := h.log
      simp only [List.length_append]
      omega
    · rcases List.mem_or_eq_of_mem_set hconn with hconn | rfl
      · exact h.served conn' hconn he n res hserved
      · cases hserved
        exact h.log
  | deliver k cut =>
    obtain ⟨conn, -, -, s, -, -, -, rfl⟩ := World.step_deliver hs
    exact ⟨h.log, h.served⟩

theorem World.Later.le {i N n : ℕ} {leg : Leg} {res : Response} (h : W.Later i N)
    (hs : W.Served i leg n res) : N ≤ n := by
  obtain ⟨conn, hmem, hi, -, hserved⟩ := hs
  exact h.served conn hmem hi n res hserved

/-! ## What a client is answered with -/

theorem World.Ok.answer (h : W.Ok adapters respond) {i n : ℕ} {c : Client} {leg : Leg}
    {res : Response} (hc : W.proxy.clients[i]? = some c) (hs : W.Served i leg n res) :
    ∃ ω req, c.request = some req ∧ W.log[n]? = some (ω, req) ∧
      res = (respond ω req).2 := by
  obtain ⟨conn, hmem, rfl, -, hserved⟩ := hs
  obtain ⟨ω, hlog, hres⟩ := h.served conn hmem n res hserved
  obtain ⟨c', hc', hreq⟩ := h.request conn hmem
  obtain rfl : c = c' := Option.some.inj (hc.symm.trans hc')
  exact ⟨ω, conn.request, hreq, hlog, hres⟩

/-- An object was built from a response of the origin, whole. -/
theorem World.Ok.built (h : W.Ok adapters respond) {i : ℕ} {c : Client} {o : Object}
    (hc : W.proxy.clients[i]? = some c) (ho : c.Built adapters o) :
    ∃ n req adapter res, c.request = some req ∧ shouldIntercept adapters req = some adapter ∧
      W.Served i .fetch n res ∧ res.Complete ∧
      o = ⟨adapter.extractObjectKey req, some res.body.data, res.header⟩ := by
  obtain ⟨req, adapter, read, hreq, ha, hfetched, hcomplete, rfl⟩ := ho
  obtain ⟨n, res, cut, hserved, rfl⟩ := h.got i c .fetch read hc hfetched
  have hwhole := Response.cutOff_of_complete hcomplete
  rw [hwhole] at hcomplete ⊢
  exact ⟨n, req, adapter, res, hreq, ha, hserved, hcomplete, rfl⟩

/-- The response made of such an object shows the origin's. -/
theorem Reply.shows_of_createLocalResponse {key : Bytes} {res response : Response}
    (hcomplete : res.Complete)
    (h : MinioObjectStorageAdapter.createLocalResponse ⟨key, some res.body.data, res.header⟩ =
      .ok (.ok response)) : (Reply.served response).Shows res := by
  cases h
  refine ⟨hcomplete.1.symm, rfl, ?_⟩
  show BodyReader.mk res.body.data none = res.body
  rw [← hcomplete.2]

/-- What was stored is answered with like what was fetched, where it is answered with at all. -/
theorem createLocalResponse_of_normalize {o : Object} {response : Response}
    (h : MinioObjectStorageAdapter.createLocalResponse o.normalize = .ok (.ok response)) :
    MinioObjectStorageAdapter.createLocalResponse o = .ok (.ok response) := by
  obtain ⟨key, data, header⟩ := o
  cases data with
  | none => cases h
  | some data =>
    by_cases hd : data = []
    · subst hd
      cases h
    · have hdata : (some data).filter (· ≠ []) = some data := by
        rw [Option.filter_some, if_pos (decide_eq_true hd)]
      unfold Object.normalize at h
      rwa [hdata] at h

variable {hosts : List Bytes}

/-- What a client is served is the origin's response to it, or to the client that filled the
entry. -/
theorem World.Ok.served_from (h : W.Ok (minioAdapters hosts) respond) {i : ℕ} {c : Client}
    {req : Request} {response : Response} (hc : W.proxy.clients[i]? = some c)
    (hreq : c.request = some req) (hreply : c.reply = some (.served response)) :
    (∃ n ω, W.Served i .fetch n (respond ω req).2 ∧ W.log[n]? = some (ω, req) ∧
      (Reply.served response).Shows (respond ω req).2) ∨
    ∃ j n ω req', c.hit = some j ∧ W.Served j .fetch n (respond ω req').2 ∧
      W.log[n]? = some (ω, req') ∧ (shouldIntercept (minioAdapters hosts) req').isSome ∧
      MinioObjectStorageAdapter.extractObjectKey req' =
        MinioObjectStorageAdapter.extractObjectKey req ∧
      (respond ω req').2.Complete ∧ (Reply.served response).Shows (respond ω req').2 := by
  obtain ⟨o, req₀, adapter, hsource, hreq₀, ha, hlocal⟩ :=
    (allServe_of_reachable h.proxy c (List.mem_of_getElem? hc)).reply response hreply
  rw [(minio_of_shouldIntercept ha).2] at hlocal
  rcases hsource with ⟨-, hbuilt⟩ | ⟨j, filled, hj, ⟨d, hd, hbuilt⟩, hasks, rfl⟩
  · obtain ⟨n, _, _, res, -, -, hserved, hcomplete, rfl⟩ := h.built hc hbuilt
    obtain ⟨ω, req', hreq', hlog, rfl⟩ := h.answer hc hserved
    obtain rfl : req = req' := Option.some.inj (hreq.symm.trans hreq')
    exact Or.inl ⟨n, ω, hserved, hlog, Reply.shows_of_createLocalResponse hcomplete hlocal⟩
  · have hfilled := hbuilt
    obtain ⟨n, _, _, res, -, -, hserved, hcomplete, rfl⟩ := h.built hd hbuilt
    obtain ⟨ω, req', hreq', hlog, rfl⟩ := h.answer hd hserved
    obtain ⟨hi, hkey⟩ := hfilled.key_eq hreq'
    exact Or.inr ⟨j, n, ω, req', hj, hserved, hlog, hi, hkey.trans (hasks.key_eq hreq).symm,
      hcomplete, Reply.shows_of_createLocalResponse hcomplete
        (createLocalResponse_of_normalize hlocal)⟩

/-- What is relayed to a client is the origin's response to it, or what came of it. -/
theorem World.Ok.relayed_from (h : W.Ok adapters respond) {i : ℕ} {c : Client} {req : Request}
    {sent : Response} (hc : W.proxy.clients[i]? = some c) (hreq : c.request = some req)
    (hreply : c.reply = some (.relayed sent)) :
    ∃ n ω, W.Served i .forward n (respond ω req).2 ∧ W.log[n]? = some (ω, req) ∧
      (Reply.relayed sent).Shows (respond ω req).2 := by
  have hgot : c.got .forward = some sent := by
    unfold Client.got
    rw [hreply]
  obtain ⟨n, res, cut, hserved, hcut⟩ := h.got i c .forward sent hc hgot
  obtain ⟨ω, req', hreq', hlog, rfl⟩ := h.answer hc hserved
  obtain rfl : req = req' := Option.some.inj (hreq.symm.trans hreq')
  exact ⟨n, ω, hserved, hlog, cut, hcut⟩

/-! ## Reads after a write -/

/-- **Reads after a write.** In every run, a `GET` read after the response to a write of its object
was returned is answered with the 503 of the proxy, with a state of the origin after the write, or
from the cache, with what the origin answered to the fetch that filled the entry. -/
theorem reads_after_write (hosts : List Bytes)
    (respond : Ω → Request → Ω × Response) (origin : Ω) (W W' : World Ω)
    (as : List WorldAct) (hW : (world (minioAdapters hosts) respond origin).Reachable W)
    (hrun : (world (minioAdapters hosts) respond origin).run W as = some W') :
    CoherentButHits respond hosts W W' := by
  intro n reqw i c req reply hwrote hunread hc hreq hget hsame hreply
  have hok := World.ok_of_reachable hW
  have hok' := World.ok_of_reachable (hW.of_run hrun)
  have hlater : W'.Later i W.log.length :=
    System.run_keeps (fun _ _ _ h hs => h.step hs) (hok.later hunread) hrun
  have hn : n < W.log.length := by
    obtain ⟨w, d, res, sent, hd, -, -, -, hserved⟩ := hwrote
    obtain ⟨ω, req', -, hlog, -⟩ := hok.answer hd hserved
    exact (List.getElem?_eq_some_iff.1 hlog).1
  have hafter {leg : Leg} {m : ℕ} {res : Response} (hserved : W'.Served i leg m res) : n < m := by
    have := hlater.le hserved
    omega
  cases reply with
  | unavailable => exact Or.inl rfl
  | served response =>
    rcases hok'.served_from hc hreq hreply with
      ⟨m, ω, hserved, hlog, hshows⟩ | ⟨j, m, ω, req', hj, hserved, hlog, hi, hkey,
        hcomplete, hshows⟩
    · exact Or.inr (Or.inl ⟨m, ω, hafter hserved, World.states_of_log hlog, hshows⟩)
    · exact Or.inr
        (Or.inr ⟨j, hj, m, ω, req', _, hserved, World.states_of_log hlog, rfl, hi, hkey,
        hcomplete, hshows⟩)
  | relayed sent =>
    obtain ⟨m, ω, hserved, hlog, hshows⟩ := hok'.relayed_from hc hreq hreply
    exact Or.inr (Or.inl ⟨m, ω, hafter hserved, World.states_of_log hlog, hshows⟩)

end World

/-- An origin with one object, or none. -/
def oneObject (body : Option Bytes) (req : Request) : Option Bytes × Response :=
  if req.method = methodPut then (some req.body, okResponse [])
  else if req.method = methodDelete then
    (none, { okResponse [] with status := ascii "204 No Content", statusCode := 204 })
  else
    match body with
    | some body => (some body, okResponse body)
    | none => (none, { okResponse [] with status := ascii "404 Not Found", statusCode := 404 })

/-- `PUT /bucket/object`. -/
def putObject (body : Bytes) : Request := { getObject with method := methodPut, body := body }

/-- A client writes, on the `k`-th connection, and has the response. -/
def writeActs (i k : ℕ) (addr : Addr) (req : Request) : List WorldAct :=
  [.proxy (.accept addr), .proxy (.client i (.readRequest (.ok req))),
    .proxy (.client i (.dialForward none)), .serve k, .deliver k none]

/-- A client misses, what it fetches on the `k`-th connection is stored, and it is served. -/
def missActs (i k : ℕ) (addr : Addr) (req : Request) : List WorldAct :=
  [.proxy (.accept addr), .proxy (.client i (.readRequest (.ok req))), .proxy (.client i .get),
    .proxy (.client i .doubleCheck), .proxy (.client i (.dial none)),
    .proxy (.client i (.write none)), .serve k, .deliver k none, .proxy (.client i .body),
    .proxy (.client i .errChan), .proxy (.client i .objChan), .proxy (.put 0),
    .proxy (.client i .serve), .proxy (.client i (.send none))]

def lima : List Bytes := [ascii "host.lima.internal:9000"]

/-- A write, and a miss after it. -/
theorem reads_after_write_miss :
    ∃ W W', (world (minioAdapters lima) oneObject none).run
        (world (minioAdapters lima) oneObject none).init
        (writeActs 0 0 ⟨0x0a000001, 9000⟩ (putObject [2])) = some W ∧
      (world (minioAdapters lima) oneObject none).run W
        (missActs 1 1 ⟨0x0a000001, 9000⟩ getObject) = some W' ∧
      W.Wrote 0 (putObject [2]) ∧ CoherentButHits oneObject lima W W' :=
  ⟨_, _, rfl, rfl, ⟨0, _, _, _, rfl, rfl, Or.inl rfl, rfl, _, List.mem_singleton.2 rfl,
    rfl, rfl, rfl⟩,
    reads_after_write lima oneObject none _ _ (missActs 1 1 ⟨0x0a000001, 9000⟩ getObject)
      ⟨writeActs 0 0 ⟨0x0a000001, 9000⟩ (putObject [2]), rfl⟩ rfl⟩

/-- The first client's object is stored, and the second client overwrites it. -/
def overwritten (addr : Addr) : World (Option Bytes) where
  proxy :=
    { store := (∅ : Store).insert (ascii "/bucket/object?")
        ⟨Object.encode ⟨ascii "/bucket/object?", some [1], some ∅⟩, 0⟩
      puts := []
      clients :=
        [⟨addr, some getObject, .done, some .ended, none, some (okResponse [1]), none,
            some (.served { okResponse [1] with status := [] })⟩,
          ⟨addr, some (putObject [2]), .done, none, none, none, none,
            some (.relayed (okResponse []))⟩]
      panic := none }
  origin := some [2]
  log := [(some [1], getObject), (some [1], putObject [2])]
  conns :=
    [⟨0, .fetch, getObject, some (0, okResponse [1])⟩,
      ⟨1, .forward, putObject [2], some (1, okResponse [])⟩]

/-- The third client is served from the cache. -/
def reread (addr : Addr) : World (Option Bytes) :=
  { overwritten addr with
    proxy := { (overwritten addr).proxy with
      clients := (overwritten addr).proxy.clients ++
        [⟨addr, some getObject, .done, none, none, none, some 0,
          some (.served { okResponse [1] with status := [] })⟩] } }

/-- The `GET` after the `PUT` is answered with the object that the `PUT` replaced. -/
theorem not_coherent :
    (world (minioAdapters lima) oneObject (some [1])).run
        (world (minioAdapters lima) oneObject (some [1])).init
        (missActs 0 0 ⟨0x0a000001, 9000⟩ getObject ++
          writeActs 1 1 ⟨0x0a000001, 9000⟩ (putObject [2])) =
      some (overwritten ⟨0x0a000001, 9000⟩) ∧
    (world (minioAdapters lima) oneObject (some [1])).run (overwritten ⟨0x0a000001, 9000⟩)
        ((hitRun 2 ⟨0x0a000001, 9000⟩ getObject).map .proxy) =
      some (reread ⟨0x0a000001, 9000⟩) ∧
    ¬ Coherent oneObject (overwritten ⟨0x0a000001, 9000⟩) (reread ⟨0x0a000001, 9000⟩) := by
  refine ⟨rfl, rfl, fun h => ?_⟩
  have hwrote : (overwritten ⟨0x0a000001, 9000⟩).Wrote 1 (putObject [2]) :=
    ⟨1, _, _, _, rfl, rfl, Or.inl rfl, rfl, _, List.mem_cons_of_mem _ (List.mem_singleton.2 rfl),
      rfl, rfl, rfl⟩
  have hunread : (overwritten ⟨0x0a000001, 9000⟩).proxy.Unread 2 := by
    intro c hc
    have hnone : ([] : List Client)[0]? = some c := hc
    cases hnone
  obtain ⟨m, ω, hm, hω, -, -, hbody⟩ :=
    h 1 (putObject [2]) 2 _ getObject _ hwrote hunread rfl rfl rfl ⟨rfl, rfl⟩ rfl
  have hω : [some [1], some [1], some [2]][m]? = some ω := hω
  match m, hm, hω with
  | 2, _, hω =>
    obtain rfl := Option.some.inj hω
    cases hbody

end Proxy

end AutomaticCache
