import AutomaticCache.Proxy.Provenance
import AutomaticCache.Proxy.Transparency

/-!
# What ends the process

Nobody recovers from a panic, so that the one of `CreateLocalResponse` takes every connection down
with it. It comes from an empty object, and only from a hit on one: the fetch has data to point to,
and the store gives none back. So the process is safe with exactly those origins that never answer
an intercepted request completely and with an empty body (`never_panics_iff`).
-/

namespace AutomaticCache

open Runs Bytes

namespace Proxy

variable {hosts : List Bytes} {adapters : List ObjectStorage}

/-! ## The object that has no data -/

/-- The handler panics on the object it is to serve. -/
def Client.Panics (adapters : List ObjectStorage) (c : Client) : Prop :=
  ∃ o req adapter panic, c.handler = .serve o ∧ c.request = some req ∧
    shouldIntercept adapters req = some adapter ∧ adapter.createLocalResponse o = .error panic

theorem Client.panics_of_next {c : Client} {store : Store} {e : Event}
    {effect : Effect} {panic : Panic} (h : c.next adapters store e = some effect)
    (hpanic : effect.panic = some panic) :
    c.Panics adapters := by
  have hs := Client.step_of_next h
  cases hs with
  | servePanics o p hh =>
    cases hr : c.request with
    | none =>
      simp only [Client.next, hh, hr] at h
      cases h
    | some req =>
      simp only [Client.next, hh, hr] at h
      obtain ⟨adapter, ha, h⟩ := Option.map_eq_some_iff.1 h
      cases ho : adapter.createLocalResponse o with
      | error p => exact ⟨o, req, adapter, p, hh, hr, ha, ho⟩
      | ok result =>
        rw [ho] at h
        cases result <;> cases congrArg Effect.panic h
  | _ => cases hpanic

theorem data_of_panics {o : Object} {panic : Panic}
    (h : MinioObjectStorageAdapter.createLocalResponse o = .error panic) : o.data = none := by
  unfold MinioObjectStorageAdapter.createLocalResponse at h
  cases hdata : o.data with
  | none => rfl
  | some data =>
    rw [hdata] at h
    cases h

/-- A client panics on what the cache has given back of an object without a byte. -/
theorem Client.Serves.panics {B : ℕ → Object → Prop} {c : Client}
    (h : c.Serves (minioAdapters hosts) B) (hB : ∀ j o, B j o → o.data ≠ none)
    (hc : c.Panics (minioAdapters hosts)) :
    ∃ j filled, B j filled ∧ c.Asks (minioAdapters hosts) filled.key ∧
      filled.data = some [] := by
  obtain ⟨o, req, adapter, panic, hh, hreq, ha, hpanic⟩ := hc
  rw [(minio_of_shouldIntercept ha).2] at hpanic
  have hnone := data_of_panics hpanic
  rcases h.serve o hh with ⟨-, req', adapter', res, -, -, -, -, rfl⟩ | ⟨j, filled, -,
    hb, hasks, rfl⟩
  · cases hnone
  · refine ⟨j, filled, hb, hasks, ?_⟩
    obtain ⟨data, hdata⟩ := Option.ne_none_iff_exists'.1 (hB j filled hb)
    have hfilter : filled.data.filter (· ≠ []) = none := hnone
    rw [hdata, Option.filter_eq_none_iff] at hfilter
    have hempty := hfilter data rfl
    rw [decide_eq_true_eq, not_not] at hempty
    rw [hdata, hempty]

theorem State.BuiltBy.data_ne_none {s : State} {j : ℕ} {o : Object} (h : s.BuiltBy adapters j o) :
    o.data ≠ none := by
  obtain ⟨d, -, req, adapter, res, -, -, -, -, rfl⟩ := h
  exact Option.some_ne_none _

/-! ## The origin -/

section World

variable {Ω : Type} (respond : Ω → Request → Ω × Response)

/-- No intercepted request is answered completely and with an empty body. -/
def NeverEmpty (hosts : List Bytes) : Prop :=
  ∀ ω req, (shouldIntercept (minioAdapters hosts) req).isSome → (respond ω req).2.Complete →
    (respond ω req).2.body.data ≠ []

variable {respond} {W W' : World Ω} {s' : State}

/-- What a fetch has read completely, the origin has answered. -/
theorem World.Ok.built_from (h : W.Ok adapters respond) {j : ℕ} {o : Object}
    (hb : W.proxy.BuiltBy adapters j o) :
    ∃ ω req, (shouldIntercept adapters req).isSome ∧ (respond ω req).2.Complete ∧
      o.data = some (respond ω req).2.body.data := by
  obtain ⟨d, hd, req, adapter, res, hreq, ha, hfetched, hcomplete, rfl⟩ := hb
  obtain ⟨n, res', cut, ⟨conn, hconn, rfl, -, hserved⟩, rfl⟩ :=
    h.got j d .fetch res hd hfetched
  have hwhole := Response.cutOff_of_complete hcomplete
  rw [hwhole] at hcomplete ⊢
  obtain ⟨ω, -, rfl⟩ := h.served conn hconn n res' hserved
  obtain ⟨d', hd', hreq'⟩ := h.request conn hconn
  obtain rfl : d = d' := Option.some.inj (hd.symm.trans hd')
  obtain rfl : req = conn.request := Option.some.inj (hreq.symm.trans hreq')
  exact ⟨ω, conn.request, Option.isSome_iff_exists.2 ⟨adapter, ha⟩, hcomplete, rfl⟩

/-- A step of the proxy does not panic beside such an origin. -/
theorem World.Ok.no_panic (h : W.Ok (minioAdapters hosts) respond)
    (hempty : NeverEmpty respond hosts) (hp : W.proxy.panic = none) {a : Act}
    (hs : Proxy.step (minioAdapters hosts) W.proxy a = some s') : s'.panic = none := by
  cases a with
  | client i e =>
    simp only [Proxy.step, hp, ne_eq, not_true_eq_false, if_false] at hs
    obtain ⟨c, hc, hs⟩ := Option.bind_eq_some_iff.1 hs
    obtain ⟨effect, hnext, rfl⟩ := Option.map_eq_some_iff.1 hs
    by_contra hne
    obtain ⟨panic, hpanic⟩ := Option.ne_none_iff_exists'.1 hne
    have hserves := allServe_of_reachable h.proxy c (List.mem_of_getElem? hc)
    obtain ⟨j, filled, hb, -, hdata⟩ :=
      hserves.panics (fun _ _ hb => State.BuiltBy.data_ne_none hb)
      (Client.panics_of_next hnext hpanic)
    obtain ⟨ω, req, hi, hcomplete, hdata'⟩ := h.built_from hb
    exact hempty ω req hi hcomplete (Option.some.inj (hdata'.symm.trans hdata))
  | accept targetAddr => rw [step_accept hs]; exact hp
  | put n => obtain ⟨p, -, rfl⟩ := step_put hs; exact hp
  | putFails n => rw [step_putFails hs]; exact hp
  | drop key => rw [step_drop hs]; exact hp

theorem no_panic_of_neverEmpty (hempty : NeverEmpty respond hosts) {origin : Ω}
    (hW : (world (minioAdapters hosts) respond origin).Reachable W) : W.proxy.panic = none := by
  have hkeep (W : World Ω) (a : WorldAct) (W' : World Ω)
      (hI : W.Ok (minioAdapters hosts) respond ∧ W.proxy.panic = none)
      (hs : W.step (minioAdapters hosts) respond a = some W') :
      W'.Ok (minioAdapters hosts) respond ∧ W'.proxy.panic = none := by
    refine ⟨hI.1.step hs, ?_⟩
    cases a with
    | proxy a =>
      obtain ⟨-, s, hstep, rfl⟩ := World.step_proxy hs
      exact hI.1.no_panic hempty hI.2 hstep
    | serve k =>
      obtain ⟨conn, -, -, rfl⟩ := World.step_serve hs
      exact hI.2
    | deliver k cut =>
      obtain ⟨conn, n, res, s, -, -, hstep, rfl⟩ := World.step_deliver hs
      exact hI.1.no_panic hempty hI.2 hstep
  exact (hW.invariant ⟨World.ok_init origin, rfl⟩ hkeep).2

/-! ## The second request for an empty object -/

/-- A client that finds an object and is to be served it. -/
def panicRun (i : ℕ) (addr : Addr) (req : Request) : List Act :=
  [.accept addr, .client i (.readRequest (.ok req)), .client i .get, .client i .serve]

theorem run_panicRun {adapter : ObjectStorage} {a : Addr} {req : Request} {s : State} {o : Object}
    {entry : Entry} {panic : Panic} (ha : shouldIntercept adapters req = some adapter)
    (hp : s.panic = none) (hl : s.store.lookup (adapter.extractObjectKey req) = some entry)
    (hdata : entry.data = o.encode) (hr : adapter.createLocalResponse o.normalize = .error panic) :
    ∃ s', (system adapters).run s (panicRun s.clients.length a req) = some s' ∧
      s'.panic = some panic := by
  have hget := get_of_lookup_some hl hdata
  refine ⟨{ s with
    clients := s.clients ++
      [⟨a, some req, .serve o.normalize, none, none, none, some entry.filler, none⟩]
    panic := some panic }, ?_, rfl⟩
  simp [panicRun, System.run_cons, system, Proxy.step, Client.next, Client.accepted, ha,
    hget, State.after,
    Client.only, hr, hp, fillerOf, hl]

/-- Two clients ask for the object one after the other. -/
theorem neverEmpty_of_no_panic
    (h : ∀ origin W, (world (minioAdapters hosts) respond origin).Reachable W →
      W.proxy.panic = none) :
    NeverEmpty respond hosts := by
  intro ω req hi hcomplete hdata
  obtain ⟨adapter, ha⟩ := Option.isSome_iff_exists.1 hi
  let o : Object := ⟨adapter.extractObjectKey req, some [], (respond ω req).2.header⟩
  have ho : receive (adapter.extractObjectKey req) (respond ω req).2 = .ok o :=
    receive_eq_ok.2 ⟨hcomplete, by rw [hdata]⟩
  obtain ⟨response, hr⟩ : ∃ response, adapter.createLocalResponse o = .ok (.ok response) := by
    rw [(minio_of_shouldIntercept ha).2]
    exact ⟨_, rfl⟩
  have hr' : adapter.createLocalResponse o.normalize = .error .nilDereference := by
    rw [(minio_of_shouldIntercept ha).2]
    rfl
  have hmiss := run_missActs (a := ⟨0, 0⟩) ha ho hr
  let s : State :=
    ⟨(∅ : Store).insert o.key ⟨o.encode, 0⟩, [],
      [⟨⟨0, 0⟩, some req, .done, some .ended,
    none, some (respond ω req).2, none, some (.served response)⟩], none⟩
  have hl : s.store.lookup (adapter.extractObjectKey req) = some ⟨o.encode, 0⟩ :=
    Finmap.lookup_insert _
  obtain ⟨s', hpanics, hpanic⟩ := run_panicRun (s := s) (a := ⟨0, 0⟩) ha rfl hl rfl hr'
  have hquiet : ∀ b ∈ panicRun 1 ⟨0, 0⟩ req, b.Reads = false ∧ ∀ s : State,
      s.opened b = [] := by
    simp [panicRun, Act.Reads, State.opened]
  have hrun : (world (minioAdapters hosts) respond ω).Reachable
      ⟨s', (respond ω req).1, [(ω, req)],
        [⟨0, .fetch, req, some (0, (respond ω req).2)⟩]⟩ := by
    refine ⟨missActs 0 0 ⟨0, 0⟩ req ++ (panicRun 1 ⟨0, 0⟩ req).map .proxy, ?_⟩
    rw [System.run_append_eq _ hmiss]
    exact World.run_proxy (W := ⟨s, _, _, _⟩) hquiet hpanics
  cases (h ω _ hrun).symm.trans hpanic

/-- **Crash.** For every origin: that no run ends in a panic holds exactly when the origin never
answers an intercepted request completely and with an empty body. -/
theorem never_panics_iff (hosts : List Bytes) (respond : Ω → Request → Ω × Response) :
    (∀ origin W, (world (minioAdapters hosts) respond origin).Reachable W →
      W.proxy.panic = none) ↔
      NeverEmpty respond hosts :=
  ⟨neverEmpty_of_no_panic, fun hempty _ _ hW => no_panic_of_neverEmpty hempty hW⟩

end World

/-! ## The programs -/

/-- **Crash, of the programs.** Where a handler has panicked, some handler has fetched an object
without a byte, under the key of the request that the first has read. -/
theorem programs_panic (hosts : List Bytes) (S : Server)
    (hS : (server (minioAdapters hosts)).Reachable S) (conn : Connection)
    (hconn : conn ∈ S.connections) (hpanicked : conn.panicked = true) :
    ∃ req, ⟨.readRequest, .ok req⟩ ∈ conn.asked ∧ ∃ conn' ∈ S.connections, ∃ filled,
      conn'.Fetched (minioAdapters hosts) filled ∧
      filled.key = MinioObjectStorageAdapter.extractObjectKey req ∧ filled.data = some [] := by
  obtain ⟨s, hs, hf⟩ := Server.followed hS
  obtain ⟨c, hc, hfollows⟩ := hf.client hconn
  obtain ⟨panic, hmain⟩ := Connection.panicked_iff.1 hpanicked
  obtain ⟨p, hb, hstage⟩ := hfollows.rest
  rw [hmain] at hb
  cases hb with
  | ret _ hgs =>
    have hnext : c.next (minioAdapters hosts) s.store .serve = some ⟨c, none, some panic⟩ :=
      hstage.panics_of_ret
    have hpanics := Client.panics_of_next hnext rfl
    obtain ⟨j, filled, hbuilt, hasks, hdata⟩ := (allServe_of_reachable hs c hc).panics
      (fun _ _ hb => State.BuiltBy.data_ne_none hb) hpanics
    obtain ⟨conn', hconn', hfetched⟩ := hf.fetched_of_builtBy hbuilt
    obtain ⟨req, -, hreq, -⟩ := id hasks
    exact ⟨req, (hfollows.request req).1 hreq, conn', hconn', filled, hfetched,
      (hasks.key_eq hreq).symm, hdata⟩

/-- An empty object is fetched and stored, and asked for again. -/
def emptySchedule : List ServerAct :=
  missSchedule 0 ⟨0x0a000001, 9000⟩ getObject (okResponse []) ++
    .accept ⟨0x0a000001, 9000⟩ :: [.main, .main, .main].map
      (.run 1 (brings getObject (okResponse [])))

theorem programs_panic_empty :
    ∃ S conn, (server (minioAdapters [ascii "host.lima.internal:9000"])).run
        (server (minioAdapters [ascii "host.lima.internal:9000"])).init emptySchedule = some S ∧
      S.connections[1]? = some conn ∧ conn.panicked = true ∧
      ∃ req, ⟨.readRequest, .ok req⟩ ∈ conn.asked ∧
        ∃ conn' ∈ S.connections, ∃ filled,
        conn'.Fetched (minioAdapters [ascii "host.lima.internal:9000"]) filled ∧
        filled.key = MinioObjectStorageAdapter.extractObjectKey req ∧ filled.data = some [] :=
  ⟨_, _, rfl, rfl, rfl, programs_panic [ascii "host.lima.internal:9000"] _
    ⟨emptySchedule, rfl⟩ _ (List.mem_of_getElem? (i := 1) rfl) rfl⟩

end Proxy

end AutomaticCache
