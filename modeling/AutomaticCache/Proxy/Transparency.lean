import AutomaticCache.Proxy.Delivery

/-!
# Transparency

A client of the proxy that is answered with a response could have got it from the origin: it is what
the origin answers to the client's own request in one of the states it has gone through. Only a hit
can break this, which shows what the origin answered to another request with the same key. So the
proxy is transparent exactly for those origins that, apart from what the two do to its state, do not
tell requests with one key apart (`transparent_iff`).
-/

namespace AutomaticCache

open Runs

/-- The two look the same to a client that is served one from the cache. -/
structure Response.Alike (res res' : Response) : Prop where
  statusCode : res.statusCode = res'.statusCode
  header : res.header = res'.header
  body : res.body = res'.body

namespace Proxy

section World

variable {Ω : Type} (respond : Ω → Request → Ω × Response)

variable {respond} {adapters : List ObjectStorage} {W W' : World Ω}

/-! ## The states of the origin -/

variable {hosts : List Bytes}

/-- What the proxy does without the origin, the world does. -/
theorem World.run_proxy {origin : Ω} {as : List Act}
    (has : ∀ a ∈ as, a.Reads = false ∧ ∀ s : State, s.opened a = []) {s : State}
    (h : (system adapters).run W.proxy as = some s) :
    (world adapters respond origin).run W (as.map .proxy) = some { W with proxy := s } := by
  induction as generalizing W with
  | nil =>
    obtain rfl := Option.some.inj h
    rfl
  | cons a as ih =>
    obtain ⟨s', hs', h⟩ := System.run_cons_some.1 h
    obtain ⟨hreads, hopened⟩ := has a (List.mem_cons_self ..)
    have hs' : Proxy.step adapters W.proxy a = some s' := hs'
    have hstep : (world adapters respond origin).step W (.proxy a) =
        some { W with proxy := s' } := by
      simp [world, World.step, hreads, hs', hopened]
    rw [List.map_cons, System.run_cons_eq hstep]
    exact ih (W := { W with proxy := s' }) (fun b hb => has b (List.mem_cons_of_mem a hb)) h

/-- A client that has misses twice, up to the write of the fetch. -/
def missLooks (a : Addr) (req : Request) : List Act :=
  [.accept a, .client 0 (.readRequest (.ok req)), .client 0 .get, .client 0 .doubleCheck,
    .client 0 (.dial none)]

/-- What the fetch has read is stored, and served. -/
def missServes : List Act :=
  [.client 0 .body, .client 0 .errChan, .client 0 .objChan, .put 0, .client 0 .serve,
    .client 0 (.send none)]

section Miss

variable {adapter : ObjectStorage} {a : Addr} {req : Request} {ω : Ω} {o : Object}
    {res response : Response}

theorem run_missLooks (ha : shouldIntercept adapters req = some adapter) :
    (system adapters).run initial (missLooks a req) =
      some ⟨∅, [], [⟨a, some req, .awaitErr, some .write, none, none, none, none⟩],
        none⟩ := by
  have hmiss : BigcacheWrapper.get (bigcache 0) ∅ (adapter.extractObjectKey req) =
      .error BigcacheWrapper.errEntryNotFound := get_of_lookup_none (Finmap.lookup_empty _)
  simp [missLooks, System.run_cons, system, step, initial, Client.next, Client.accepted, ha, hmiss,
    State.after, Client.only]

theorem run_missServes (ha : shouldIntercept adapters req = some adapter)
    (ho : receive (adapter.extractObjectKey req) res = .ok o)
    (hr : adapter.createLocalResponse o = .ok (.ok response)) :
    (system adapters).run
        ⟨∅, [], [⟨a, some req, .awaitErr, some (.body res), none, some res, none, none⟩],
          none⟩
        missServes =
      some ⟨(∅ : Store).insert o.key ⟨o.encode, 0⟩, [],
        [⟨a, some req, .done, some .ended, none, some res, none, some (.served response)⟩],
        none⟩ := by
  simp [missServes, System.run_cons, system, step, Client.next, ha, ho, hr,
    State.after, Client.only, put_bigcache]

/-- The first client misses, and its object is stored. -/
theorem run_missActs (ha : shouldIntercept adapters req = some adapter)
    (ho : receive (adapter.extractObjectKey req) (respond ω req).2 = .ok o)
    (hr : adapter.createLocalResponse o = .ok (.ok response)) :
    (world adapters respond ω).run (world adapters respond ω).init (missActs 0 0 a req) =
      some
        { proxy := ⟨(∅ : Store).insert o.key ⟨o.encode, 0⟩, [],
            [⟨a, some req, .done, some .ended, none, some (respond ω req).2, none,
              some (.served response)⟩], none⟩
          origin := (respond ω req).1
          log := [(ω, req)]
          conns := [⟨0, .fetch, req, some (0, (respond ω req).2)⟩] } := by
  have hsplit : missActs 0 0 a req = (missLooks a req).map .proxy ++
      ([.proxy (.client 0 (.write none)), .serve 0, .deliver 0 none] ++ missServes.map .proxy) :=
        rfl
  have hlooks : ∀ b ∈ missLooks a req, b.Reads = false ∧ ∀ s : State, s.opened b = [] := by
    simp [missLooks, Act.Reads, State.opened]
  have hserves : ∀ b ∈ missServes, b.Reads = false ∧ ∀ s : State, s.opened b = [] := by
    simp [missServes, Act.Reads, State.opened]
  have hfetch : (world adapters respond ω).run
      ⟨⟨∅, [], [⟨a, some req, .awaitErr, some .write, none, none, none, none⟩], none⟩,
        ω, [], []⟩
      [.proxy (.client 0 (.write none)), .serve 0, .deliver 0 none] =
        some ⟨⟨∅, [], [⟨a, some req, .awaitErr, some (.body (respond ω req).2), none,
          some (respond ω req).2, none, none⟩], none⟩, (respond ω req).1, [(ω, req)],
          [⟨0, .fetch, req, some (0, (respond ω req).2)⟩]⟩ := rfl
  have hinit : (world adapters respond ω).init = ⟨initial, ω, [], []⟩ := rfl
  rw [hsplit, hinit,
    System.run_append_eq _ (World.run_proxy (W := ⟨initial, ω, [], []⟩) hlooks
      (run_missLooks ha)),
    System.run_append_eq _ hfetch]
  exact World.run_proxy hserves (run_missServes ha ho hr)

end Miss

end World

end Proxy

end AutomaticCache
