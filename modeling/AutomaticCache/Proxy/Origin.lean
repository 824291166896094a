import AutomaticCache.Proxy.Serving

/-!
# The proxy and one origin

A `World` is the proxy with the origin it talks to and the connections between them, one for each
fetch and each forwarded request. The origin serves each request it was sent at one moment, in its
state at that moment, and the `n`-th entry of `log` is the `n`-th request it has served. Nothing
changes its state but the requests it serves, and it is sent none but through the proxy.

What a goroutine reads is what the origin answered to the request of its client, or as much of it as
the connection brought (`World.Ok`).

Two things are left out. The origin sends no interim responses, of which a handler would relay the
first (`Proxy/FinalResponse.lean`). And it is handed the client's request, complete, whichever leg
it is written on, while a request with a body that was fetched in vain is forwarded without it
(`Proxy/Replay.lean`): in a run with such a request, what the origin makes of it stands for what it
makes of that request's head.
-/

namespace AutomaticCache

open Runs

/-- A response as it is read: to its end, or up to the `n`-th byte of its body and an error. -/
def Response.cutOff (res : Response) : Option (ℕ × GoError) → Response
  | none => res
  | some (n, err) => { res with body := ⟨res.body.data.take n, some err⟩ }

theorem Response.cutOff_of_complete {res : Response} {cut : Option (ℕ × GoError)}
    (h : (res.cutOff cut).Complete) : res.cutOff cut = res := by
  cases cut with
  | none => rfl
  | some cut => exact absurd h.2 nofun

namespace Proxy

/-- For which of its two dials a connection to the origin stands. -/
inductive Leg
  | fetch
  | forward
  deriving DecidableEq

/-- The step that reads the response. -/
def Leg.event : Leg → Response → Event
  | .fetch, res => .read (.ok res)
  | .forward, res => .forward (.ok res)

/-- A connection to the origin with the request that is written to it. `served` is the origin's
response, and which of all the requests the origin has served this one was. -/
structure Conn where
  client : ℕ
  leg : Leg
  request : Request
  served : Option (ℕ × Response)

structure World (Ω : Type) where
  proxy : State
  origin : Ω
  /-- The requests the origin has served, each with its state before. -/
  log : List (Ω × Request)
  conns : List Conn

inductive WorldAct
  /-- A step of the proxy in which it reads no response. -/
  | proxy (a : Act)
  /-- The origin serves the request of the `k`-th connection. -/
  | serve (k : ℕ)
  /-- The proxy reads the response from the `k`-th connection. -/
  | deliver (k : ℕ) (cut : Option (ℕ × GoError))

def Act.Reads : Act → Bool
  | .client _ (.read (.ok _)) | .client _ (.forward (.ok _)) => true
  | _ => false

section World

variable {Ω : Type} (adapters : List ObjectStorage) (respond : Ω → Request → Ω × Response)

/-- The connection on which client `i` writes its request. -/
def State.connect (s : State) (i : ℕ) (leg : Leg) : List Conn :=
  ((s.clients[i]?.bind Client.request).map fun req => ⟨i, leg, req, none⟩).toList

/-- What a step of the proxy writes to the origin. Of a write that fails the origin may still have
got everything, and `forward` does not look at the error of its own. What `forward` writes after a
fetch has lost its body, if it had one, which is not said here: a connection has its client's
request. -/
def State.opened (s : State) : Act → List Conn
  | .client i (.write _) => s.connect i .fetch
  | .client i (.dialForward none) => s.connect i .forward
  | _ => []

def World.step (W : World Ω) : WorldAct → Option (World Ω)
  | .proxy a =>
    if a.Reads then none
    else (Proxy.step adapters W.proxy a).map fun s =>
      { W with proxy := s, conns := W.conns ++ W.proxy.opened a }
  | .serve k => W.conns[k]?.bind fun conn =>
      match conn.served with
      | some _ => none
      | none => some { W with
          origin := (respond W.origin conn.request).1
          log := W.log ++ [(W.origin, conn.request)]
          conns := W.conns.set k
            { conn with served := some (W.log.length, (respond W.origin conn.request).2) } }
  | .deliver k cut => W.conns[k]?.bind fun conn => conn.served.bind fun served =>
      (Proxy.step adapters W.proxy
        (.client conn.client (conn.leg.event (served.2.cutOff cut)))).map fun s =>
          { W with proxy := s }

/-- The proxy and an origin that starts in state `origin`. -/
def world (origin : Ω) : System (World Ω) WorldAct where
  init := ⟨initial, origin, [], []⟩
  step := World.step adapters respond

/-- The states the origin has gone through, the present one last: in the `n`-th it has served `n`
requests. -/
def World.states (W : World Ω) : List Ω := W.log.map Prod.fst ++ [W.origin]

/-- On a connection of this client the origin has served its request as the `n`-th of all. -/
def World.Served (W : World Ω) (i : ℕ) (leg : Leg) (n : ℕ) (res : Response) : Prop :=
  ∃ conn ∈ W.conns, conn.client = i ∧ conn.leg = leg ∧ conn.served = some (n, res)

variable {adapters respond} {W W' : World Ω}

/-! ## What a step can do -/

theorem World.step_proxy {a : Act} (h : W.step adapters respond (.proxy a) = some W') :
    a.Reads = false ∧ ∃ s, Proxy.step adapters W.proxy a = some s ∧
      W' = { W with proxy := s, conns := W.conns ++ W.proxy.opened a } := by
  simp only [World.step] at h
  split_ifs at h with hr
  obtain ⟨s, hs, rfl⟩ := Option.map_eq_some_iff.1 h
  exact ⟨Bool.eq_false_iff.2 hr, s, hs, rfl⟩

theorem World.step_serve {k : ℕ} (h : W.step adapters respond (.serve k) = some W') :
    ∃ conn, W.conns[k]? = some conn ∧ conn.served = none ∧
      W' = { W with
        origin := (respond W.origin conn.request).1
        log := W.log ++ [(W.origin, conn.request)]
        conns := W.conns.set k
          { conn with served := some (W.log.length, (respond W.origin conn.request).2) } } := by
  obtain ⟨conn, hk, h⟩ := Option.bind_eq_some_iff.1 h
  cases hserved : conn.served with
  | none =>
    rw [hserved] at h
    exact ⟨conn, hk, hserved, (Option.some.inj h).symm⟩
  | some served =>
    rw [hserved] at h
    cases h

theorem World.step_deliver {k : ℕ} {cut : Option (ℕ × GoError)}
    (h : W.step adapters respond (.deliver k cut) = some W') :
    ∃ conn n res s, W.conns[k]? = some conn ∧ conn.served = some (n, res) ∧
      Proxy.step adapters W.proxy
        (.client conn.client (conn.leg.event (res.cutOff cut))) = some s ∧
      W' = { W with proxy := s } := by
  obtain ⟨conn, hk, h⟩ := Option.bind_eq_some_iff.1 h
  obtain ⟨⟨n, res⟩, hserved, h⟩ := Option.bind_eq_some_iff.1 h
  obtain ⟨s, hs, rfl⟩ := Option.map_eq_some_iff.1 h
  exact ⟨conn, n, res, s, hk, hserved, hs, rfl⟩

/-- A new connection is for a client that has a request. -/
theorem State.opened_request {s : State} {a : Act} {conn : Conn} (h : conn ∈ s.opened a) :
    conn.served = none ∧
      ∃ c, s.clients[conn.client]? = some c ∧ c.request = some conn.request := by
  have hconnect (i : ℕ) (leg : Leg) (h : conn ∈ s.connect i leg) : conn.served = none ∧
      ∃ c, s.clients[conn.client]? = some c ∧ c.request = some conn.request := by
    obtain ⟨req, hreq, rfl⟩ := Option.map_eq_some_iff.1 (Option.mem_toList.1 h)
    exact ⟨rfl, Option.bind_eq_some_iff.1 hreq⟩
  unfold State.opened at h
  split at h
  · exact hconnect _ _ h
  · exact hconnect _ _ h
  · exact absurd h List.not_mem_nil

/-! ## What a client has read -/

/-- The response that was read from the connection of this leg. -/
def Client.got (c : Client) : Leg → Option Response
  | .fetch => c.fetched
  | .forward =>
    match c.reply with
    | some (.relayed res) => some res
    | _ => none

theorem Leg.event_inj {leg leg' : Leg} {res res' : Response} (h : leg.event res = leg'.event res') :
    leg = leg' ∧ res = res' := by
  cases leg <;> cases leg' <;> cases h <;> exact ⟨rfl, rfl⟩

theorem Client.Step.got {c : Client} {store : Store} {e : Event} {effect : Effect}
    (hs : c.Step adapters store e effect) {leg : Leg} {res : Response}
    (h : effect.client.got leg = some res) : c.got leg = some res ∨ e = leg.event res := by
  cases leg with
  | fetch =>
    cases hs with
    | read res' hf => cases h; exact Or.inr rfl
    | _ => exact Or.inl h
  | forward =>
    cases hs with
    | forward res' hh => cases h; exact Or.inr rfl
    | send response hh => cases h
    | dialForwardFails err hh => cases h
    | forwardFails err hh => cases h
    | _ => exact Or.inl h

/-- A response is read in one step, and stays. -/
theorem got_step {s s' : State} {a : Act} (h : Proxy.step adapters s a = some s')
    {i : ℕ} {c' : Client} (hc' : s'.clients[i]? = some c') {leg : Leg} {res : Response}
    (hgot : c'.got leg = some res) :
    (∃ c, s.clients[i]? = some c ∧ c.got leg = some res) ∨ a = .client i (leg.event res) := by
  cases a with
  | accept targetAddr =>
    obtain rfl := step_accept h
    by_cases hi : i < s.clients.length
    · exact Or.inl ⟨c', (List.getElem?_append_left hi).symm.trans hc', hgot⟩
    · have hnew := (List.getElem?_append_right (Nat.not_lt.1 hi)).symm.trans hc'
      obtain rfl := List.mem_singleton.1 (List.mem_of_getElem? hnew)
      cases leg <;> cases hgot
  | client j e =>
    obtain ⟨c, effect, hc, hstep, rfl⟩ := step_client h
    by_cases hij : j = i
    · subst hij
      have hset : (s.clients.set j effect.client)[j]? = some effect.client :=
        List.getElem?_set_self (List.getElem?_eq_some_iff.1 hc).1
      obtain rfl : effect.client = c' := Option.some.inj (hset.symm.trans hc')
      rcases hstep.got hgot with hold | rfl
      · exact Or.inl ⟨c, hc, hold⟩
      · exact Or.inr rfl
    · exact Or.inl ⟨c', (List.getElem?_set_ne hij).symm.trans hc', hgot⟩
  | put n => obtain ⟨p, -, rfl⟩ := step_put h; exact Or.inl ⟨c', hc', hgot⟩
  | putFails n => obtain rfl := step_putFails h; exact Or.inl ⟨c', hc', hgot⟩
  | drop key => obtain rfl := step_drop h; exact Or.inl ⟨c', hc', hgot⟩

/-! ## Every run -/

/-- What the origin was sent are requests of clients, it has answered each in one of its states, and
the proxy has read nothing but its answers. -/
structure World.Ok (adapters : List ObjectStorage) (respond : Ω → Request → Ω × Response)
    (W : World Ω) : Prop where
  proxy : (system adapters).Reachable W.proxy
  request : ∀ conn ∈ W.conns,
    ∃ c, W.proxy.clients[conn.client]? = some c ∧ c.request = some conn.request
  served : ∀ conn ∈ W.conns, ∀ n res, conn.served = some (n, res) →
    ∃ ω, W.log[n]? = some (ω, conn.request) ∧ res = (respond ω conn.request).2
  got : ∀ (i : ℕ) (c : Client) leg res, W.proxy.clients[i]? = some c →
    c.got leg = some res →
    ∃ n res' cut, W.Served i leg n res' ∧ res = res'.cutOff cut

theorem World.ok_init (origin : Ω) : (world adapters respond origin).init.Ok adapters respond where
  proxy := .initial
  request := fun _ h => absurd h List.not_mem_nil
  served := fun _ h => absurd h List.not_mem_nil
  got := fun i c _ _ h => by
    have hnone : ([] : List Client)[i]? = some c := h
    cases hnone

/-- A step of the proxy leaves what the origin was sent the requests of clients. -/
theorem World.Ok.request_step (h : W.Ok adapters respond) {a : Act} {s : State}
    (hs : Proxy.step adapters W.proxy a = some s) {conn : Conn}
    (hc : ∃ c, W.proxy.clients[conn.client]? = some c ∧ c.request = some conn.request) :
    ∃ c, s.clients[conn.client]? = some c ∧ c.request = some conn.request := by
  obtain ⟨c, hc, hreq⟩ := hc
  obtain ⟨c', hc', hext⟩ := extends_step (filled_of_reachable h.proxy) hs _ c hc
  exact ⟨c', hc', hext.request _ hreq⟩

theorem World.Served.mono {i : ℕ} {leg : Leg} {n : ℕ} {res : Response}
    (h : W.Served i leg n res) (hconns : ∀ conn ∈ W.conns, conn.served ≠ none →
      conn ∈ W'.conns) : W'.Served i leg n res := by
  obtain ⟨conn, hmem, hi, hleg, hserved⟩ := h
  exact ⟨conn, hconns conn hmem (by rw [hserved]; nofun), hi, hleg, hserved⟩

theorem World.Ok.step (h : W.Ok adapters respond) {a : WorldAct}
    (hs : W.step adapters respond a = some W') : W'.Ok adapters respond := by
  cases a with
  | proxy a =>
    obtain ⟨hreads, s, hstep, rfl⟩ := World.step_proxy hs
    refine ⟨h.proxy.step hstep, fun conn hconn => ?_, fun conn hconn n res hserved => ?_,
      fun i c leg res hc hgot => ?_⟩
    · rcases List.mem_append.1 hconn with hconn | hconn
      · exact h.request_step hstep (h.request conn hconn)
      · exact h.request_step hstep (State.opened_request hconn).2
    · rcases List.mem_append.1 hconn with hconn | hconn
      · exact h.served conn hconn n res hserved
      · exact absurd ((State.opened_request hconn).1.symm.trans hserved) nofun
    · rcases got_step hstep hc hgot with ⟨c', hc', hgot'⟩ | rfl
      · obtain ⟨n, res', cut, hserved, hres⟩ := h.got i c' leg res hc' hgot'
        exact ⟨n, res', cut, hserved.mono fun _ hm _ => List.mem_append_left _ hm, hres⟩
      · cases leg <;> cases hreads
  | serve k =>
    obtain ⟨conn, hk, hnone, rfl⟩ := World.step_serve hs
    have hkeep : ∀ conn' ∈ W.conns, conn'.served ≠ none →
        ∀ new, conn' ∈ W.conns.set k new := by
      intro conn' hmem hne new
      obtain ⟨m, hm⟩ := List.mem_iff_getElem?.1 hmem
      have hkm : k ≠ m := by
        rintro rfl
        obtain rfl := Option.some.inj (hk.symm.trans hm)
        exact hne hnone
      exact List.mem_iff_getElem?.2 ⟨m, (List.getElem?_set_ne hkm).trans hm⟩
    refine ⟨h.proxy, fun conn' hconn => ?_, fun conn' hconn n res hserved => ?_,
      fun i c leg res hc hgot => ?_⟩
    · rcases List.mem_or_eq_of_mem_set hconn with hconn | rfl
      · exact h.request conn' hconn
      · exact h.request conn (List.mem_of_getElem? hk)
    · rcases List.mem_or_eq_of_mem_set hconn with hconn | rfl
      · obtain ⟨ω, hlog, hres⟩ := h.served conn' hconn n res hserved
        exact ⟨ω, (List.getElem?_append_left (List.getElem?_eq_some_iff.1 hlog).1).trans hlog,
          hres⟩
      · cases hserved
        exact ⟨W.origin, List.getElem?_concat_length .., rfl⟩
    · obtain ⟨n, res', cut, hserved, hres⟩ := h.got i c leg res hc hgot
      exact ⟨n, res', cut, hserved.mono fun conn' hm hne => hkeep conn' hm hne _, hres⟩
  | deliver k cut =>
    obtain ⟨conn, n, res, s, hk, hserved, hstep, rfl⟩ := World.step_deliver hs
    have hmem := List.mem_of_getElem? hk
    have hproxy : (system adapters).Reachable s :=
      h.proxy.step (a := .client conn.client (conn.leg.event (res.cutOff cut))) hstep
    refine ⟨hproxy, fun conn' hconn => h.request_step hstep (h.request conn' hconn), h.served,
      fun i c leg res' hc hgot => ?_⟩
    rcases got_step hstep hc hgot with ⟨c', hc', hgot'⟩ | hread
    · exact h.got i c' leg res' hc' hgot'
    · obtain ⟨rfl, he⟩ := Act.client.inj hread
      obtain ⟨hleg, rfl⟩ := Leg.event_inj he
      exact ⟨n, res, cut, ⟨conn, hmem, rfl, hleg, hserved⟩, rfl⟩

theorem World.ok_of_reachable {origin : Ω} (h : (world adapters respond origin).Reachable W) :
    W.Ok adapters respond :=
  h.invariant (World.ok_init origin) fun _ _ _ hI hs => hI.step hs

end World

end Proxy

end AutomaticCache
