import AutomaticCache.Proxy.Authorization

/-!
# How often a request reaches the origin

The request of a client is written to the origin in two places: by the fetch for it, and when it is
forwarded. Each of the two happens once at most (`World.Once`). A request that is not intercepted is
not fetched for, so that a write is never repeated, and a client that is served from the cache has
sent the origin nothing (`sent_once`).
-/

namespace AutomaticCache

open Runs

namespace Proxy

variable {adapters : List ObjectStorage}

/-! ## One client -/

/-- The stages of a client's goroutines allow that its request was written on this leg. -/
def Client.HasSent (c : Client) : Leg → Prop
  | .fetch =>
    match c.fetch with
    | none | some .dial | some .write => False
    | _ => True
  | .forward =>
    match c.handler, c.reply with
    | .forward, _ | .done, some .unavailable | .done, some (.relayed _) => True
    | _, _ => False

/-- A step with this event writes the request on this leg. -/
def Event.Writes : Leg → Event → Prop
  | .fetch, .write _ | .forward, .dialForward none => True
  | _, _ => False

def Client.Intercepted (adapters : List ObjectStorage) (c : Client) : Prop :=
  ∃ req adapter, c.request = some req ∧ shouldIntercept adapters req = some adapter

/-- Only for an intercepted request is there a fetch, and only where no lookup has found
anything. -/
structure Client.Fetches (adapters : List ObjectStorage) (c : Client) : Prop where
  looks : c.handler = .get ∨ c.handler = .doubleCheck → c.Intercepted adapters
  early : c.handler.Early → c.hit = none
  fetch : c.fetch ≠ none → c.Intercepted adapters ∧ c.hit = none

namespace Client

variable {c : Client} {store : Store} {e : Event} {effect : Effect} {leg : Leg}

/-- What was written stays written. -/
theorem HasSent.step (hok : c.Ok adapters) (h : c.HasSent leg)
    (hs : c.Step adapters store e effect) :
    effect.client.HasSent leg := by
  cases leg with
  | fetch =>
    cases hs with
    | doubleCheckMiss hh =>
      have hfetch : c.fetch = none := hok.early (by rw [hh]; trivial)
      rw [HasSent, hfetch] at h
      exact h.elim
    | dial hf =>
      rw [HasSent, hf] at h
      exact h.elim
    | dialFails | writeFails | write | readFails | read | bodyFails | body | errChanErr | errChanNil
    | objChan => trivial
    | _ => exact h
  | forward =>
    cases hs with
    | dialForward | forwardFails | forward | dialForwardFails => trivial
    | badRequest _ hh | intercepted _ _ hh | notIntercepted _ hh | getHit _ _ hh | getMiss hh
    | doubleCheckHit _ _ hh | doubleCheckMiss hh | errChanErr _ hh | errChanNil _ hh | objChan _ hh
    | serveFails _ hh | serve _ _ _ _ hh | sendFails _ _ hh | send _ hh =>
      rw [HasSent, hh] at h
      exact h.elim
    | _ => exact h

/-- A request is not written twice on one leg. -/
theorem Step.writes (hs : c.Step adapters store e effect) (he : e.Writes leg) :
    ¬c.HasSent leg ∧ effect.client.HasSent leg := by
  cases leg with
  | fetch =>
    cases hs with
    | writeFails err hf | write hf => exact ⟨by rw [HasSent, hf]; exact not_false, trivial⟩
    | _ => exact he.elim
  | forward =>
    cases hs with
    | dialForward hh => exact ⟨by rw [HasSent, hh]; exact not_false, trivial⟩
    | _ => exact he.elim

theorem fetches_accepted (targetAddr : Addr) : (accepted targetAddr).Fetches adapters where
  looks := fun h => by rcases h with h | h <;> cases h
  early := fun _ => rfl
  fetch := fun h => absurd rfl h

/-- A step of the handler after the lookups, or of the fetch. -/
theorem Fetches.later {c' : Client} (h : c.Fetches adapters) (hreq : c'.request = c.request)
    (hhit : c.hit = none → c'.hit = none) (hfetch : c'.fetch ≠ none → c.fetch ≠ none)
    (hh : ¬c'.handler.Early) : c'.Fetches adapters where
  looks := fun he => absurd (by rcases he with he | he <;> rw [he] <;> trivial) hh
  early := fun he => absurd he hh
  fetch := fun hf => by
    obtain ⟨hi, hnone⟩ := h.fetch (hfetch hf)
    refine ⟨?_, hhit hnone⟩
    unfold Intercepted
    rwa [hreq]

theorem Fetches.step (hok : c.Ok adapters) (h : c.Fetches adapters)
    (hs : c.Step adapters store e effect) : effect.client.Fetches adapters := by
  cases hs with
  | badRequest => exact h.later rfl id id not_false
  | intercepted req adapter hh ha =>
    have hearly : c.handler.Early := by rw [hh]; trivial
    exact ⟨fun _ => ⟨req, adapter, rfl, ha⟩, fun _ => h.early hearly,
      fun hf => absurd (hok.early hearly) hf⟩
  | notIntercepted req hh ha =>
    refine ⟨nofun, fun he => he.elim, fun hf => absurd (hok.early ?_) hf⟩
    rw [hh]
    trivial
  | getHit _ _ hh | doubleCheckHit _ _ hh =>
    refine ⟨nofun, fun he => he.elim, fun hf => absurd (hok.early ?_) hf⟩
    rw [hh]
    trivial
  | getMiss hh =>
    exact ⟨fun _ => h.looks (Or.inl hh), fun _ => h.early (by rw [hh]; trivial), h.fetch⟩
  | doubleCheckMiss hh =>
    refine ⟨nofun, fun he => he.elim, fun _ => ⟨h.looks (Or.inr hh), h.early ?_⟩⟩
    rw [hh]
    trivial
  | dialFails _ hf | dial hf | writeFails _ hf | write hf | readFails _ hf | read _ hf
  | bodyFails _ _ hf | body _ _ _ _ hf =>
    refine h.later rfl id (fun _ => ?_) (hok.not_early hf)
    rw [hf]
    exact Option.some_ne_none _
  | errChanErr _ hh hf | errChanNil _ hh hf | objChan _ hh hf =>
    refine h.later rfl id (fun _ => ?_) not_false
    rw [hf]
    exact Option.some_ne_none _
  | servePanics => exact h
  | serveFails | sendFails => exact h.later rfl (fun _ => rfl) id not_false
  | serve | send | dialForwardFails | dialForward | forwardFails | forward =>
    exact h.later rfl id id not_false

end Client

theorem fetches_of_reachable {s : State} (h : (system adapters).Reachable s) :
    ∀ c ∈ s.clients, c.Fetches adapters :=
  clients_of_reachable Client.fetches_accepted (fun _ _ _ _ hok hc hs => hc.step hok hs) h

/-! ## The origin -/

section World

variable {Ω : Type} {respond : Ω → Request → Ω × Response} {W W' : World Ω}

/-- Each client has one connection to the origin for each leg at most, only where its stages say so,
and each request that the origin has served is that of one connection. -/
structure World.Once (W : World Ω) : Prop where
  leg : ∀ (k k' : ℕ) (conn conn' : Conn), W.conns[k]? = some conn →
    W.conns[k']? = some conn' →
    conn.client = conn'.client → conn.leg = conn'.leg → k = k'
  sent : ∀ conn ∈ W.conns, ∀ c, W.proxy.clients[conn.client]? = some c → c.HasSent conn.leg
  number : ∀ (k k' : ℕ) (conn conn' : Conn) (n : ℕ) (res res' : Response),
    W.conns[k]? = some conn →
    W.conns[k']? = some conn' → conn.served = some (n, res) →
    conn'.served = some (n, res') → k = k'
  log : ∀ n < W.log.length, ∃ conn ∈ W.conns, ∃ res, conn.served = some (n, res)

theorem World.once_init (origin : Ω) : (world adapters respond origin).init.Once where
  leg := fun k _ conn _ hk => by
    have hnone : ([] : List Conn)[k]? = some conn := hk
    cases hnone
  sent := fun _ hconn => absurd hconn List.not_mem_nil
  number := fun k _ conn _ _ _ _ hk => by
    have hnone : ([] : List Conn)[k]? = some conn := hk
    cases hnone
  log := fun n hn => absurd hn (Nat.not_lt_zero n)

/-- What a step of the proxy writes is one request, on a leg on which its client has sent none
yet. -/
theorem State.opened_writes {s : State} {a : Act} (hne : s.opened a ≠ []) : ∃ i e leg req,
    a = .client i e ∧ e.Writes leg ∧ s.opened a = [⟨i, leg, req, none⟩] := by
  have hconnect (i : ℕ) (leg : Leg) (hne : s.connect i leg ≠ []) :
      ∃ req, s.connect i leg = [⟨i, leg, req, none⟩] := by
    unfold State.connect at hne ⊢
    cases hreq : s.clients[i]?.bind Client.request with
    | none =>
      rw [hreq] at hne
      exact absurd rfl hne
    | some req => exact ⟨req, rfl⟩
  unfold State.opened at hne ⊢
  split at hne
  · obtain ⟨req, hopened⟩ := hconnect _ _ hne
    exact ⟨_, _, .fetch, req, rfl, trivial, hopened⟩
  · obtain ⟨req, hopened⟩ := hconnect _ _ hne
    exact ⟨_, _, .forward, req, rfl, trivial, hopened⟩
  · exact absurd rfl hne

/-- A step of the proxy, apart from what it writes. -/
theorem World.Once.sent_step (h : W.Once) (hok : W.Ok adapters respond) {a : Act} {s : State}
    (hs : Proxy.step adapters W.proxy a = some s) :
    ∀ conn ∈ W.conns, ∀ c', s.clients[conn.client]? = some c' → c'.HasSent conn.leg := by
  intro conn hconn c' hc'
  obtain ⟨c, hc, -⟩ := hok.request conn hconn
  have hsent := h.sent conn hconn c hc
  rcases step_clients hs hc with ⟨hsame, -⟩ | ⟨e, effect, -, hstep, hsame⟩
  · rwa [Option.some.inj (hc'.symm.trans hsame)]
  · rw [Option.some.inj (hc'.symm.trans hsame)]
    exact hsent.step ((filled_of_reachable hok.proxy).ok c (List.mem_of_getElem? hc)) hstep

theorem World.Once.proxy (h : W.Once) (hok : W.Ok adapters respond) {a : Act} {s : State}
    (hs : Proxy.step adapters W.proxy a = some s) :
    ({ W with proxy := s, conns := W.conns ++ W.proxy.opened a } : World Ω).Once := by
  have hsent := h.sent_step hok hs
  by_cases hne : W.proxy.opened a = []
  · rw [hne, List.append_nil]
    exact ⟨h.leg, hsent, h.number, h.log⟩
  obtain ⟨i, e, leg, req, rfl, hwrites, hopened⟩ := State.opened_writes hne
  obtain ⟨c, effect, hc, hstep, rfl⟩ := step_client hs
  obtain ⟨hnew, hdone⟩ := hstep.writes hwrites
  rw [hopened]
  -- the client has no connection for this leg yet
  have hfresh : ∀ conn ∈ W.conns, conn.client = i → conn.leg ≠ leg := by
    rintro conn hconn rfl rfl
    exact hnew (h.sent conn hconn c hc)
  refine ⟨fun k k' conn conn' hk hk' hclient hleg => ?_, fun conn hconn c' hc' => ?_,
    fun k k' conn conn' n res res' hk hk' hn hn' => ?_, fun n hn => ?_⟩
  · rcases getElem?_concat_cases hk with hk | ⟨rfl, rfl⟩ <;>
      rcases getElem?_concat_cases hk' with hk' | ⟨rfl, rfl⟩
    · exact h.leg k k' conn conn' hk hk' hclient hleg
    · exact absurd hleg (hfresh conn (List.mem_of_getElem? hk) hclient)
    · exact absurd hleg.symm (hfresh conn' (List.mem_of_getElem? hk') hclient.symm)
    · rfl
  · rcases List.mem_append.1 hconn with hconn | hconn
    · exact hsent conn hconn c' hc'
    · obtain rfl := List.mem_singleton.1 hconn
      have hlt := (List.getElem?_eq_some_iff.1 hc).1
      have hself : (W.proxy.clients.set i effect.client)[i]? = some effect.client :=
        List.getElem?_set_self hlt
      rwa [Option.some.inj (hc'.symm.trans hself)]
  · rcases getElem?_concat_cases hk with hk | ⟨rfl, rfl⟩
    · rcases getElem?_concat_cases hk' with hk' | ⟨rfl, rfl⟩
      · exact h.number k k' conn conn' n res res' hk hk' hn hn'
      · cases hn'
    · cases hn
  · obtain ⟨conn, hconn, hserved⟩ := h.log n hn
    exact ⟨conn, List.mem_append_left _ hconn, hserved⟩

/-- The origin serves one request more, of a connection that had none served. -/
theorem World.Once.serve (h : W.Once) (hok : W.Ok adapters respond) {k : ℕ}
    {conn : Conn} {ω : Ω} {res : Response} (hk : W.conns[k]? = some conn)
    (hnone : conn.served = none) :
    ({ W with
        origin := ω
        log := W.log ++ [(W.origin, conn.request)]
        conns := W.conns.set k { conn with served := some (W.log.length, res) } } :
          World Ω).Once := by
  have hlt := (List.getElem?_eq_some_iff.1 hk).1
  -- a connection after the step is as it was before, but for what it was served
  have hold {j : ℕ} {d : Conn}
      (hj : (W.conns.set k { conn with served := some (W.log.length, res) })[j]? =
      some d) : (j = k ∧ d = { conn with served := some (W.log.length, res) }) ∨
        (j ≠ k ∧ W.conns[j]? = some d) := by
    by_cases hjk : j = k
    · subst hjk
      rw [List.getElem?_set_self hlt] at hj
      exact Or.inl ⟨rfl, (Option.some.inj hj).symm⟩
    · exact Or.inr ⟨hjk, (List.getElem?_set_ne (Ne.symm hjk)).symm.trans hj⟩
  have hnew {j : ℕ} {d : Conn} {res' : Response} (hj : W.conns[j]? = some d) :
      d.served ≠ some (W.log.length, res') := by
    intro hd
    obtain ⟨ω', hlog, -⟩ := hok.served d (List.mem_of_getElem? hj) _ _ hd
    exact absurd (List.getElem?_eq_some_iff.1 hlog).1 (lt_irrefl _)
  refine ⟨fun j j' d d' hj hj' hclient hleg => ?_, fun d hd c hc => ?_,
    fun j j' d d' n r r' hj hj' hn hn' => ?_, fun n hn => ?_⟩
  · rcases hold hj with ⟨rfl, rfl⟩ | ⟨-, hd⟩ <;> rcases hold hj' with
      ⟨rfl, rfl⟩ | ⟨-, hd'⟩
    · rfl
    · exact h.leg _ _ conn d' hk hd' hclient hleg
    · exact h.leg _ _ d conn hd hk hclient hleg
    · exact h.leg _ _ d d' hd hd' hclient hleg
  · obtain ⟨j, hj⟩ := List.getElem?_of_mem hd
    rcases hold hj with ⟨rfl, rfl⟩ | ⟨-, hj⟩
    · exact h.sent conn (List.mem_of_getElem? hk) c hc
    · exact h.sent d (List.mem_of_getElem? hj) c hc
  · rcases hold hj with ⟨rfl, rfl⟩ | ⟨-, hd⟩ <;> rcases hold hj' with
      ⟨rfl, rfl⟩ | ⟨-, hd'⟩
    · rfl
    · cases hn
      exact absurd hn' (hnew hd')
    · cases hn'
      exact absurd hn (hnew hd)
    · exact h.number _ _ d d' n r r' hd hd' hn hn'
  · rw [List.length_append, List.length_singleton, Nat.lt_succ_iff] at hn
    rcases Nat.lt_or_eq_of_le hn with hn | rfl
    · obtain ⟨d, hd, r, hr⟩ := h.log n hn
      obtain ⟨j, hj⟩ := List.getElem?_of_mem hd
      have hjk : k ≠ j := by
        rintro rfl
        obtain rfl := Option.some.inj (hk.symm.trans hj)
        cases hnone.symm.trans hr
      exact ⟨d, List.mem_of_getElem? ((List.getElem?_set_ne hjk).trans hj), r, hr⟩
    · exact ⟨_, List.mem_of_getElem? (List.getElem?_set_self hlt), res, rfl⟩

theorem World.Once.step (h : W.Once) (hok : W.Ok adapters respond) {a : WorldAct}
    (hs : W.step adapters respond a = some W') : W'.Once := by
  cases a with
  | proxy a =>
    obtain ⟨-, s, hstep, rfl⟩ := World.step_proxy hs
    exact h.proxy hok hstep
  | serve k =>
    obtain ⟨conn, hk, hnone, rfl⟩ := World.step_serve hs
    exact h.serve hok hk hnone
  | deliver k cut =>
    obtain ⟨conn, n, res, s, -, -, hstep, rfl⟩ := World.step_deliver hs
    exact ⟨h.leg, h.sent_step hok hstep, h.number, h.log⟩

theorem World.once_of_reachable {origin : Ω} (h : (world adapters respond origin).Reachable W) :
    W.Once := by
  have hkeep : ∀ W a W', (W.Ok adapters respond ∧ W.Once) →
      (world adapters respond origin).step W a = some W' → W'.Ok adapters respond ∧ W'.Once :=
    fun _ _ _ hI hs => ⟨hI.1.step hs, hI.2.step hI.1 hs⟩
  exact (h.invariant ⟨World.ok_init origin, World.once_init origin⟩ hkeep).2

/-- For each request the origin has served there is one client whose request it is, and one leg. The
origin serves the request of a client once on each leg at most; where it is no `GET` only when it is
forwarded, and where the client was served a hit not at all. It has served what is relayed, and the
fetch for a client that is served without a hit, whose answer the client is shown. -/
structure World.SentOnce (W : World Ω) : Prop where
  asked : ∀ n ω req, W.log[n]? = some (ω, req) → ∃ i leg c res,
    W.Served i leg n res ∧ W.proxy.clients[i]? = some c ∧ c.request = some req ∧
      ∀ i' leg' res', W.Served i' leg' n res' → i' = i ∧ leg' = leg
  once : ∀ i leg n n' res res', W.Served i leg n res → W.Served i leg n' res' → n = n'
  write : ∀ (i : ℕ) (c : Client) req leg n res, W.proxy.clients[i]? = some c →
    c.request = some req →
    req.method ≠ methodGet → W.Served i leg n res → leg = .forward
  hit : ∀ (i : ℕ) (c : Client) j response leg n res, W.proxy.clients[i]? = some c →
    c.hit = some j →
    c.reply = some (.served response) → ¬W.Served i leg n res
  relayed : ∀ (i : ℕ) (c : Client) sent, W.proxy.clients[i]? = some c →
    c.reply = some (.relayed sent) →
    ∃ n res cut, W.Served i .forward n res ∧ sent = res.cutOff cut
  fetched : ∀ (i : ℕ) (c : Client) response, W.proxy.clients[i]? = some c → c.hit = none →
    c.reply = some (.served response) →
    ∃ n res, W.Served i .fetch n res ∧ (Reply.served response).Shows res

theorem World.Served.unique (h : W.Once) {i i' n : ℕ} {leg leg' : Leg} {res res' : Response}
    (hs : W.Served i leg n res) (hs' : W.Served i' leg' n res') : i' = i ∧ leg' = leg := by
  obtain ⟨conn, hconn, rfl, rfl, hn⟩ := hs
  obtain ⟨conn', hconn', rfl, rfl, hn'⟩ := hs'
  obtain ⟨k, hk⟩ := List.getElem?_of_mem hconn
  obtain ⟨k', hk'⟩ := List.getElem?_of_mem hconn'
  obtain rfl := h.number k k' conn conn' n res res' hk hk' hn hn'
  obtain rfl := Option.some.inj (hk.symm.trans hk')
  exact ⟨rfl, rfl⟩

theorem World.Served.once (h : W.Once) {i n n' : ℕ} {leg : Leg} {res res' : Response}
    (hs : W.Served i leg n res) (hs' : W.Served i leg n' res') : n = n' := by
  obtain ⟨conn, hconn, rfl, rfl, hn⟩ := hs
  obtain ⟨conn', hconn', hclient, hleg, hn'⟩ := hs'
  obtain ⟨k, hk⟩ := List.getElem?_of_mem hconn
  obtain ⟨k', hk'⟩ := List.getElem?_of_mem hconn'
  obtain rfl := h.leg k k' conn conn' hk hk' hclient.symm hleg.symm
  obtain rfl := Option.some.inj (hk.symm.trans hk')
  cases hn.symm.trans hn'
  rfl

theorem World.Served.hasSent (h : W.Once) {i n : ℕ} {leg : Leg} {res : Response} {c : Client}
    (hs : W.Served i leg n res) (hc : W.proxy.clients[i]? = some c) : c.HasSent leg := by
  obtain ⟨conn, hconn, rfl, rfl, -⟩ := hs
  exact h.sent conn hconn c hc

theorem Client.HasSent.fetch_ne {c : Client} (h : c.HasSent .fetch) : c.fetch ≠ none := by
  intro hnone
  rw [HasSent, hnone] at h
  exact h

/-- **Delivery.** In every run of the proxy and its origin, a request is served by the origin once
for its fetch at most and once for being forwarded, a request that is no `GET` once at most, exactly
once where the client has its response, and a request that a hit answers never. -/
theorem sent_once (hosts : List Bytes) (respond : Ω → Request → Ω × Response) (origin : Ω)
    (W : World Ω) (hW : (world (minioAdapters hosts) respond origin).Reachable W) :
    W.SentOnce := by
  have hok := World.ok_of_reachable hW
  have honce := World.once_of_reachable hW
  refine ⟨fun n ω req hlog => ?_, fun i leg n n' res res' hs hs' => hs.once honce hs',
    fun i c req leg n res hc hreq hmethod hs => ?_,
      fun i c j response leg n res hc hj hreply hs => ?_,
    fun i c sent hc hreply => hok.got i c .forward sent hc ?_,
      fun i c response hc hno hreply => ?_⟩
  · obtain ⟨conn, hconn, res, hres⟩ := honce.log n (List.getElem?_eq_some_iff.1 hlog).1
    obtain ⟨c, hc, hreq⟩ := hok.request conn hconn
    obtain ⟨ω', hlog', -⟩ := hok.served conn hconn n res hres
    obtain rfl : req = conn.request := congrArg Prod.snd (Option.some.inj (hlog.symm.trans hlog'))
    have hs : W.Served conn.client conn.leg n res := ⟨conn, hconn, rfl, rfl, hres⟩
    exact ⟨conn.client, conn.leg, c, res, hs, hc, hreq, fun _ _ _ hs' => hs.unique honce hs'⟩
  · cases leg with
    | forward => rfl
    | fetch =>
      have hfetches := fetches_of_reachable hok.proxy c (List.mem_of_getElem? hc)
      obtain ⟨⟨req', adapter, hreq', ha⟩, -⟩ :=
        hfetches.fetch (hs.hasSent honce hc).fetch_ne
      obtain rfl : req = req' := Option.some.inj (hreq.symm.trans hreq')
      exact absurd
        (method_of_shouldIntercept (Option.isSome_iff_exists.2 ⟨adapter, ha⟩)) hmethod
  · have hmem := List.mem_of_getElem? hc
    have hsent := hs.hasSent honce hc
    cases leg with
    | fetch =>
      have hnone := ((fetches_of_reachable hok.proxy c hmem).fetch hsent.fetch_ne).2
      cases hj.symm.trans hnone
    | forward =>
      have hdone : c.handler = .done := by
        refine (allServe_of_reachable hok.proxy c hmem).replied ?_
        rw [hreply]
        exact Option.some_ne_none _
      rw [Client.HasSent, hdone, hreply] at hsent
      exact hsent
  · unfold Client.got
    rw [hreply]
  · obtain ⟨_, req, _, -, hreq, -⟩ :=
      (allServe_of_reachable hok.proxy c (List.mem_of_getElem? hc)).reply response hreply
    rcases hok.served_from hc hreq hreply with
      ⟨n, ω, hserved, -, hshows⟩ | ⟨j, _, _, _, hj, -⟩
    · exact ⟨n, _, hserved, hshows⟩
    · cases hj.symm.trans hno

end World

/-- A miss, a write, and a hit after them: the origin has served two requests. -/
theorem sent_once_three :
    ∃ W, (world (minioAdapters lima) oneObject (some [1])).run
        (world (minioAdapters lima) oneObject (some [1])).init
        (missActs 0 0 ⟨0x0a000001, 9000⟩ getObject ++
          writeActs 1 1 ⟨0x0a000001, 9000⟩ (putObject [2]) ++
          (hitRun 2 ⟨0x0a000001, 9000⟩ getObject).map .proxy) = some W ∧
      W.log.length = 2 ∧ W.SentOnce :=
  ⟨_, rfl, rfl, sent_once lima oneObject (some [1]) _
    ⟨missActs 0 0 ⟨0x0a000001, 9000⟩ getObject ++ writeActs 1 1 ⟨0x0a000001, 9000⟩
      (putObject [2]) ++
      (hitRun 2 ⟨0x0a000001, 9000⟩ getObject).map .proxy, rfl⟩⟩

end Proxy

end AutomaticCache
