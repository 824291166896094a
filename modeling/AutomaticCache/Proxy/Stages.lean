import AutomaticCache.Proxy.Server
import AutomaticCache.Proxy.Delivery

/-!
# A client and what is left of its handler

Each stage of a client of `system` stands for what is left of the program `handleHttpInternal` there
(`Client.Stage`). Whatever the program asks for next, and however that is answered, the client goes
on as it does, with steps of its own (`Client.Stage.step`).
-/

namespace AutomaticCache

namespace Proxy

variable {adapters : List ObjectStorage} {store : Store}

/-! ## A client and what is left of its handler -/

/-- The stages of a client, each with what is left of the handler there. -/
inductive Client.Stage (adapters : List ObjectStorage) (c : Client)
    (p : ProxyM (Except Panic Unit)) :
    Prop
  | readRequest (h : c.handler = .readRequest) (hp : p = reads adapters c.targetAddr)
  | get (req : Request) (adapter : ObjectStorage) (h : c.handler = .get)
    (hreq : c.request = some req) (ha : shouldIntercept adapters req = some adapter)
    (hp : p = gets adapter c.targetAddr req)
  | doubleCheck (req : Request) (adapter : ObjectStorage) (h : c.handler = .doubleCheck)
    (hreq : c.request = some req) (ha : shouldIntercept adapters req = some adapter)
    (hp : p = doubleChecks adapter c.targetAddr req)
  | dial (req : Request) (adapter : ObjectStorage) (h : c.handler = .awaitErr)
    (hf : c.fetch = some .dial) (hreq : c.request = some req)
    (ha : shouldIntercept adapters req = some adapter)
    (hp : p = fetchDials adapter c.targetAddr req)
  | write (req : Request) (adapter : ObjectStorage) (targetConn : ℕ) (h : c.handler = .awaitErr)
    (hf : c.fetch = some .write) (hreq : c.request = some req)
    (ha : shouldIntercept adapters req = some adapter)
    (hp : p = fetchWrites adapter c.targetAddr req targetConn)
  | read (req : Request) (adapter : ObjectStorage) (targetConn : ℕ) (h : c.handler = .awaitErr)
    (hf : c.fetch = some .read) (hreq : c.request = some req)
    (ha : shouldIntercept adapters req = some adapter)
    (hp : p = fetchReads adapter c.targetAddr req targetConn)
  | put (req : Request) (adapter : ObjectStorage) (o : Object) (h : c.handler = .awaitObj)
    (hf : c.fetch = some (.sendObj o)) (hreq : c.request = some req)
    (ha : shouldIntercept adapters req = some adapter) (hp : p = puts adapter c.targetAddr req o)
  /-- `CreateLocalResponse` has panicked, which ends the process when the connection is closed. -/
  | panics (req : Request) (adapter : ObjectStorage) (o : Object) (panic : Panic)
    (h : c.handler = .serve o) (hreq : c.request = some req)
    (ha : shouldIntercept adapters req = some adapter)
    (hpanic : adapter.createLocalResponse o = .error panic)
    (hp : p = closes (.error panic) ∨ p = .ret (.error panic))
  | send (req : Request) (response : Response) (h : c.handler = .send response)
    (hreq : c.request = some req) (hp : p = sends c.targetAddr req response)
  | dialForward (req : Request) (h : c.handler = .dialForward) (hreq : c.request = some req)
    (hp : p = forwards c.targetAddr req)
  | writeForward (req : Request) (targetConn : ℕ) (h : c.handler = .dialForward)
    (hreq : c.request = some req) (hp : p = forwardWrites targetConn req)
  | forward (req : Request) (targetConn : ℕ) (h : c.handler = .forward)
    (hreq : c.request = some req) (hp : p = forwardReads targetConn req)
  | refuse (h : c.handler = .done) (hreply : c.reply = some .unavailable) (hp : p = refuses)
  | relay (res : Response) (h : c.handler = .done) (hreply : c.reply = some (.relayed res))
    (hp : p = relays res)
  | close (h : c.handler = .done) (hp : p = closes (.ok ()))
  | returned (h : c.handler = .done) (hp : p = .ret (.ok ()))

/-- The client takes the steps, none of which panics, and starts these puts. -/
inductive Client.Moves (adapters : List ObjectStorage) (store : Store) :
    Client → List Event → Client → List Object → Prop
  | nil (c : Client) : Moves adapters store c [] c []
  | cons {c c' c'' : Client} {e : Event} {es : List Event} {put : Option Object} {os : List Object}
    (h : c.next adapters store e = some ⟨c', put, none⟩)
    (hm : Moves adapters store c' es c'' os) :
    Moves adapters store c (e :: es) c'' (put.toList ++ os)

/-- What the cache answers is what the machine finds in it. -/
def AnsweredFrom (store : Store) : (i : ProxyOp) → i.Ans → Prop
  | .get key, r => r = BigcacheWrapper.get (bigcache 0) store key
  | _, _ => True

def ProxyOp.goPuts : ProxyOp → List Object
  | .goPut o => [o]
  | _ => []

/-- What no step but those that read or answer something changes. -/
structure Client.Same (c c' : Client) : Prop where
  targetAddr : c'.targetAddr = c.targetAddr
  request : c'.request = c.request
  fetched : c'.fetched = c.fetched
  reply : c'.reply = c.reply

/-- What an operation of the handler and its answer make of the client. -/
structure Client.After (c c' : Client) (e : Σ i : ProxyOp, i.Ans) : Prop where
  targetAddr : c'.targetAddr = c.targetAddr
  request : ∀ req, c'.request = some req ↔ c.request = some req ∨
    e = ⟨.readRequest, .ok req⟩
  fetched : ∀ res, c'.fetched = some res → c.fetched = some res ∨
    ∃ targetConn req, c.request = some req ∧ e = ⟨.readResponse targetConn req, .ok res⟩
  responds : ∀ response, e = ⟨.respond response, none⟩ →
    c'.reply = some (.served response) ∨ c'.reply = some (.relayed response)
  writes : ∀ b r, e = ⟨.write b, r⟩ → b = serviceUnavailable ∧
    c'.reply = some .unavailable
  relays : ∀ res, c'.reply = some (.relayed res) → c.reply = some (.relayed res) ∨
    ∃ targetConn req, c.request = some req ∧ e = ⟨.readResponse targetConn req, .ok res⟩
  reply : ∀ reply, c.reply = some reply → c'.reply = some reply

/-- Nothing is read with it, and the client is sent nothing. -/
def ProxyOp.Quiet : ProxyOp → Prop
  | .dial _ | .writeRequest _ _ | .get _ | .goPut _ | .close => True
  | _ => False

namespace Client

variable {c c' c'' : Client}

theorem Same.refl (c : Client) : c.Same c := ⟨rfl, rfl, rfl, rfl⟩

theorem Same.trans (h : c.Same c') (h' : c'.Same c'') : c.Same c'' :=
  ⟨h'.targetAddr.trans h.targetAddr, h'.request.trans h.request, h'.fetched.trans h.fetched,
    h'.reply.trans h.reply⟩

theorem Same.after_of {e : Σ i : ProxyOp, i.Ans} (h : c.Same c')
    (hread : ∀ req, e ≠ ⟨.readRequest, .ok req⟩)
    (hresponds : ∀ response, e = ⟨.respond response, none⟩ →
      c'.reply = some (.served response) ∨ c'.reply = some (.relayed response))
    (hwrites : ∀ b r, e = ⟨.write b, r⟩ → b = serviceUnavailable ∧
      c'.reply = some .unavailable) :
    c.After c' e where
  targetAddr := h.targetAddr
  request := fun req => by
    rw [h.request]
    exact ⟨Or.inl, fun hreq => hreq.resolve_right (hread req)⟩
  fetched := fun res hres => Or.inl (h.fetched ▸ hres)
  responds := hresponds
  writes := hwrites
  relays := fun res hres => Or.inl (h.reply ▸ hres)
  reply := fun reply hreply => h.reply.trans hreply

theorem Same.after {i : ProxyOp} {r : i.Ans} (hi : i.Quiet) (h : c.Same c') :
    c.After c' ⟨i, r⟩ := by
  refine h.after_of (fun req he => ?_) (fun response he => ?_) fun b r he => ?_
  all_goals
    cases he
    exact hi.elim

/-- A response was read, or could not be. -/
theorem After.of_read {targetConn : ℕ} {req : Request} {read : Except GoError Response}
    (htarget : c'.targetAddr = c.targetAddr) (hrequest : c'.request = c.request)
    (hfetched : ∀ res, c'.fetched = some res →
      c.fetched = some res ∨ c.request = some req ∧ read = .ok res)
    (hrelays : ∀ res, c'.reply = some (.relayed res) →
      c.reply = some (.relayed res) ∨ c.request = some req ∧ read = .ok res)
    (hreply : ∀ reply, c.reply = some reply → c'.reply = some reply) :
    c.After c' ⟨.readResponse targetConn req, read⟩ where
  targetAddr := htarget
  request := fun req' => by
    rw [hrequest]
    refine ⟨Or.inl, fun hreq => hreq.resolve_right fun he => ?_⟩
    cases he
  fetched := fun res hres => by
    rcases hfetched res hres with hold | ⟨hreq, rfl⟩
    · exact Or.inl hold
    · exact Or.inr ⟨targetConn, req, hreq, rfl⟩
  responds := fun response he => by cases he
  writes := fun b r he => by cases he
  relays := fun res hres => by
    rcases hrelays res hres with hold | ⟨hreq, rfl⟩
    · exact Or.inl hold
    · exact Or.inr ⟨targetConn, req, hreq, rfl⟩
  reply := hreply

theorem Moves.one {e : Event} {put : Option Object}
    (h : c.next adapters store e = some ⟨c', put, none⟩) :
    Moves adapters store c [e] c' put.toList := by
  have hm := Moves.cons h (.nil c')
  rwa [List.append_nil] at hm

/-- After a step that gives the handler an object, what it does up to its next operation. -/
theorem serve_moves {e : Event} {put : Option Object} {o : Object} {req : Request}
    {adapter : ObjectStorage} (hnext : c.next adapters store e = some ⟨c', put, none⟩)
    (hs : c.Same c') (h : c'.handler = .serve o) (hreq : c.request = some req)
    (ha : shouldIntercept adapters req = some adapter) :
    ∃ es c'', Moves adapters store c es c'' put.toList ∧ c.Same c'' ∧
      c''.Stage adapters (serves adapter c.targetAddr req o) := by
  have hreq' : c'.request = some req := hs.request.trans hreq
  unfold serves
  cases ho : adapter.createLocalResponse o with
  | error panic => exact ⟨_, c', .one hnext, hs,
      .panics req adapter o panic h hreq' ha ho (Or.inl rfl)⟩
  | ok result =>
    rw [← hs.targetAddr]
    cases result with
    | error err =>
      have hserve : c'.next adapters store .serve =
          some ⟨{ c' with handler := .dialForward, hit := none }, none, none⟩ := by
        simp only [next, h, hreq', ha, ho, Option.map_some, only]
      have hm := Moves.cons hnext (.one hserve)
      rw [Option.toList_none, List.append_nil] at hm
      exact ⟨_, _, hm, ⟨hs.targetAddr, hs.request, hs.fetched, hs.reply⟩,
        .dialForward req rfl hreq' rfl⟩
    | ok response =>
      have hserve : c'.next adapters store .serve =
          some ⟨{ c' with handler := .send response }, none, none⟩ := by
        simp only [next, h, hreq', ha, ho, Option.map_some, only]
      have hm := Moves.cons hnext (.one hserve)
      rw [Option.toList_none, List.append_nil] at hm
      exact ⟨_, _, hm, ⟨hs.targetAddr, hs.request, hs.fetched, hs.reply⟩,
        .send req response rfl hreq' rfl⟩

/-- After a step with which the fetch has failed, the handler forwards. -/
theorem failed_moves {e : Event} {err : GoError} {req : Request}
    (hnext : c.next adapters store e = some ⟨c', none, none⟩) (h : c'.handler = .awaitErr)
    (hf : c'.fetch = some (.sendErr err)) (hreq : c'.request = some req) :
    ∃ es, Moves adapters store c es { c' with
        handler := .dialForward
        fetch := some .ended
        err := some (retrieveError err) } [] ∧
      Stage adapters { c' with
        handler := .dialForward
        fetch := some .ended
        err := some (retrieveError err) } (forwards c'.targetAddr req) := by
  have herr : c'.next adapters store .errChan = some ⟨{ c' with
      handler := .dialForward
      fetch := some .ended
      err := some (retrieveError err) }, none, none⟩ := by
    simp only [next, h, hf, only]
  exact ⟨_, .cons hnext (.one herr), .dialForward req rfl hreq rfl⟩

/-- The client answers the operation with steps of its own, and what is left of the handler is
`p`. -/
def Follows (adapters : List ObjectStorage) (store : Store) (c : Client) (e : Σ i : ProxyOp, i.Ans)
    (p : ProxyM (Except Panic Unit)) : Prop :=
  ∃ es c', Moves adapters store c es c' e.1.goPuts ∧ c.After c' e ∧ c'.Stage adapters p

/-- What no step is needed for. -/
theorem Stage.follows_of_same {i : ProxyOp} {r : i.Ans} {p : ProxyM (Except Panic Unit)}
    (h : c.Stage adapters p) (hi : i.goPuts = []) (ha : c.After c ⟨i, r⟩) :
    c.Follows adapters store ⟨i, r⟩ p := by
  refine ⟨[], c, ?_, ha, h⟩
  dsimp only
  rw [hi]
  exact .nil c

section intercepted

variable {req : Request} {adapter : ObjectStorage}

theorem get_follows (h : c.handler = .get) (hreq : c.request = some req)
    (ha : shouldIntercept adapters req = some adapter) {found : Except GoError Object}
    (hfound : found = BigcacheWrapper.get (bigcache 0) store (adapter.extractObjectKey req)) :
    c.Follows adapters store ⟨.get (adapter.extractObjectKey req), found⟩
      (gotten adapter c.targetAddr req found) := by
  cases found with
  | error err =>
    have hnext : c.next adapters store .get =
        some ⟨{ c with handler := .doubleCheck }, none, none⟩ := by
      simp only [next, h, hreq, ha, ← hfound, Option.map_some, only]
    exact ⟨_, _, .one hnext, Same.after trivial ⟨rfl, rfl, rfl, rfl⟩,
      .doubleCheck req adapter rfl hreq ha rfl⟩
  | ok o =>
    have hnext : c.next adapters store .get = some ⟨{ c with
        handler := .serve o
        hit := fillerOf store (adapter.extractObjectKey req) }, none, none⟩ := by
      simp only [next, h, hreq, ha, ← hfound, Option.map_some, only]
    obtain ⟨es, c', hm, hsame, hstage⟩ := serve_moves hnext ⟨rfl, rfl, rfl, rfl⟩ rfl hreq ha
    exact ⟨es, c', hm, Same.after trivial hsame, hstage⟩

theorem doubleCheck_follows (h : c.handler = .doubleCheck) (hreq : c.request = some req)
    (ha : shouldIntercept adapters req = some adapter) {found : Except GoError Object}
    (hfound : found = BigcacheWrapper.get (bigcache 0) store (adapter.extractObjectKey req)) :
    c.Follows adapters store ⟨.get (adapter.extractObjectKey req), found⟩
      (doubleChecked adapter c.targetAddr req found) := by
  cases found with
  | error err =>
    have hnext : c.next adapters store .doubleCheck = some ⟨{ c with
        handler := .awaitErr, fetch := some .dial }, none, none⟩ := by
      simp only [next, h, hreq, ha, ← hfound, Option.map_some, only]
    exact ⟨_, _, .one hnext, Same.after trivial ⟨rfl, rfl, rfl, rfl⟩,
      .dial req adapter rfl rfl hreq ha rfl⟩
  | ok o =>
    have hnext : c.next adapters store .doubleCheck = some ⟨{ c with
        handler := .serve o
        hit := fillerOf store (adapter.extractObjectKey req) }, none, none⟩ := by
      simp only [next, h, hreq, ha, ← hfound, Option.map_some, only]
    obtain ⟨es, c', hm, hsame, hstage⟩ := serve_moves hnext ⟨rfl, rfl, rfl, rfl⟩ rfl hreq ha
    exact ⟨es, c', hm, Same.after trivial hsame, hstage⟩

theorem dial_follows (h : c.handler = .awaitErr) (hf : c.fetch = some .dial)
    (hreq : c.request = some req) (ha : shouldIntercept adapters req = some adapter)
    (dialed : Except GoError ℕ) :
    c.Follows adapters store ⟨.dial c.targetAddr, dialed⟩
      (fetchDialed adapter c.targetAddr req dialed) := by
  cases dialed with
  | error err =>
    have hnext : c.next adapters store (.dial (some err)) =
        some ⟨{ c with fetch := some (.sendErr (connectError err)) }, none, none⟩ := by
      simp only [next, hf, only]
    obtain ⟨es, hm, hstage⟩ := failed_moves hnext h rfl hreq
    exact ⟨es, _, hm, Same.after trivial ⟨rfl, rfl, rfl, rfl⟩, hstage⟩
  | ok targetConn =>
    have hnext : c.next adapters store (.dial none) =
        some ⟨{ c with fetch := some .write }, none, none⟩ := by
      simp only [next, hf, only]
    exact ⟨_, _, .one hnext, Same.after trivial ⟨rfl, rfl, rfl, rfl⟩,
      .write req adapter targetConn h rfl hreq ha rfl⟩

theorem write_follows (h : c.handler = .awaitErr) (hf : c.fetch = some .write)
    (hreq : c.request = some req) (ha : shouldIntercept adapters req = some adapter)
    (targetConn : ℕ) (written : Option GoError) :
    c.Follows adapters store ⟨.writeRequest targetConn req, written⟩
      (fetchWritten adapter c.targetAddr req targetConn written) := by
  cases written with
  | some err =>
    have hnext : c.next adapters store (.write (some err)) =
        some ⟨{ c with fetch := some (.sendErr (sendRequestError err)) }, none, none⟩ := by
      simp only [next, hf, only]
    obtain ⟨es, hm, hstage⟩ := failed_moves hnext h rfl hreq
    exact ⟨es, _, hm, Same.after trivial ⟨rfl, rfl, rfl, rfl⟩, hstage⟩
  | none =>
    have hnext : c.next adapters store (.write none) =
        some ⟨{ c with fetch := some .read }, none, none⟩ := by
      simp only [next, hf, only]
    exact ⟨_, _, .one hnext, Same.after trivial ⟨rfl, rfl, rfl, rfl⟩,
      .read req adapter targetConn h rfl hreq ha rfl⟩

theorem read_follows (h : c.handler = .awaitErr) (hf : c.fetch = some .read)
    (hreq : c.request = some req) (ha : shouldIntercept adapters req = some adapter)
    (targetConn : ℕ) (read : Except GoError Response) :
    c.Follows adapters store ⟨.readResponse targetConn req, read⟩
      (fetchRead adapter c.targetAddr req read) := by
  cases read with
  | error err =>
    have hnext : c.next adapters store (.read (.error err)) =
        some ⟨{ c with fetch := some (.sendErr (readResponseError err)) }, none, none⟩ := by
      simp only [next, hf, only]
    obtain ⟨es, hm, hstage⟩ := failed_moves hnext h rfl hreq
    exact ⟨es, _, hm, .of_read rfl rfl (fun res hres => Or.inl hres) (fun res hres => Or.inl hres)
      fun _ hreply => hreply, hstage⟩
  | ok res =>
    have hread : c.next adapters store (.read (.ok res)) =
        some ⟨{ c with fetch := some (.body res), fetched := some res }, none, none⟩ := by
      simp only [next, hf, only]
    have hfetched : ∀ res', some res = some res' → c.fetched = some res' ∨
        c.request = some req ∧ (.ok res : Except GoError Response) = .ok res' := by
      rintro res' ⟨⟩
      exact Or.inr ⟨hreq, rfl⟩
    dsimp only [fetchRead]
    cases ho : receive (adapter.extractObjectKey req) res with
    | error err =>
      have hnext : next adapters store
          { c with fetch := some (.body res), fetched := some res } .body =
          some ⟨{ c with fetch := some (.sendErr err), fetched := some res }, none, none⟩ := by
        simp only [next, hreq, ha, ho, Option.map_some, only]
      obtain ⟨es, hm, hstage⟩ := failed_moves hnext h rfl hreq
      exact ⟨_, _, .cons hread hm, .of_read rfl rfl hfetched (fun res hres => Or.inl hres)
        fun _ hreply => hreply, hstage⟩
    | ok o =>
      have hnext : next adapters store
          { c with fetch := some (.body res), fetched := some res } .body =
          some ⟨{ c with fetch := some (.sendNil o), fetched := some res }, none, none⟩ := by
        simp only [next, hreq, ha, ho, Option.map_some, only]
      have hnil : next adapters store
          { c with fetch := some (.sendNil o), fetched := some res } .errChan =
          some ⟨{ c with handler := .awaitObj, fetch := some (.sendObj o), fetched := some res },
            none, none⟩ := by
        simp only [next, h, only]
      exact ⟨_, _, .cons hread (.cons hnext (.one hnil)),
        .of_read rfl rfl hfetched (fun res hres => Or.inl hres) fun _ hreply => hreply,
        .put req adapter o rfl rfl hreq ha rfl⟩

theorem put_follows {o : Object} (h : c.handler = .awaitObj) (hf : c.fetch = some (.sendObj o))
    (hreq : c.request = some req) (ha : shouldIntercept adapters req = some adapter) :
    c.Follows adapters store ⟨.goPut o, ()⟩ (serves adapter c.targetAddr req o) := by
  have hnext : c.next adapters store .objChan =
      some ⟨{ c with handler := .serve o, fetch := some .ended }, some o, none⟩ := by
    simp only [next, h, hf]
  obtain ⟨es, c', hm, hsame, hstage⟩ := serve_moves hnext ⟨rfl, rfl, rfl, rfl⟩ rfl hreq ha
  exact ⟨es, c', hm, Same.after trivial hsame, hstage⟩

end intercepted

theorem send_follows {req : Request} {response : Response} (h : c.handler = .send response)
    (hreq : c.request = some req) (hreply : c.reply = none) (err : Option GoError) :
    c.Follows adapters store ⟨.respond response, err⟩ (sent c.targetAddr req err) := by
  cases err with
  | some err =>
    have hnext : c.next adapters store (.send (some err)) =
        some ⟨{ c with handler := .dialForward, hit := none }, none, none⟩ := by
      simp only [next, h, only]
    refine ⟨_, _, .one hnext, Same.after_of ⟨rfl, rfl, rfl, rfl⟩ (fun req he => ?_)
      (fun response he => ?_)
      fun b r he => ?_, .dialForward req rfl hreq rfl⟩
    all_goals cases he
  | none =>
    have hnext : c.next adapters store (.send none) =
        some ⟨{ c with handler := .done, reply := some (.served response) }, none, none⟩ := by
      simp only [next, h, only]
    refine ⟨_, _, .one hnext,
      ⟨rfl, fun req => ⟨Or.inl, fun hr => hr.resolve_right fun he => ?_⟩,
      fun res hres => Or.inl hres, fun response he => ?_, fun b r he => ?_, fun res hres => ?_,
      fun reply hr => ?_⟩, .close rfl rfl⟩
    · cases he
    · cases he
      exact Or.inl rfl
    · cases he
    · cases hres
    · cases hreply.symm.trans hr

/-! ## Forwarding -/

section forwarded

variable {req : Request}

theorem dialForward_follows (h : c.handler = .dialForward) (hreq : c.request = some req)
    (hreply : c.reply = none) (dialed : Except GoError ℕ) :
    c.Follows adapters store ⟨.dial c.targetAddr, dialed⟩ (forwardDialed req dialed) := by
  cases dialed with
  | error err =>
    have hnext : c.next adapters store (.dialForward (some err)) =
        some ⟨{ c with handler := .done, reply := some .unavailable }, none, none⟩ := by
      simp only [next, h, only]
    refine ⟨_, _, .one hnext,
      ⟨rfl, fun req => ⟨Or.inl, fun hr => hr.resolve_right fun he => ?_⟩,
      fun res hres => Or.inl hres, fun response he => ?_, fun b r he => ?_, fun res hres => ?_,
      fun reply hr => ?_⟩, .refuse rfl rfl rfl⟩
    · cases he
    · cases he
    · cases he
    · cases hres
    · cases hreply.symm.trans hr
  | ok targetConn =>
    exact Stage.follows_of_same (.writeForward req targetConn h hreq rfl) rfl
      (Same.after trivial (.refl c))

theorem writeForward_follows (h : c.handler = .dialForward) (hreq : c.request = some req)
    (targetConn : ℕ) (written : Option GoError) :
    c.Follows adapters store ⟨.writeRequest targetConn req, written⟩
      (forwardReads targetConn req) := by
  have hnext : c.next adapters store (.dialForward none) =
      some ⟨{ c with handler := .forward }, none, none⟩ := by
    simp only [next, h, only]
  exact ⟨_, _, .one hnext, Same.after trivial ⟨rfl, rfl, rfl, rfl⟩,
    .forward req targetConn rfl hreq rfl⟩

theorem forward_follows (h : c.handler = .forward) (hreq : c.request = some req)
    (hreply : c.reply = none) (targetConn : ℕ) (read : Except GoError Response) :
    c.Follows adapters store ⟨.readResponse targetConn req, read⟩ (forwardRead read) := by
  have hnone {reply : Reply} (r : Option Reply) (hr : c.reply = some reply) : r = some reply := by
    cases hreply.symm.trans hr
  cases read with
  | error err =>
    have hnext : c.next adapters store (.forward (.error err)) =
        some ⟨{ c with handler := .done, reply := some .unavailable }, none, none⟩ := by
      simp only [next, h, only]
    have hrelays : ∀ res, some Reply.unavailable = some (.relayed res) →
        c.reply = some (.relayed res) ∨
        c.request = some req ∧ (.error err : Except GoError Response) = .ok res := by
      rintro res ⟨⟩
    exact ⟨_, _, .one hnext, .of_read rfl rfl (fun res hres => Or.inl hres) hrelays
      fun _ hr => hnone _ hr, .refuse rfl rfl rfl⟩
  | ok res =>
    have hnext : c.next adapters store (.forward (.ok res)) =
        some ⟨{ c with handler := .done, reply := some (.relayed res) }, none, none⟩ := by
      simp only [next, h, only]
    have hrelays : ∀ res', some (Reply.relayed res) = some (.relayed res') →
        c.reply = some (.relayed res') ∨
          c.request = some req ∧ (.ok res : Except GoError Response) = .ok res' := by
      rintro res' ⟨⟩
      exact Or.inr ⟨hreq, rfl⟩
    exact ⟨_, _, .one hnext, .of_read rfl rfl (fun res hres => Or.inl hres) hrelays
      fun _ hr => hnone _ hr, .relay res rfl rfl rfl⟩

end forwarded

/-! ## Every stage -/

theorem readRequest_follows (h : c.handler = .readRequest) (hreq : c.request = none)
    (read : Except GoError Request) :
    c.Follows adapters store ⟨.readRequest, read⟩ (requested adapters c.targetAddr read) := by
  cases read with
  | error err =>
    have hnext : c.next adapters store (.readRequest (.error err)) =
        some ⟨{ c with handler := .done }, none, none⟩ := by
      simp only [next, h, only]
    refine ⟨_, _, .one hnext, Same.after_of ⟨rfl, rfl, rfl, rfl⟩ (fun req he => ?_)
      (fun response he => ?_)
      fun b r he => ?_, .close rfl rfl⟩
    all_goals cases he
  | ok req =>
    have hafter (handler : Handler) :
        c.After { c with request := some req, handler := handler } ⟨.readRequest, .ok req⟩ := by
      refine ⟨rfl, fun req' => ⟨fun hr => ?_, fun hr => ?_⟩, fun res hres => Or.inl hres,
        fun response he => ?_, fun b r he => ?_, fun res hres => Or.inl hres, fun reply hr => hr⟩
      · cases hr
        exact Or.inr rfl
      · rcases hr with hr | hr
        · cases hreq.symm.trans hr
        · cases hr
          rfl
      · cases he
      · cases he
    dsimp only [requested]
    cases ha : shouldIntercept adapters req with
    | none =>
      have hnext : c.next adapters store (.readRequest (.ok req)) =
          some ⟨{ c with request := some req, handler := .dialForward }, none, none⟩ := by
        simp only [next, h, ha, only]
      exact ⟨_, _, .one hnext, hafter _, .dialForward req rfl rfl rfl⟩
    | some adapter =>
      have hnext : c.next adapters store (.readRequest (.ok req)) =
          some ⟨{ c with request := some req, handler := .get }, none, none⟩ := by
        simp only [next, h, ha, only]
      exact ⟨_, _, .one hnext, hafter _, .get req adapter rfl rfl ha rfl⟩

/-- Whatever a handler asks for next, and however it is answered, its client goes on as it does. -/
theorem Stage.step (hok : c.Ok adapters) (hdone : c.reply ≠ none → c.handler = .done)
    {i : ProxyOp} {next : i.Ans → ProxyM (Except Panic Unit)}
    (h : c.Stage adapters (.op i next)) {r : i.Ans} (hr : AnsweredFrom store i r) :
    c.Follows adapters store ⟨i, r⟩ (next r) := by
  have hreply {stage : Handler} (hh : c.handler = stage) (hne : stage ≠ .done) :
      c.reply = none := by
    by_contra hc
    exact hne (hh.symm.trans (hdone hc))
  cases h with
  | readRequest hh hp =>
    cases hp
    exact readRequest_follows hh (hok.unread hh) r
  | get req adapter hh hreq ha hp =>
    cases hp
    exact get_follows hh hreq ha hr
  | doubleCheck req adapter hh hreq ha hp =>
    cases hp
    exact doubleCheck_follows hh hreq ha hr
  | dial req adapter hh hf hreq ha hp =>
    cases hp
    exact dial_follows hh hf hreq ha r
  | write req adapter targetConn hh hf hreq ha hp =>
    cases hp
    exact write_follows hh hf hreq ha targetConn r
  | read req adapter targetConn hh hf hreq ha hp =>
    cases hp
    exact read_follows hh hf hreq ha targetConn r
  | put req adapter o hh hf hreq ha hp =>
    cases hp
    exact put_follows hh hf hreq ha
  | panics req adapter o panic hh hreq ha hpanic hp =>
    rcases hp with hp | hp
    · cases hp
      exact Stage.follows_of_same (.panics req adapter o panic hh hreq ha hpanic (Or.inr rfl)) rfl
        (Same.after trivial (.refl c))
    · cases hp
  | send req response hh hreq hp =>
    cases hp
    exact send_follows hh hreq (hreply hh (by nofun)) r
  | dialForward req hh hreq hp =>
    cases hp
    exact dialForward_follows hh hreq (hreply hh (by nofun)) r
  | writeForward req targetConn hh hreq hp =>
    cases hp
    exact writeForward_follows hh hreq targetConn r
  | forward req targetConn hh hreq hp =>
    cases hp
    exact forward_follows hh hreq (hreply hh (by nofun)) targetConn r
  | refuse hh hc hp =>
    cases hp
    refine Stage.follows_of_same (.close hh rfl) rfl (Same.after_of (.refl c) (fun req he => ?_)
      (fun response he => ?_) fun b r he => ?_)
    · cases he
    · cases he
    · cases he
      exact ⟨rfl, hc⟩
  | relay res hh hc hp =>
    cases hp
    refine Stage.follows_of_same (.close hh rfl) rfl (Same.after_of (.refl c) (fun req he => ?_)
      (fun response he => ?_) fun b r he => ?_)
    · cases he
    · cases he
      exact Or.inr hc
    · cases he
  | close hh hp =>
    cases hp
    exact Stage.follows_of_same (.returned hh rfl) rfl (Same.after trivial (.refl c))
  | returned hh hp => cases hp

/-- The client of a handler that has panicked panics. -/
theorem Stage.panics_of_ret {panic : Panic} (h : c.Stage adapters (.ret (.error panic))) :
    c.next adapters store .serve = some ⟨c, none, some panic⟩ := by
  cases h with
  | panics req adapter o panic' hh hreq ha hpanic hp =>
    rcases hp with hp | hp
    · cases hp
    · cases hp
      simp only [next, hh, hreq, ha, hpanic, Option.map_some]
  | returned hh hp => cases hp
  | _ => rename_i hp; cases hp

end Client

end Proxy

end AutomaticCache
