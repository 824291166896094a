import AutomaticCache.Lib.Run
import AutomaticCache.Proxy.Remote

/-!
# The caching proxy

`HttpCachingProxy` with a `BigcacheWrapper`, serving any number of connections at once. A client is
a connection with the goroutine that handles it (`handleHttpInternal` and what it calls) and, on a
miss, the goroutine of `retrieveObjectFromRemote`; the two meet on unbuffered channels, so that a
send and its receive are one step. A background `bw.put` is an entry of `puts` until it runs.

The steps of different clients interleave freely. What the network, the client and the origin do is
in the label of a step, and so is every loss of a cache entry.
-/

namespace AutomaticCache

namespace Proxy

/-! ## The cache -/

/-- A stored object; `filler` is a ghost, the client for which it was fetched. -/
structure Entry where
  data : Gob.Message
  filler : ℕ

abbrev Store := Finmap fun _ : Bytes => Entry

/-- The `bigcache.BigCache` of the wrapper, as the client `filler` uses it. -/
def bigcache (filler : ℕ) : Backend Store Gob.Message where
  set := fun s k v => .ok (s.insert k ⟨v, filler⟩)
  get := fun s k =>
    match s.lookup k with
    | none => .error BigcacheWrapper.errEntryNotFound
    | some entry => .ok entry.data

/-- Who fetched what a lookup finds. -/
def fillerOf (s : Store) (key : Bytes) : Option ℕ := (s.lookup key).map Entry.filler

/-! ## Goroutines -/

/-- Where the goroutine of `retrieveObjectFromRemote` stands. -/
inductive Fetch
  | dial
  | write
  | read
  /-- The head of the response is read. -/
  | body (res : Response)
  | sendErr (err : GoError)
  | sendNil (o : Object)
  | sendObj (o : Object)
  | ended

/-- Where the handler of a connection stands. -/
inductive Handler
  | readRequest
  /-- `Cache.Get`: the first lookup. -/
  | get
  /-- `initialize`: the second one, its double check. -/
  | doubleCheck
  | awaitErr
  | awaitObj
  /-- An object was found or fetched: next, `CreateLocalResponse`. -/
  | serve (o : Object)
  | send (response : Response)
  | dialForward
  | forward
  | done

/-- What the client is answered with. -/
inductive Reply
  /-- The bytes `HTTP/1.1 503 Service Unavailable`. -/
  | unavailable
  /-- The response made of an object. -/
  | served (response : Response)
  /-- The origin's response to the forwarded request. -/
  | relayed (res : Response)
  deriving DecidableEq

/-- A connection. `err` is the error that `Cache.Get` returned. The last three fields are ghosts:
the response that the fetch for this client has read, whose fetch the object comes from that it is
served from the cache, and what it was answered with. -/
structure Client where
  targetAddr : Addr
  request : Option Request
  handler : Handler
  fetch : Option Fetch
  err : Option GoError
  fetched : Option Response
  hit : Option ℕ
  reply : Option Reply

/-- A connection whose request is still to be read. -/
def Client.accepted (targetAddr : Addr) : Client :=
  ⟨targetAddr, none, .readRequest, none, none, none, none, none⟩

/-- The adapter at the index that `shouldIntercept` returns: the first that intercepts. -/
def shouldIntercept (adapters : List ObjectStorage) (req : Request) : Option ObjectStorage :=
  adapters.find? fun adapter => adapter.shouldIntercept req

/-- What a goroutine of a client does next, with what it meets. -/
inductive Event
  | readRequest (req : Except GoError Request)
  | get
  | doubleCheck
  | dial (err : Option GoError)
  | write (err : Option GoError)
  | read (res : Except GoError Response)
  | body
  /-- A value goes over `errChan`. -/
  | errChan
  /-- The object goes over `objChan`. -/
  | objChan
  | serve
  | send (err : Option GoError)
  | dialForward (err : Option GoError)
  | forward (res : Except GoError Response)

/-- What a step makes of its client, and what it does besides: start a `bw.put`, or panic. -/
structure Effect where
  client : Client
  put : Option Object
  panic : Option Panic

/-- A step with no effect but on its client. -/
def Client.only (c : Client) : Effect := ⟨c, none, none⟩

variable (adapters : List ObjectStorage)

/-- One step of a client's goroutines. -/
def Client.next (store : Store) (c : Client) : Event → Option Effect
  | .readRequest req =>
    match c.handler with
    | .readRequest =>
      match req with
      | .error _ => some { c with handler := .done }.only
      | .ok req =>
        match shouldIntercept adapters req with
        | some _ => some { c with request := some req, handler := .get }.only
        | none => some { c with request := some req, handler := .dialForward }.only
    | _ => none
  | .get =>
    match c.handler, c.request with
    | .get, some req => (shouldIntercept adapters req).map fun adapter =>
        match BigcacheWrapper.get (bigcache 0) store (adapter.extractObjectKey req) with
        | .ok o =>
          { c with handler := .serve o, hit := fillerOf store (adapter.extractObjectKey req) }.only
        | .error _ => { c with handler := .doubleCheck }.only
    | _, _ => none
  | .doubleCheck =>
    match c.handler, c.request with
    | .doubleCheck, some req => (shouldIntercept adapters req).map fun adapter =>
        match BigcacheWrapper.get (bigcache 0) store (adapter.extractObjectKey req) with
        | .ok o =>
          { c with handler := .serve o, hit := fillerOf store (adapter.extractObjectKey req) }.only
        | .error _ => { c with handler := .awaitErr, fetch := some .dial }.only
    | _, _ => none
  | .dial err =>
    match c.fetch with
    | some .dial =>
      match err with
      | some err => some { c with fetch := some (.sendErr (connectError err)) }.only
      | none => some { c with fetch := some .write }.only
    | _ => none
  | .write err =>
    match c.fetch with
    | some .write =>
      match err with
      | some err => some { c with fetch := some (.sendErr (sendRequestError err)) }.only
      | none => some { c with fetch := some .read }.only
    | _ => none
  | .read res =>
    match c.fetch with
    | some .read =>
      match res with
      | .error err => some { c with fetch := some (.sendErr (readResponseError err)) }.only
      | .ok res => some { c with fetch := some (.body res), fetched := some res }.only
    | _ => none
  | .body =>
    match c.fetch, c.request with
    | some (.body res), some req => (shouldIntercept adapters req).map fun adapter =>
        match receive (adapter.extractObjectKey req) res with
        | .error err => { c with fetch := some (.sendErr err) }.only
        | .ok o => { c with fetch := some (.sendNil o) }.only
    | _, _ => none
  | .errChan =>
    match c.handler, c.fetch with
    | .awaitErr, some (.sendErr err) =>
      some { c with
        handler := .dialForward, fetch := some .ended, err := some (retrieveError err) }.only
    | .awaitErr, some (.sendNil o) =>
      some { c with handler := .awaitObj, fetch := some (.sendObj o) }.only
    | _, _ => none
  | .objChan =>
    match c.handler, c.fetch with
    | .awaitObj, some (.sendObj o) =>
      some ⟨{ c with handler := .serve o, fetch := some .ended }, some o, none⟩
    | _, _ => none
  | .serve =>
    match c.handler, c.request with
    | .serve o, some req => (shouldIntercept adapters req).map fun adapter =>
        match adapter.createLocalResponse o with
        | .error panic => ⟨c, none, some panic⟩
        | .ok (.error _) => { c with handler := .dialForward, hit := none }.only
        | .ok (.ok response) => { c with handler := .send response }.only
    | _, _ => none
  | .send err =>
    match c.handler with
    | .send response =>
      match err with
      | some _ => some { c with handler := .dialForward, hit := none }.only
      | none => some { c with handler := .done, reply := some (.served response) }.only
    | _ => none
  | .dialForward err =>
    match c.handler with
    | .dialForward =>
      match err with
      | some _ => some { c with handler := .done, reply := some .unavailable }.only
      | none => some { c with handler := .forward }.only
    | _ => none
  | .forward res =>
    match c.handler with
    | .forward =>
      match res with
      | .error _ => some { c with handler := .done, reply := some .unavailable }.only
      | .ok res => some { c with handler := .done, reply := some (.relayed res) }.only
    | _ => none

/-! ## The system -/

/-- A `go bw.put(obj)` that has not run yet. -/
structure PendingPut where
  object : Object
  filler : ℕ

structure State where
  store : Store
  puts : List PendingPut
  clients : List Client
  panic : Option Panic

/-- A step and the choices of the environment in it. -/
inductive Act
  /-- A connection to `targetAddr` is accepted. -/
  | accept (targetAddr : Addr)
  | client (i : ℕ) (e : Event)
  /-- The `n`-th pending put runs. -/
  | put (n : ℕ)
  /-- It runs, and bigcache refuses the entry. -/
  | putFails (n : ℕ)
  /-- Bigcache drops an entry. -/
  | drop (key : Bytes)

/-- An empty cache and no connection. -/
def initial : State := ⟨∅, [], [], none⟩

/-- The state after a step of client `i`. -/
def State.after (s : State) (i : ℕ) (effect : Effect) : State where
  store := s.store
  puts := s.puts ++ (effect.put.map fun o => ⟨o, i⟩).toList
  clients := s.clients.set i effect.client
  panic := effect.panic

/-- A panic ends the process. -/
def step (s : State) (a : Act) : Option State :=
  if s.panic ≠ none then none
  else
    match a with
    | .accept targetAddr => some { s with clients := s.clients ++ [.accepted targetAddr] }
    | .client i e => s.clients[i]?.bind fun c => (c.next adapters s.store e).map (s.after i)
    | .put n => s.puts[n]?.bind fun p =>
        match BigcacheWrapper.put (bigcache p.filler) s.store p.object with
        | .ok store => some { s with store := store, puts := s.puts.eraseIdx n }
        | .error _ => none
    | .putFails n => s.puts[n]?.bind fun _ => some { s with puts := s.puts.eraseIdx n }
    | .drop key => some { s with store := s.store.erase key }

/-- The proxy with these adapters, as a labelled system. -/
def system : Runs.System State Act where
  init := initial
  step := step adapters

/-! ## What a step can do -/

variable {adapters}

/-- The object the cache has for the request, and who fetched it. -/
def Found (adapters : List ObjectStorage) (store : Store) (c : Client) (o : Object)
    (hit : Option ℕ) : Prop :=
  ∃ req adapter, c.request = some req ∧ shouldIntercept adapters req = some adapter ∧
    BigcacheWrapper.get (bigcache 0) store (adapter.extractObjectKey req) = .ok o ∧
    hit = fillerOf store (adapter.extractObjectKey req)

/-- The steps of a client's goroutines, with what each finds and leaves. -/
inductive Client.Step (adapters : List ObjectStorage) (store : Store) (c : Client) :
    Event → Effect → Prop
  | badRequest (err : GoError) (h : c.handler = .readRequest) :
    Step adapters store c (.readRequest (.error err)) { c with handler := .done }.only
  | intercepted (req : Request) (adapter : ObjectStorage) (h : c.handler = .readRequest)
    (ha : shouldIntercept adapters req = some adapter) :
    Step adapters store c (.readRequest (.ok req))
      { c with request := some req, handler := .get }.only
  | notIntercepted (req : Request) (h : c.handler = .readRequest)
    (ha : shouldIntercept adapters req = none) :
    Step adapters store c (.readRequest (.ok req))
      { c with request := some req, handler := .dialForward }.only
  | getHit (o : Object) (hit : Option ℕ) (h : c.handler = .get)
    (hf : Found adapters store c o hit) :
    Step adapters store c .get { c with handler := .serve o, hit := hit }.only
  | getMiss (h : c.handler = .get) :
    Step adapters store c .get { c with handler := .doubleCheck }.only
  | doubleCheckHit (o : Object) (hit : Option ℕ) (h : c.handler = .doubleCheck)
    (hf : Found adapters store c o hit) :
    Step adapters store c .doubleCheck { c with handler := .serve o, hit := hit }.only
  | doubleCheckMiss (h : c.handler = .doubleCheck) :
    Step adapters store c .doubleCheck
      { c with handler := .awaitErr, fetch := some .dial }.only
  | dialFails (err : GoError) (h : c.fetch = some .dial) :
    Step adapters store c (.dial (some err))
      { c with fetch := some (.sendErr (connectError err)) }.only
  | dial (h : c.fetch = some .dial) :
    Step adapters store c (.dial none) { c with fetch := some .write }.only
  | writeFails (err : GoError) (h : c.fetch = some .write) :
    Step adapters store c (.write (some err))
      { c with fetch := some (.sendErr (sendRequestError err)) }.only
  | write (h : c.fetch = some .write) :
    Step adapters store c (.write none) { c with fetch := some .read }.only
  | readFails (err : GoError) (h : c.fetch = some .read) :
    Step adapters store c (.read (.error err))
      { c with fetch := some (.sendErr (readResponseError err)) }.only
  | read (res : Response) (h : c.fetch = some .read) :
    Step adapters store c (.read (.ok res))
      { c with fetch := some (.body res), fetched := some res }.only
  | bodyFails (res : Response) (err : GoError) (h : c.fetch = some (.body res)) :
    Step adapters store c .body { c with fetch := some (.sendErr err) }.only
  | body (res : Response) (o : Object) (req : Request) (adapter : ObjectStorage)
    (h : c.fetch = some (.body res)) (hr : c.request = some req)
    (ha : shouldIntercept adapters req = some adapter)
    (ho : receive (adapter.extractObjectKey req) res = .ok o) :
    Step adapters store c .body { c with fetch := some (.sendNil o) }.only
  | errChanErr (err : GoError) (h : c.handler = .awaitErr) (hf : c.fetch = some (.sendErr err)) :
    Step adapters store c .errChan
      { c with handler := .dialForward, fetch := some .ended, err := some (retrieveError err) }.only
  | errChanNil (o : Object) (h : c.handler = .awaitErr) (hf : c.fetch = some (.sendNil o)) :
    Step adapters store c .errChan
      { c with handler := .awaitObj, fetch := some (.sendObj o) }.only
  | objChan (o : Object) (h : c.handler = .awaitObj) (hf : c.fetch = some (.sendObj o)) :
    Step adapters store c .objChan
      ⟨{ c with handler := .serve o, fetch := some .ended }, some o, none⟩
  | servePanics (o : Object) (p : Panic) (h : c.handler = .serve o) :
    Step adapters store c .serve ⟨c, none, some p⟩
  | serveFails (o : Object) (h : c.handler = .serve o) :
    Step adapters store c .serve { c with handler := .dialForward, hit := none }.only
  | serve (o : Object) (req : Request) (adapter : ObjectStorage) (response : Response)
    (h : c.handler = .serve o) (hr : c.request = some req)
    (ha : shouldIntercept adapters req = some adapter)
    (ho : adapter.createLocalResponse o = .ok (.ok response)) :
    Step adapters store c .serve { c with handler := .send response }.only
  | sendFails (response : Response) (err : GoError) (h : c.handler = .send response) :
    Step adapters store c (.send (some err)) { c with handler := .dialForward, hit := none }.only
  | send (response : Response) (h : c.handler = .send response) :
    Step adapters store c (.send none)
      { c with handler := .done, reply := some (.served response) }.only
  | dialForwardFails (err : GoError) (h : c.handler = .dialForward) :
    Step adapters store c (.dialForward (some err))
      { c with handler := .done, reply := some .unavailable }.only
  | dialForward (h : c.handler = .dialForward) :
    Step adapters store c (.dialForward none) { c with handler := .forward }.only
  | forwardFails (err : GoError) (h : c.handler = .forward) :
    Step adapters store c (.forward (.error err))
      { c with handler := .done, reply := some .unavailable }.only
  | forward (res : Response) (h : c.handler = .forward) :
    Step adapters store c (.forward (.ok res))
      { c with handler := .done, reply := some (.relayed res) }.only

theorem Client.step_of_next {store : Store} {c : Client} {e : Event} {effect : Effect}
    (h : c.next adapters store e = some effect) : c.Step adapters store e effect := by
  cases e with
  | readRequest req =>
    simp only [next] at h
    split at h
    · rename_i hh
      cases req with
      | error err => cases h; exact .badRequest err hh
      | ok req =>
        dsimp only at h
        cases ha : shouldIntercept adapters req with
        | none => rw [ha] at h; cases h; exact .notIntercepted req hh ha
        | some adapter => rw [ha] at h; cases h; exact .intercepted req adapter hh ha
    · cases h
  | get =>
    simp only [next] at h
    split at h
    · rename_i req hh hr
      obtain ⟨adapter, ha, h⟩ := Option.map_eq_some_iff.1 h
      cases hget : BigcacheWrapper.get (bigcache 0) store (adapter.extractObjectKey req) with
      | error err => rw [hget] at h; cases h; exact .getMiss hh
      | ok o => rw [hget] at h; cases h; exact .getHit o _ hh ⟨req, adapter, hr, ha, hget, rfl⟩
    · cases h
  | doubleCheck =>
    simp only [next] at h
    split at h
    · rename_i req hh hr
      obtain ⟨adapter, ha, h⟩ := Option.map_eq_some_iff.1 h
      cases hget : BigcacheWrapper.get (bigcache 0) store (adapter.extractObjectKey req) with
      | error err => rw [hget] at h; cases h; exact .doubleCheckMiss hh
      | ok o =>
        rw [hget] at h; cases h
        exact .doubleCheckHit o _ hh ⟨req, adapter, hr, ha, hget, rfl⟩
    · cases h
  | dial err =>
    simp only [next] at h
    split at h
    · rename_i hf
      cases err with
      | none => cases h; exact .dial hf
      | some err => cases h; exact .dialFails err hf
    · cases h
  | write err =>
    simp only [next] at h
    split at h
    · rename_i hf
      cases err with
      | none => cases h; exact .write hf
      | some err => cases h; exact .writeFails err hf
    · cases h
  | read res =>
    simp only [next] at h
    split at h
    · rename_i hf
      cases res with
      | error err => cases h; exact .readFails err hf
      | ok res => cases h; exact .read res hf
    · cases h
  | body =>
    simp only [next] at h
    split at h
    · rename_i res req hf hr
      obtain ⟨adapter, ha, h⟩ := Option.map_eq_some_iff.1 h
      cases ho : receive (adapter.extractObjectKey req) res with
      | error err => rw [ho] at h; cases h; exact .bodyFails res err hf
      | ok o => rw [ho] at h; cases h; exact .body res o req adapter hf hr ha ho
    · cases h
  | errChan =>
    simp only [next] at h
    split at h
    · rename_i err hh hf
      cases h; exact .errChanErr err hh hf
    · rename_i o hh hf
      cases h; exact .errChanNil o hh hf
    · cases h
  | objChan =>
    simp only [next] at h
    split at h
    · rename_i o hh hf
      cases h; exact .objChan o hh hf
    · cases h
  | serve =>
    simp only [next] at h
    split at h
    · rename_i o req hh hr
      obtain ⟨adapter, ha, h⟩ := Option.map_eq_some_iff.1 h
      cases ho : adapter.createLocalResponse o with
      | error p => rw [ho] at h; cases h; exact .servePanics o p hh
      | ok result =>
        cases result with
        | error err => rw [ho] at h; cases h; exact .serveFails o hh
        | ok response => rw [ho] at h; cases h; exact .serve o req adapter response hh hr ha ho
    · cases h
  | send err =>
    simp only [next] at h
    split at h
    · rename_i response hh
      cases err with
      | none => cases h; exact .send response hh
      | some err => cases h; exact .sendFails response err hh
    · cases h
  | dialForward err =>
    simp only [next] at h
    split at h
    · rename_i hh
      cases err with
      | none => cases h; exact .dialForward hh
      | some err => cases h; exact .dialForwardFails err hh
    · cases h
  | forward res =>
    simp only [next] at h
    split at h
    · rename_i hh
      cases res with
      | error err => cases h; exact .forwardFails err hh
      | ok res => cases h; exact .forward res hh
    · cases h

/-! ## The steps of the system -/

variable {s s' : State}

theorem step_accept {targetAddr : Addr} (h : step adapters s (.accept targetAddr) = some s') :
    s' = { s with clients := s.clients ++ [.accepted targetAddr] } := by
  unfold step at h
  split_ifs at h
  exact (Option.some.inj h).symm

theorem step_client {i : ℕ} {e : Event} (h : step adapters s (.client i e) = some s') :
    ∃ c effect, s.clients[i]? = some c ∧ c.Step adapters s.store e effect ∧
      s' = s.after i effect := by
  unfold step at h
  split_ifs at h
  obtain ⟨c, hc, h⟩ := Option.bind_eq_some_iff.1 h
  obtain ⟨effect, hnext, rfl⟩ := Option.map_eq_some_iff.1 h
  exact ⟨c, effect, hc, Client.step_of_next hnext, rfl⟩

theorem step_put {n : ℕ} (h : step adapters s (.put n) = some s') :
    ∃ p, s.puts[n]? = some p ∧
      s' = { s with
        store := s.store.insert p.object.key ⟨p.object.encode, p.filler⟩
        puts := s.puts.eraseIdx n } := by
  unfold step at h
  split_ifs at h
  obtain ⟨p, hp, h⟩ := Option.bind_eq_some_iff.1 h
  exact ⟨p, hp, (Option.some.inj h).symm⟩

theorem step_putFails {n : ℕ} (h : step adapters s (.putFails n) = some s') :
    s' = { s with puts := s.puts.eraseIdx n } := by
  unfold step at h
  split_ifs at h
  obtain ⟨p, -, h⟩ := Option.bind_eq_some_iff.1 h
  exact (Option.some.inj h).symm

theorem step_drop {key : Bytes} (h : step adapters s (.drop key) = some s') :
    s' = { s with store := s.store.erase key } := by
  unfold step at h
  split_ifs at h
  exact (Option.some.inj h).symm

/-- What becomes of a client in a step. -/
theorem step_clients {a : Act} (h : step adapters s a = some s') {i : ℕ} {c : Client}
    (hc : s.clients[i]? = some c) :
    (s'.clients[i]? = some c ∧ ∀ e, a ≠ .client i e) ∨
      ∃ e effect, a = .client i e ∧ c.Step adapters s.store e effect ∧
        s'.clients[i]? = some effect.client := by
  have hlt := (List.getElem?_eq_some_iff.1 hc).1
  cases a with
  | accept targetAddr =>
    obtain rfl := step_accept h
    exact Or.inl ⟨(List.getElem?_append_left hlt).trans hc, nofun⟩
  | client j e =>
    obtain ⟨d, effect, hd, hstep, rfl⟩ := step_client h
    by_cases hij : j = i
    · subst hij
      obtain rfl : c = d := Option.some.inj (hc.symm.trans hd)
      exact Or.inr ⟨e, effect, rfl, hstep, List.getElem?_set_self hlt⟩
    · refine Or.inl ⟨(List.getElem?_set_ne hij).trans hc, fun e' he => hij ?_⟩
      exact (Act.client.inj he).1
  | put n => obtain ⟨p, -, rfl⟩ := step_put h; exact Or.inl ⟨hc, nofun⟩
  | putFails n => obtain rfl := step_putFails h; exact Or.inl ⟨hc, nofun⟩
  | drop key => obtain rfl := step_drop h; exact Or.inl ⟨hc, nofun⟩

/-- A client that was not there is a new connection. -/
theorem step_new_client {a : Act} (h : step adapters s a = some s') {i : ℕ} {c' : Client}
    (hc' : s'.clients[i]? = some c') :
    (∃ c, s.clients[i]? = some c) ∨ ∃ targetAddr, a = .accept targetAddr ∧
    c' = .accepted targetAddr := by
  cases a with
  | accept targetAddr =>
    obtain rfl := step_accept h
    by_cases hi : i < s.clients.length
    · exact Or.inl ⟨_, List.getElem?_eq_getElem hi⟩
    · have hnew := (List.getElem?_append_right (Nat.not_lt.1 hi)).symm.trans hc'
      exact Or.inr ⟨targetAddr, rfl, List.mem_singleton.1 (List.mem_of_getElem? hnew)⟩
  | client j e =>
    obtain ⟨d, effect, hd, hstep, rfl⟩ := step_client h
    have hlt := (List.getElem?_eq_some_iff.1 hc').1
    rw [State.after, List.length_set] at hlt
    exact Or.inl ⟨_, List.getElem?_eq_getElem hlt⟩
  | put n => obtain ⟨p, -, rfl⟩ := step_put h; exact Or.inl ⟨c', hc'⟩
  | putFails n => obtain rfl := step_putFails h; exact Or.inl ⟨c', hc'⟩
  | drop key => obtain rfl := step_drop h; exact Or.inl ⟨c', hc'⟩

end Proxy

end AutomaticCache
