import AutomaticCache.Proxy.Handlers

/-!
# The two proxies agree

Both handlers do what `inOne` does, which is `handleHttpInternal` with the goroutine of
`retrieveObjectFromRemote` in line: `HttpCachingProxy` in every schedule of the two goroutines, and
`HttpCachingTimedProxy` whatever the clock shows.
-/

namespace AutomaticCache

namespace Proxy

open Bytes Goroutines Clock

/-- What a handler does as one program. -/
abbrev ProxyM := Prog ProxyOp ProxyOp.Ans

def ask (i : ProxyOp) : ProxyM i.Ans := .op i .ret

/-- `retrieveObjectFromRemote` with its goroutine in line. -/
def retrieveInline (req : Request) (targetAddr : Addr) (objectKey : Bytes) :
    Initializer ProxyM := do
  match ← ask (.dial targetAddr) with
  | .error err => return .error (retrieveError (connectError err))
  | .ok targetConn =>
  match ← ask (.writeRequest targetConn req) with
  | some err => return .error (retrieveError (sendRequestError err))
  | none =>
  match ← ask (.readResponse targetConn req) with
  | .error err => return .error (retrieveError (readResponseError err))
  | .ok res =>
  match receive objectKey res with
  | .error err => return .error (retrieveError err)
  | .ok object => return .ok object

/-- The handler with its goroutine in line. -/
def handleInline (kind : CacheKind) (adapters : List ObjectStorage) (targetAddr : Addr) :
    ProxyM (Except Panic Unit) :=
  handleWith ask retrieveInline (kind.cache ask) adapters targetAddr

/-! ## Goroutines -/

section schedules

/-- `m` does what `p` does in every schedule. -/
abbrev InEverySchedule {α : Type} (m : HandlerM α) (p : ProxyM α) : Prop :=
  BehavesAs Retrieval.goroutine m p

theorem retrieveObjectFromRemote_behavesAs (req : Request) (targetAddr : Addr) (objectKey : Bytes) :
    InEverySchedule (retrieveObjectFromRemote req targetAddr objectKey)
      (retrieveInline req targetAddr objectKey) := by
  constructor
  intro β f q h gs hgs
  refine .go _ hgs ?_
  refine Behaves.wait Chan.errChan (.dial targetAddr) hgs fun dialed => ?_
  cases dialed with
  | error err => exact .recv _ _ hgs (h _ _ hgs.concat)
  | ok targetConn =>
    refine .wait _ _ hgs fun written => ?_
    cases written with
    | some err => exact .recv _ _ hgs (h _ _ hgs.concat)
    | none =>
      refine .wait _ _ hgs fun read => ?_
      cases read with
      | error err => exact .recv _ _ hgs (h _ _ hgs.concat)
      | ok res =>
        simp only [Prog.bind]
        cases receive objectKey res with
        | error err => exact .recv _ _ hgs (h _ _ hgs.concat)
        | ok object => exact .recv _ _ hgs (.recv _ _ hgs (h _ _ hgs.concat))

theorem perform_behavesAs (i : ProxyOp) : InEverySchedule (perform i) (ask i) := .operation i

/-- `cache` does in every schedule what `inline` does, where its initializer does. -/
def Cache.BehavesAs (cache : Cache HandlerM) (inline : Cache ProxyM) : Prop :=
  ∀ (key : Bytes) (init : Initializer HandlerM) (init' : Initializer ProxyM),
    InEverySchedule init init' →
    InEverySchedule (cache.Get key (some init)) (inline.Get key (some init'))

theorem fill_behavesAs (kind : CacheKind) (obj : Object) :
    InEverySchedule (kind.fill perform obj) (kind.fill ask obj) := by
  cases kind with
  | bigcache => exact .bind (perform_behavesAs (.goPut obj)) fun _ => .ret _
  | memcached =>
    refine .bind (perform_behavesAs (.put obj)) fun stored => ?_
    cases stored <;> exact .ret _

theorem get_behavesAs (kind : CacheKind) : (kind.cache perform).BehavesAs (kind.cache ask) := by
  intro key init init' hinit
  simp only [CacheKind.get_eq, CacheKind.initializeKey_eq]
  refine .bind (perform_behavesAs (.get key)) fun found => ?_
  cases found with
  | ok o => exact .ret _
  | error _ =>
    refine .bind (perform_behavesAs (.get key)) fun found => ?_
    cases found with
    | ok o => exact .ret _
    | error _ =>
      refine .bind hinit fun fetched => ?_
      cases fetched with
      | error err => exact .ret _
      | ok obj => exact fill_behavesAs kind obj

theorem forward_behavesAs (targetAddr : Addr) (req : Request) :
    InEverySchedule (forward perform targetAddr req) (forward ask targetAddr req) := by
  refine .bind (perform_behavesAs (.dial targetAddr)) fun dialed => ?_
  cases dialed with
  | error _ => exact .bind (perform_behavesAs (.write serviceUnavailable)) fun _ => .ret _
  | ok targetConn =>
    refine .bind (perform_behavesAs (.writeRequest targetConn req)) fun _ => ?_
    refine .bind (perform_behavesAs (.readResponse targetConn req)) fun read => ?_
    cases read with
    | error _ => exact .bind (perform_behavesAs (.write serviceUnavailable)) fun _ => .ret _
    | ok res => exact .bind (perform_behavesAs (.respond res)) fun _ => .ret _

variable {cache : Cache HandlerM} {inline : Cache ProxyM} (hcache : cache.BehavesAs inline)

include hcache in
theorem handleRequest_behavesAs (adapters : List ObjectStorage) (targetAddr : Addr)
    (request : Request) :
    InEverySchedule (handleRequest perform retrieveObjectFromRemote cache adapters
      targetAddr request)
      (handleRequest ask retrieveInline inline adapters targetAddr request) := by
  unfold handleRequest
  cases shouldIntercept adapters request with
  | none => exact .bind (forward_behavesAs targetAddr request) fun _ => .ret _
  | some adapter =>
    refine .bind (hcache _ _ _ (retrieveObjectFromRemote_behavesAs ..)) fun got => ?_
    cases got with
    | error _ => exact .bind (forward_behavesAs targetAddr request) fun _ => .ret _
    | ok cachedObj =>
      dsimp only
      cases adapter.createLocalResponse cachedObj with
      | error panic => exact .ret _
      | ok result =>
        cases result with
        | error _ => exact .bind (forward_behavesAs targetAddr request) fun _ => .ret _
        | ok response =>
          refine .bind (perform_behavesAs (.respond response)) fun sent => ?_
          cases sent with
          | some _ => exact .bind (forward_behavesAs targetAddr request) fun _ => .ret _
          | none => exact .ret _

include hcache in
/-- The handler and its goroutine do in every schedule what the handler does with the goroutine in
line. -/
theorem handleWith_behavesAs (adapters : List ObjectStorage) (targetAddr : Addr) :
    InEverySchedule (handleWith perform retrieveObjectFromRemote cache adapters targetAddr)
      (handleWith ask retrieveInline inline adapters targetAddr) := by
  refine .bind (.bind (perform_behavesAs .readRequest) fun read => ?_) fun outcome =>
    .bind (perform_behavesAs .close) fun _ => .ret _
  cases read with
  | error _ => exact .ret _
  | ok request => exact handleRequest_behavesAs hcache adapters targetAddr request

end schedules

/-! ## The clock -/

section clock

abbrev TimedProxyM := TimedM ProxyOp ProxyOp.Ans

def askTimed (i : ProxyOp) : TimedProxyM i.Ans := Clock.operation i

/-- The same object or an error both. -/
def SameObject (r r' : Except GoError Object) : Prop := r.toOption = r'.toOption

theorem SameObject.error (err err' : GoError) : SameObject (.error err) (.error err') := rfl

theorem retrieveObjectFromRemoteTimed_erases (req : Request) (targetAddr : Addr)
    (objectKey : Bytes) :
    ErasesState SameObject (retrieveObjectFromRemoteTimed askTimed now req targetAddr objectKey)
      (retrieveInline req targetAddr objectKey) := by
  unfold retrieveObjectFromRemoteTimed retrieveInline
  refine .now fun start => ?_
  refine .op fun dialed => ?_
  refine .now fun t => ?_
  cases dialed with
  | error err => dsimp only; exact .ret (.error _ _)
  | ok targetConn =>
    dsimp only
    refine .now fun start => ?_
    refine .op fun written => ?_
    refine .now fun t => ?_
    cases written with
    | some err => dsimp only; exact .ret (.error _ _)
    | none =>
      dsimp only
      refine .now fun start => ?_
      refine .op fun read => ?_
      cases read with
      | error err => dsimp only; exact .ret (.error _ _)
      | ok res =>
        dsimp only
        split_ifs with hok
        · cases receive objectKey res with
          | error err => dsimp only; exact .ret (.error _ _)
          | ok object => dsimp only; exact .ret rfl
        · refine .now fun t => ?_
          cases receive objectKey res with
          | error err => dsimp only; exact .ret (.error _ _)
          | ok object => dsimp only; exact .update (.ret rfl)

theorem SameObject.or {r r' : Except GoError Object} (h : SameObject r r') :
    (∃ err err', r = .error err ∧ r' = .error err') ∨ ∃ o, r = .ok o ∧ r' = .ok o := by
  unfold SameObject at h
  cases r with
  | error err =>
    cases r' with
    | error err' => exact Or.inl ⟨err, err', rfl, rfl⟩
    | ok o => cases h
  | ok o =>
    cases r' with
    | error err' => cases h
    | ok o' => exact Or.inr ⟨o, rfl, congrArg _ (Option.some.inj h).symm⟩

section get

variable (key : Bytes) {init : Initializer (StatsT TimedProxyM)} {init' : Initializer ProxyM}

theorem fill_erases (kind : CacheKind) (obj : Object) :
    ErasesState SameObject (σ := ProxyStatsEntry) (kind.fill (fun i => liftM (askTimed i)) obj)
      (kind.fill ask obj) := by
  cases kind with
  | bigcache => exact .op fun _ => .ret rfl
  | memcached =>
    refine .op fun stored => ?_
    cases stored <;> exact .ret rfl

theorem initializeKey_erases (kind : CacheKind) (hinit : ErasesState SameObject init init') :
    ErasesState SameObject (kind.initializeKey (fun i => liftM (askTimed i)) key (some init))
      (kind.initializeKey ask key (some init')) := by
  rw [kind.initializeKey_eq, kind.initializeKey_eq]
  refine .op fun found => ?_
  cases found with
  | ok o => exact .ret rfl
  | error _ =>
    refine .bind hinit fun fetched fetched' hsame => ?_
    obtain ⟨err, err', rfl, rfl⟩ | ⟨obj, rfl, rfl⟩ := hsame.or
    · exact .ret (.error _ _)
    · exact fill_erases kind obj

theorem getTimed_erases (kind : CacheKind) (hinit : ErasesState SameObject init init') :
    ErasesState (fun r r' => SameObject r.1 r')
      ((kind.cache fun i => liftM (askTimed i)).GetTimed (liftM (now : TimedProxyM ℤ))
        key (some init))
      ((kind.cache ask).Get key (some init')) := by
  rw [kind.getTimed_eq, kind.get_eq]
  refine .now fun start => .op fun found => .now fun t => ?_
  cases found with
  | ok o => exact .ret rfl
  | error _ =>
    refine .now fun start => ?_
    rw [← Prog.bind_ret (kind.initializeKey ask key _)]
    exact .bind (initializeKey_erases key kind hinit) fun _ _ hsame => .now fun t => .ret hsame

end get

theorem forwardTimed_erases (targetAddr : Addr) (req : Request) :
    ErasesState (fun _ _ => True) (forwardTimed askTimed now targetAddr req)
      (forward ask targetAddr req) := by
  unfold forwardTimed forward
  refine .now fun start => ?_
  refine .op fun dialed => ?_
  refine .now fun t => ?_
  refine .update ?_
  cases dialed with
  | error _ =>
    dsimp only
    refine .now fun start => ?_
    refine .op fun _ => ?_
    exact .now fun t => .update (.ret trivial)
  | ok targetConn =>
    dsimp only
    refine .now fun start => ?_
    refine .op fun _ => ?_
    refine .now fun t => ?_
    refine .update ?_
    refine .now fun start => ?_
    refine .op fun read => ?_
    refine .now fun t => ?_
    refine .update ?_
    cases read with
    | error _ =>
      dsimp only
      refine .now fun start => ?_
      refine .op fun _ => ?_
      exact .now fun t => .update (.ret trivial)
    | ok res =>
      dsimp only
      refine .now fun start => ?_
      refine .op fun _ => ?_
      exact .now fun t => .update (.ret trivial)

theorem handleRequestTimed_erases (kind : CacheKind) (adapters : List ObjectStorage)
    (targetAddr : Addr) (request : Request) :
    ErasesState Eq
      (handleRequestTimed askTimed now (kind.cache fun i => liftM (askTimed i)) adapters
        targetAddr request)
      (handleRequest ask retrieveInline (kind.cache ask) adapters targetAddr request) := by
  unfold handleRequestTimed handleRequest
  cases shouldIntercept adapters request with
  | none => exact .bind (forwardTimed_erases targetAddr request) fun _ _ _ => .ret rfl
  | some adapter =>
    refine .update ?_
    refine .bind (getTimed_erases _ kind (retrieveObjectFromRemoteTimed_erases ..))
      fun got got' hsame => ?_
    obtain ⟨got, cacheRetrieveT, initT⟩ := got
    refine .update ?_
    obtain ⟨err, err', rfl, rfl⟩ | ⟨cachedObj, rfl, rfl⟩ := hsame.or
    · exact .update (.bind (forwardTimed_erases targetAddr request) fun _ _ _ => .ret rfl)
    · dsimp only
      cases adapter.createLocalResponse cachedObj with
      | error panic => exact .ret rfl
      | ok result =>
        cases result with
        | error _ => exact .update (.bind (forwardTimed_erases targetAddr request)
            fun _ _ _ => .ret rfl)
        | ok response =>
          dsimp only
          refine .now fun t => ?_
          refine .op fun sent => ?_
          refine .now fun t' => ?_
          refine .update ?_
          cases sent with
          | some _ => exact .update (.bind (forwardTimed_erases targetAddr request)
              fun _ _ _ => .ret rfl)
          | none => exact .ret rfl

end clock

/-! ## Worlds -/

section worlds

variable {ω χ : Type} (h : (i : ProxyOp) → ω → i.Ans × ω) (tick : χ → ℤ × χ)
    {w : ω} {clock : χ}
  (kind : CacheKind) (adapters : List ObjectStorage) (targetAddr : Addr) {request : Request}

theorem exec_deferClose {α : Type} (body : ProxyM α) :
    (deferClose ask body).exec h w = ((body.exec h w).1, (h .close (body.exec h w).2).2) := by
  unfold deferClose
  rw [Prog.exec_bind]
  rfl

theorem exec_deferClose_timed {α : Type} (body : TimedProxyM α) (wc : ω × χ) :
    (deferClose askTimed body).exec (clocked h tick) wc =
      ((body.exec (clocked h tick) wc).1, (h .close (body.exec (clocked h tick) wc).2.1).2,
        (body.exec (clocked h tick) wc).2.2) := by
  unfold deferClose
  rw [Prog.exec_bind]
  rfl

/-- From the request on. -/
theorem handleWith_exec (cache : Cache ProxyM) (hread : (h .readRequest w).1 = .ok request) :
    (handleWith ask retrieveInline cache adapters targetAddr).exec h w =
      (deferClose ask (handleRequest ask retrieveInline cache adapters targetAddr request)).exec h
        (h .readRequest w).2 := by
  unfold handleWith
  rw [exec_deferClose, exec_deferClose, Prog.exec_bind]
  dsimp only [ask, Prog.exec]
  rw [hread]

theorem map_map_unit {α : Type} (outcome : Except Panic Unit) (a : α) :
    (outcome.map fun _ => a).map (fun _ => ()) = outcome := by
  cases outcome <;> rfl

variable (clock) in
/-- A handler with a clock does what the handler without one does. -/
theorem handleHttpTimed_exec (hread : (h .readRequest w).1 = .ok request) :
    ((handleHttpTimed askTimed now kind adapters targetAddr).exec (clocked h tick) (w, clock)).1.map
        (fun _ => ()) = ((handleInline kind adapters targetAddr).exec h w).1 ∧
      ((handleHttpTimed askTimed now kind adapters targetAddr).exec (clocked h tick)
        (w, clock)).2.1 =
        ((handleInline kind adapters targetAddr).exec h w).2 := by
  unfold handleInline handleHttpTimed
  rw [handleWith_exec h adapters targetAddr _ hread, exec_deferClose]
  rw [exec_deferClose_timed]
  -- the request is read between two looks at the clock
  simp only [Prog.exec_bind, askTimed, now, Clock.operation, Prog.exec, clocked]
  rw [hread]
  have herases := ((handleRequestTimed_erases kind adapters targetAddr request).run
    { ProxyStatsEntry.zero with readRequest := (tick (tick clock).2).1 - (tick clock).1 }).exec h
      tick
    (h .readRequest w).2 (tick (tick clock).2).2
  obtain ⟨houtcome, hworld⟩ := herases
  rw [← houtcome, ← hworld]
  exact ⟨map_map_unit _ _, rfl⟩

end worlds

/-! ## Agreement -/

section agreement

variable {ω χ : Type} (h : (i : ProxyOp) → ω → i.Ans × ω) (tick : χ → ℤ × χ)

/-- In every schedule of `handleHttpInternal` and its goroutine both return. They have then asked
for the same operations as `handleHttpTimed` and got the same answers, panicked if it did, and
closed the client's connection at last. -/
def HandlersAgree (w : ω) (clock : χ) (kind : CacheKind) (adapters : List ObjectStorage)
    (targetAddr : Addr) : Prop :=
  let timed := (handleHttpTimed askTimed now kind adapters targetAddr).exec
    (clocked (Prog.recording h) tick) ((w, []), clock)
  let internal := Goroutines.system (Prog.recording h) Retrieval.goroutine
    (handleHttpInternal kind adapters targetAddr) (w, [])
  internal.Completes internal.init (fun t =>
    t.main = .ret (timed.1.map fun _ => ()) ∧ Ended t.goroutines ∧ t.world = timed.2.1) ∧
  ∃ before, timed.2.1.2 = before ++ [⟨.close, ()⟩]

/-- In every schedule of `retrieveObjectFromRemote` and its goroutine both return. They have then
asked for the same operations as `retrieveObjectFromRemoteTimed` and got the same answers, and give
an object exactly if it does, and the same one. -/
def RetrievalsAgree (w : ω) (clock : χ) (req : Request) (targetAddr : Addr) (objectKey : Bytes)
    (stats : ProxyStatsEntry) : Prop :=
  let timed :=
    ((retrieveObjectFromRemoteTimed askTimed now req targetAddr objectKey).run stats).exec
    (clocked (Prog.recording h) tick) ((w, []), clock)
  let internal := Goroutines.system (Prog.recording h) Retrieval.goroutine
    (retrieveObjectFromRemote req targetAddr objectKey) (w, [])
  internal.Completes internal.init fun t =>
    (∃ r, t.main = .ret r ∧ SameObject timed.1.1 r) ∧ Ended t.goroutines ∧
      t.world = timed.2.1

/-- **Agreement.** With either cache, any adapters, and whatever the origin, the client's
connection, the store and the clock do: on a request that is read the two handlers do the same, and
so do their fetches. -/
theorem proxies_agree (w : ω) (clock : χ) (kind : CacheKind) (adapters : List ObjectStorage)
    (targetAddr : Addr) (request : Request) (hread : (h .readRequest w).1 = .ok request) :
    HandlersAgree h tick w clock kind adapters targetAddr ∧
    ∀ w' clock' req objectKey stats, RetrievalsAgree h tick w' clock' req targetAddr
      objectKey stats := by
  refine ⟨⟨?_, ?_⟩, fun w' clock' req objectKey stats => ?_⟩
  · obtain ⟨houtcome, hworld⟩ := handleHttpTimed_exec (Prog.recording h) tick (w := (w, []))
      clock kind adapters targetAddr hread
    rw [houtcome, hworld]
    exact (handleWith_behavesAs (get_behavesAs kind) adapters targetAddr).completes (w, [])
  · unfold handleHttpTimed
    rw [exec_deferClose_timed]
    exact ⟨_, rfl⟩
  · obtain ⟨hsame, hworld⟩ :=
      ((retrieveObjectFromRemoteTimed_erases req targetAddr objectKey).run stats).exec
        (Prog.recording h) tick (w', []) clock'
    refine ((retrieveObjectFromRemote_behavesAs req targetAddr objectKey).completes (w', [])).mono
      fun t ht => ?_
    exact ⟨⟨_, ht.1, hsame⟩, ht.2.1, ht.2.2.trans hworld.symm⟩

end agreement

/-- A miss: the store is empty, and nothing fails. -/
def missWorld : (i : ProxyOp) → Unit → i.Ans × Unit
  | .readRequest, w => (.ok getObject, w)
  | .write _, w | .respond _, w | .writeRequest _ _, w => (none, w)
  | .close, w | .goPut _, w => ((), w)
  | .dial _, w => (.ok 3, w)
  | .readResponse _ _, w => (.ok (okResponse [1]), w)
  | .get _, w => (.error BigcacheWrapper.errEntryNotFound, w)
  | .put _, w => (.ok (), w)

/-- A clock that goes on by one at every look. -/
def ticking (t : ℤ) : ℤ × ℤ := (t, t + 1)

theorem proxies_agree_miss :
    HandlersAgree missWorld ticking () 0 .bigcache
      [MinioObjectStorageAdapter.toObjectStorage ⟨ascii "host.lima.internal:9000"⟩]
      ⟨0x0a000001, 9000⟩ :=
  (proxies_agree missWorld ticking () 0 .bigcache _ _ getObject rfl).1

end Proxy

end AutomaticCache
