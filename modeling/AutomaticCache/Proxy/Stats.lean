import AutomaticCache.Lib.Marks
import AutomaticCache.Proxy.Agreement

/-!
# What the statistics tell

An entry says whether its request was forwarded, whether the initializer was invoked and how long
reading the request took. Here `handleHttpTimed` is run with marks for the first two. Its entry is
right under three conditions (`entry_tells_iff`): it does not say that a request that is not
intercepted was forwarded, it infers the call of the initializer from the clock, and a fetch that
succeeds puts zero for the time of the reading.
-/

namespace AutomaticCache

namespace Proxy

open Bytes Clock
open Marks (mark unmarked Unmarks)

/-! ## Calls -/

section calls

variable {m : Type → Type} [Monad m] (perform : (i : ProxyOp) → m i.Ans) (now : m ℤ)

/-- `handleRequestTimed`, with what it calls in the place of `retrieveObjectFromRemoteTimed` and
`forwardTimed`. -/
def handleRequestTimedWith (retrieve : Request → Addr → Bytes → Initializer (StatsT m))
    (forward : Addr → Request → StatsT m Unit) (cache : Cache (StatsT m))
    (adapters : List ObjectStorage) (targetAddr : Addr) (request : Request) :
    StatsT m (Except Panic Unit) :=
  match shouldIntercept adapters request with
  | some adapter => do
    let objKey := adapter.extractObjectKey request
    modify fun stats => { stats with objectKey := objKey }
    let initializer := retrieve request targetAddr objKey
    let (cachedObj, cacheRetrieveT, initT) ← cache.GetTimed now objKey (some initializer)
    modify fun stats => { stats with
      cacheRetrieve := cacheRetrieveT
      initializeTime := initT
      cacheMiss := 0 < initT }
    match cachedObj with
    | .ok cachedObj =>
      match adapter.createLocalResponse cachedObj with
      | .error panic => return .error panic
      | .ok (.error _) =>
        modify fun stats => { stats with forwarded := true, failed := true }
        forward targetAddr request
        return .ok ()
      | .ok (.ok response) =>
        let t ← now
        let sent ← perform (.respond response)
        let writeResponse := (← now) - t
        modify fun stats => { stats with writeResponse := writeResponse }
        match sent with
        | some _ =>
          modify fun stats => { stats with forwarded := true, failed := true }
          forward targetAddr request
          return .ok ()
        | none => return .ok ()
    | .error _ =>
      modify fun stats => { stats with forwarded := true }
      forward targetAddr request
      return .ok ()
  | none => do
    forward targetAddr request
    return .ok ()

theorem handleRequestTimed_eq : handleRequestTimed perform now = handleRequestTimedWith perform now
    (retrieveObjectFromRemoteTimed perform now) (forwardTimed perform now) := rfl

end calls

/-- What was called. -/
structure Calls where
  forwardTimed : Bool
  initializer : Bool
  deriving DecidableEq

/-- What the handler runs, with marks for what it calls. -/
abbrev MarkedM := StateT Calls TimedProxyM

def askMarked (i : ProxyOp) : MarkedM i.Ans := liftM (askTimed i)

def nowMarked : MarkedM ℤ := liftM (now : TimedProxyM ℤ)

def retrieveMarked (req : Request) (targetAddr : Addr) (objectKey : Bytes) :
    Initializer (StatsT MarkedM) := do
  mark fun calls => { calls with initializer := true }
  unmarked (retrieveObjectFromRemoteTimed askTimed now req targetAddr objectKey)

def forwardMarked (targetAddr : Addr) (req : Request) : StatsT MarkedM Unit := do
  mark fun calls => { calls with forwardTimed := true }
  unmarked (forwardTimed askTimed now targetAddr req)

def getMarked (kind : CacheKind) (key : Bytes) (init : Initializer (StatsT MarkedM)) :
    StatsT MarkedM (Except GoError Object × ℤ × ℤ) :=
  (kind.cache fun i => liftM (askMarked i)).GetTimed (liftM nowMarked) key (some init)

def initializeMarked (kind : CacheKind) (key : Bytes) (init : Initializer (StatsT MarkedM)) :
    StatsT MarkedM (Except GoError Object) :=
  kind.initializeKey (fun i => liftM (askMarked i)) key (some init)

theorem getMarked_eq (kind : CacheKind) (key : Bytes) (init : Initializer (StatsT MarkedM)) :
    getMarked kind key init = (do
      let start ← liftM nowMarked
      let data ← liftM (askMarked (.get key))
      let elapsed := (← liftM nowMarked) - start
      match data with
      | .error _ =>
        let start ← liftM nowMarked
        let obj ← initializeMarked kind key init
        let initElapsed := (← liftM nowMarked) - start
        return (obj, elapsed, initElapsed)
      | .ok data => return (.ok data, elapsed, 0)) :=
  kind.getTimed_eq ..

def handleRequestMarked (kind : CacheKind) (adapters : List ObjectStorage) (targetAddr : Addr)
    (request : Request) : StatsT MarkedM (Except Panic Unit) :=
  handleRequestTimedWith askMarked nowMarked retrieveMarked forwardMarked
    (kind.cache fun i => liftM (askMarked i)) adapters targetAddr request

/-! ## Without the marks -/

theorem retrieveMarked_unmarks (req : Request) (targetAddr : Addr) (objectKey : Bytes) :
    Unmarks (retrieveMarked req targetAddr objectKey)
      (retrieveObjectFromRemoteTimed askTimed now req targetAddr objectKey) :=
  .mark (.of_unmarked _)

theorem forwardMarked_unmarks (targetAddr : Addr) (req : Request) :
    Unmarks (forwardMarked targetAddr req) (forwardTimed askTimed now targetAddr req) :=
  .mark (.of_unmarked _)

theorem fill_unmarks (kind : CacheKind) (obj : Object) :
    Unmarks (kind.fill (fun i => liftM (askMarked i)) obj : StatsT MarkedM _)
      (kind.fill (fun i => liftM (askTimed i)) obj) := by
  cases kind with
  | bigcache => exact .op fun _ => .ret _
  | memcached =>
    refine .op fun stored => ?_
    cases stored <;> exact .ret _

theorem getMarked_unmarks (kind : CacheKind) (key : Bytes) {init : Initializer (StatsT MarkedM)}
    {init' : Initializer (StatsT TimedProxyM)} (hinit : Unmarks init init') :
    Unmarks (getMarked kind key init)
      ((kind.cache fun i => liftM (askTimed i)).GetTimed (liftM (now : TimedProxyM ℤ)) key
        (some init')) := by
  unfold getMarked
  simp only [CacheKind.getTimed_eq, CacheKind.initializeKey_eq]
  refine .op fun start => .op fun found => .op fun t => ?_
  cases found with
  | ok o => exact .ret _
  | error _ =>
    refine .op fun start => .bind (.op fun found => ?_) fun _ => .op fun t => .ret _
    cases found with
    | ok o => exact .ret _
    | error _ =>
      refine .bind hinit fun fetched => ?_
      cases fetched with
      | error err => exact .ret _
      | ok obj => exact fill_unmarks kind obj

theorem handleRequestMarked_unmarks (kind : CacheKind) (adapters : List ObjectStorage)
    (targetAddr : Addr) (request : Request) :
    Unmarks (handleRequestMarked kind adapters targetAddr request)
      (handleRequestTimed askTimed now (kind.cache fun i => liftM (askTimed i)) adapters targetAddr
        request) := by
  have hforward :
      Unmarks (forwardMarked targetAddr request >>= fun _ => pure (Except.ok (ε := Panic) ()))
      (forwardTimed askTimed now targetAddr request >>= fun _ => pure (Except.ok ())) :=
    .bind (forwardMarked_unmarks targetAddr request) fun _ => .ret _
  rw [handleRequestTimed_eq]
  unfold handleRequestMarked handleRequestTimedWith
  cases shouldIntercept adapters request with
  | none => exact hforward
  | some adapter =>
    refine .update (.bind (getMarked_unmarks kind _ (retrieveMarked_unmarks ..)) fun got => ?_)
    obtain ⟨cachedObj, cacheRetrieveT, initT⟩ := got
    refine .update ?_
    cases cachedObj with
    | error _ => exact .update hforward
    | ok cachedObj =>
      dsimp only
      cases adapter.createLocalResponse cachedObj with
      | error panic => exact .ret _
      | ok result =>
        cases result with
        | error _ => exact .update hforward
        | ok response =>
          dsimp only
          refine .op fun t => .op fun sent => .op fun t' => .update ?_
          cases sent with
          | some _ => exact .update hforward
          | none => exact .ret _

/-! ## What the calls do to the entry -/

/-- `readRequest`, `cacheMiss` and `forwarded` stay as they are. -/
structure Keeps (s s' : ProxyStatsEntry) : Prop where
  readRequest : s'.readRequest = s.readRequest
  cacheMiss : s'.cacheMiss = s.cacheMiss
  forwarded : s'.forwarded = s.forwarded

theorem forwardTimed_keeps (targetAddr : Addr) (req : Request) (s : ProxyStatsEntry) :
    ((forwardTimed askTimed now targetAddr req).run s).Returns fun r => Keeps s r.2 := by
  refine .op fun start => .op fun dialed => .op fun t => ?_
  cases dialed with
  | error _ => exact .op fun start => .op fun _ => .op fun t => .ret ⟨rfl, rfl, rfl⟩
  | ok targetConn =>
    refine .op fun start => .op fun _ => .op fun t => .op fun start =>
      .op fun read => .op fun t => ?_
    cases read with
    | error _ => exact .op fun start => .op fun _ => .op fun t => .ret ⟨rfl, rfl, rfl⟩
    | ok res => exact .op fun start => .op fun _ => .op fun t => .ret ⟨rfl, rfl, rfl⟩

theorem forwardMarked_keeps (targetAddr : Addr) (req : Request) (s : ProxyStatsEntry) (c : Calls) :
    (((forwardMarked targetAddr req >>= fun _ => pure (Except.ok (ε := Panic) ())).run s).run
      c).Returns fun r => Keeps s r.1.2 ∧ r.2 = { c with forwardTimed := true } := by
  have hkeeps := forwardTimed_keeps targetAddr req s
  refine .bind (Q := fun r => Keeps s r.1.2 ∧ r.2 = { c with forwardTimed := true }) ?_
    fun r hr => .ret hr
  exact hkeeps.bind fun r hr => .ret ⟨hr, rfl⟩

/-- The entry says whether the request was forwarded, and keeps the rest of what it said. -/
structure Settles (s : ProxyStatsEntry) (c : Calls)
    (r : (Except Panic Unit × ProxyStatsEntry) × Calls) : Prop where
  readRequest : r.1.2.readRequest = s.readRequest
  cacheMiss : r.1.2.cacheMiss = s.cacheMiss
  forwarded : r.1.2.forwarded = r.2.forwardTimed
  initializer : r.2.initializer = c.initializer

theorem settles_forwardMarked (targetAddr : Addr) (req : Request)
    {s s' : ProxyStatsEntry} {c : Calls} (hread : s'.readRequest = s.readRequest)
    (hmiss : s'.cacheMiss = s.cacheMiss) (hs : s'.forwarded = true) :
    (((forwardMarked targetAddr req >>= fun _ => pure (Except.ok (ε := Panic) ())).run s').run
      c).Returns (Settles s c) := by
  refine (forwardMarked_keeps targetAddr req s' c).mono fun r ⟨hr, hc⟩ => ?_
  refine ⟨hr.readRequest.trans hread, hr.cacheMiss.trans hmiss, ?_, ?_⟩
  · rw [hr.forwarded, hs, hc]
  · rw [hc]

/-- How a fetch goes. -/
structure Fetching where
  /-- How often it looks at the clock. -/
  looks : ℕ
  /-- It gives an object. -/
  complete : Bool

section worlds

variable {ω χ : Type} (h : (i : ProxyOp) → ω → i.Ans × ω) (tick : χ → ℤ × χ)
    (targetAddr : Addr)
  (req : Request) (objectKey : Bytes) (w : ω) (clock : χ)

/-- How `retrieveObjectFromRemoteTimed` goes in a world. -/
def fetching : Fetching :=
  match (h (.dial targetAddr) w).1 with
  | .error _ => ⟨2, false⟩
  | .ok targetConn =>
    let dialed := (h (.dial targetAddr) w).2
    match (h (.writeRequest targetConn req) dialed).1 with
    | some _ => ⟨4, false⟩
    | none =>
      match (h (.readResponse targetConn req) (h (.writeRequest targetConn req) dialed).2).1 with
      | .error _ => ⟨5, false⟩
      | .ok res => if res.statusCode ≠ statusOK then ⟨5, false⟩ else
          ⟨6, (receive objectKey res).isOk⟩

theorem retrieve_exec (s : ProxyStatsEntry) :
    let f := fetching h targetAddr req objectKey w
    let r := ((retrieveObjectFromRemoteTimed askTimed now req targetAddr objectKey).run s).exec
      (clocked h tick) (w, clock)
    r.2.2 = after tick f.looks clock ∧
      Keeps (if f.complete then { s with readRequest := 0 } else s) r.1.2 := by
  unfold retrieveObjectFromRemoteTimed fetching askTimed
  dsimp only
  rw [exec_now, exec_op, exec_now]
  cases (h (.dial targetAddr) w).1 with
  | error err => exact ⟨rfl, ⟨rfl, rfl, rfl⟩⟩
  | ok targetConn =>
    dsimp only
    rw [exec_now, exec_op, exec_now]
    obtain ⟨written, hwritten⟩ : ∃ written : Option GoError,
      (h (.writeRequest targetConn req) (h (.dial targetAddr) w).2).1 = written := ⟨_, rfl⟩
    simp only [hwritten]
    cases written with
    | some err => exact ⟨rfl, ⟨rfl, rfl, rfl⟩⟩
    | none =>
      dsimp only
      rw [exec_now, exec_op]
      cases (h (.readResponse targetConn req)
          (h (.writeRequest targetConn req) (h (.dial targetAddr) w).2).2).1 with
      | error err => exact ⟨rfl, ⟨rfl, rfl, rfl⟩⟩
      | ok res =>
        dsimp only
        by_cases hstatus : res.statusCode ≠ statusOK
        · simp only [if_pos hstatus]
          exact ⟨rfl, ⟨rfl, rfl, rfl⟩⟩
        · simp only [if_neg hstatus]
          rw [exec_now]
          cases receive objectKey res with
          | error err => exact ⟨rfl, ⟨rfl, rfl, rfl⟩⟩
          | ok object => exact ⟨rfl, ⟨rfl, rfl, rfl⟩⟩

theorem retrieveMarked_exec (s : ProxyStatsEntry) (c : Calls) :
    let f := fetching h targetAddr req objectKey w
    let r := (((retrieveMarked req targetAddr objectKey).run s).run c).exec
      (clocked h tick) (w, clock)
    r.2.2 = after tick f.looks clock ∧ r.1.2 = { c with initializer := true } ∧
      Keeps (if f.complete then { s with readRequest := 0 } else s) r.1.1.2 := by
  obtain ⟨hclock, hkeeps⟩ := retrieve_exec h tick targetAddr req objectKey w clock s
  have hrun := Marks.exec_unmarked (clocked h tick) s { c with initializer := true } (w, clock)
    (retrieveObjectFromRemoteTimed askTimed now req targetAddr objectKey)
  have hmark : (((retrieveMarked req targetAddr objectKey).run s).run c).exec
      (clocked h tick) (w, clock) =
      _ := hrun
  rw [hmark]
  exact ⟨hclock, rfl, hkeeps⟩

/-- What the lookups of a key come to, and the fetch that follows them. -/
inductive Meeting
  /-- The first lookup finds an object. -/
  | found
  /-- The second lookup does: another request has filled the key in between. -/
  | filled
  | fetched (f : Fetching)

def meeting : Meeting :=
  match (h (.get objectKey) w).1 with
  | .ok _ => .found
  | .error _ =>
    let missed := (h (.get objectKey) w).2
    match (h (.get objectKey) missed).1 with
    | .ok _ => .filled
    | .error _ => .fetched (fetching h targetAddr req objectKey (h (.get objectKey) missed).2)

namespace Meeting

def invoked : Meeting → Bool
  | found | filled => false
  | fetched _ => true

def complete : Meeting → Bool
  | found | filled => false
  | fetched f => f.complete

/-- What is measured around `initialize`, if the clock is looked at twice before. -/
def initElapsed : Meeting → ℤ
  | found => 0
  | filled => reading tick clock 3 - reading tick clock 2
  | fetched f => reading tick clock (f.looks + 3) - reading tick clock 2

end Meeting

/-- What `GetTimed` returns and leaves behind. -/
structure Got (meeting : Meeting) (s : ProxyStatsEntry) (c : Calls)
    (r : ((Except GoError Object × ℤ × ℤ) × ProxyStatsEntry) × Calls) : Prop where
  initElapsed : r.1.1.2.2 = meeting.initElapsed tick clock
  calls : r.2 = { c with initializer := c.initializer || meeting.invoked }
  keeps : Keeps (if meeting.complete then { s with readRequest := 0 } else s) r.1.2

theorem initializeMarked_exec_of_found (kind : CacheKind) {o : Object}
    (hfound : (h (.get objectKey) w).1 = .ok o) (init : Initializer (StatsT MarkedM))
    (s : ProxyStatsEntry) (c : Calls) :
    (((initializeMarked kind objectKey init).run s).run c).exec (clocked h tick) (w, clock) =
      (((.ok o, s), c), (h (.get objectKey) w).2, clock) := by
  unfold initializeMarked
  rw [kind.initializeKey_eq]
  unfold askMarked askTimed Clock.operation
  rw [Marks.exec_op]
  dsimp only [clocked]
  rw [hfound]
  rfl

/-- A fill leaves the variables and the clock alone. -/
theorem fill_exec (kind : CacheKind) (obj : Object) (s : ProxyStatsEntry) (c : Calls) :
    let r := (((kind.fill (fun i => liftM (askMarked i)) obj : StatsT MarkedM _).run s).run c).exec
      (clocked h tick) (w, clock)
    r.1.1.2 = s ∧ r.1.2 = c ∧ r.2.2 = clock := by
  cases kind with
  | bigcache => exact ⟨rfl, rfl, rfl⟩
  | memcached =>
    unfold CacheKind.fill askMarked askTimed Clock.operation
    dsimp only
    rw [Marks.exec_op]
    dsimp only [clocked]
    obtain ⟨stored, hstored⟩ : ∃ stored : Except GoError Unit, (h (.put obj) w).1 = stored :=
      ⟨_, rfl⟩
    rw [hstored]
    cases stored <;> exact ⟨rfl, rfl, rfl⟩

/-- What the initializer returns is kept or not; the rest of what it does stays. -/
theorem initializeMarked_exec_of_missed (kind : CacheKind) {err : GoError}
    (hmissed : (h (.get objectKey) w).1 = .error err) (init : Initializer (StatsT MarkedM))
    (s : ProxyStatsEntry) (c : Calls) :
    let r := (((initializeMarked kind objectKey init).run s).run c).exec (clocked h tick) (w, clock)
    let q := ((init.run s).run c).exec (clocked h tick) ((h (.get objectKey) w).2, clock)
    r.1.1.2 = q.1.1.2 ∧ r.1.2 = q.1.2 ∧ r.2.2 = q.2.2 := by
  unfold initializeMarked
  rw [kind.initializeKey_eq]
  have hfill (w : ω) (clock : χ) := fill_exec h tick w clock kind
  unfold askMarked askTimed Clock.operation at hfill ⊢
  rw [Marks.exec_op]
  dsimp only [clocked]
  rw [hmissed]
  dsimp only
  rw [Marks.exec_bind]
  generalize ((init.run s).run c).exec (clocked h tick) ((h (.get objectKey) w).2, clock) = q
  obtain ⟨⟨⟨fetched, s'⟩, c'⟩, w', clock'⟩ := q
  cases fetched with
  | error err => exact ⟨rfl, rfl, rfl⟩
  | ok obj => exact hfill w' clock' obj s' c'

/-- **The lookup.** What `GetTimed` says of the initializer is what it has measured. -/
theorem getMarked_exec (kind : CacheKind) (s : ProxyStatsEntry) (c : Calls) :
    Got tick clock (meeting h targetAddr req objectKey w) s c
      (((getMarked kind objectKey (retrieveMarked req targetAddr objectKey)).run s).run c |>.exec
        (clocked h tick) (w, clock)).1 := by
  rw [getMarked_eq]
  unfold askMarked nowMarked askTimed Clock.operation now meeting
  rw [Marks.exec_op, Marks.exec_op, Marks.exec_op]
  dsimp only [clocked]
  cases hfirst : (h (.get objectKey) w).1 with
  | ok data => exact ⟨rfl, congrArg (Calls.mk c.forwardTimed) (Bool.or_false _).symm,
      ⟨rfl, rfl, rfl⟩⟩
  | error err =>
    dsimp only
    rw [Marks.exec_op, Marks.exec_bind]
    dsimp only [clocked]
    cases hsecond : (h (.get objectKey) (h (.get objectKey) w).2).1 with
    | ok o =>
      rw [initializeMarked_exec_of_found h tick objectKey _ _ kind hsecond]
      exact ⟨rfl, congrArg (Calls.mk c.forwardTimed) (Bool.or_false _).symm,
        ⟨rfl, rfl, rfl⟩⟩
    | error err =>
      obtain ⟨hs, hc, hclock⟩ := initializeMarked_exec_of_missed h tick objectKey
        (h (.get objectKey) w).2 (after tick 3 clock) kind hsecond
        (retrieveMarked req targetAddr objectKey) s c
      obtain ⟨hafter, hmark, hkeeps⟩ := retrieveMarked_exec h tick targetAddr req objectKey
        (h (.get objectKey) (h (.get objectKey) w).2).2 (after tick 3 clock) s c
      rw [hmark] at hc
      rw [hafter] at hclock
      rw [← hs] at hkeeps
      refine ⟨?_, ?_, hkeeps⟩
      · rw [← after_add] at hclock
        exact congrArg (fun clock' => (tick clock').1 - reading tick clock 2) hclock
      · exact hc.trans (congrArg (Calls.mk c.forwardTimed) (Bool.or_true _).symm)

/-- A request that is not intercepted. -/
theorem handleRequestMarked_exec_of_none (kind : CacheKind) {adapters : List ObjectStorage}
    (hadapter : shouldIntercept adapters req = none) (s : ProxyStatsEntry) (c : Calls) :
    let r := (((handleRequestMarked kind adapters targetAddr req).run s).run c).exec
      (clocked h tick) (w, clock)
    Keeps s r.1.1.2 ∧ r.1.2 = { c with forwardTimed := true } := by
  unfold handleRequestMarked handleRequestTimedWith
  rw [hadapter]
  exact (forwardMarked_keeps targetAddr req s c).exec _ _

/-- What becomes of a request that is intercepted. -/
structure Answered (met : Meeting) (s : ProxyStatsEntry)
    (r : (Except Panic Unit × ProxyStatsEntry) × Calls) : Prop where
  readRequest : r.1.2.readRequest = if met.complete then 0 else s.readRequest
  cacheMiss : r.1.2.cacheMiss = decide (0 < met.initElapsed tick clock)
  forwarded : r.1.2.forwarded = r.2.forwardTimed
  initializer : r.2.initializer = met.invoked

theorem answered_of_some (kind : CacheKind) {adapters : List ObjectStorage}
    {adapter : ObjectStorage} (hadapter : shouldIntercept adapters req = some adapter)
    {s : ProxyStatsEntry} (hs : s.forwarded = false) :
    Answered tick clock (meeting h targetAddr req (adapter.extractObjectKey req) w) s
      ((((handleRequestMarked kind adapters targetAddr req).run s).run ⟨false, false⟩).exec
        (clocked h tick) (w, clock)).1 := by
  generalize hmet : meeting h targetAddr req (adapter.extractObjectKey req) w = met
  have hgot := getMarked_exec h tick targetAddr req (adapter.extractObjectKey req) w clock kind
    { s with objectKey := adapter.extractObjectKey req } ⟨false, false⟩
  rw [hmet] at hgot
  unfold handleRequestMarked handleRequestTimedWith
  rw [hadapter]
  dsimp only
  rw [Marks.exec_update]
  refine Marks.exec_bind_of_returns _ _ _ _ hgot fun got s' c hgot => ?_
  obtain ⟨cachedObj, cacheRetrieveT, initT⟩ := got
  have hinit : initT = met.initElapsed tick clock := hgot.initElapsed
  have hc : c = ⟨false, met.invoked⟩ := hgot.calls
  have hread : s'.readRequest = if met.complete then 0 else s.readRequest := by
    refine hgot.keeps.readRequest.trans ?_
    cases met.complete <;> rfl
  have hforwarded : s'.forwarded = false := by
    refine hgot.keeps.forwarded.trans ?_
    cases met.complete <;> exact hs
  refine Prog.Returns.mono (Q := Settles { s' with
    cacheRetrieve := cacheRetrieveT
    initializeTime := initT
    cacheMiss := 0 < initT } c) (fun r hr => ?_) ?_
  · refine ⟨hr.readRequest.trans hread, ?_, hr.forwarded, ?_⟩
    · rw [hr.cacheMiss, hinit]
    · rw [hr.initializer, hc]
  · refine Marks.returns_update _ _ ?_
    cases cachedObj with
    | error _ => exact Marks.returns_update _ _ (settles_forwardMarked targetAddr req rfl rfl rfl)
    | ok cachedObj =>
      dsimp only
      cases adapter.createLocalResponse cachedObj with
      | error panic => exact .ret ⟨rfl, rfl, hforwarded.trans (hc ▸ rfl), rfl⟩
      | ok result =>
        cases result with
        | error _ => exact Marks.returns_update _ _ (settles_forwardMarked targetAddr
            req rfl rfl rfl)
        | ok response =>
          dsimp only
          refine .op fun t => .op fun sent => .op fun t' => Marks.returns_update _ _ ?_
          cases sent with
          | some _ => exact Marks.returns_update _ _ (settles_forwardMarked targetAddr
              req rfl rfl rfl)
          | none => exact .ret ⟨rfl, rfl, hforwarded.trans (hc ▸ rfl), rfl⟩

/-! ## What the entry tells -/

/-- What is measured around `http.ReadRequest`. -/
def readTime : ℤ := reading tick clock 1 - reading tick clock 0

/-- What `handleHttpTimed` calls, once it has read `req`. -/
def calls (kind : CacheKind) (adapters : List ObjectStorage) : Calls :=
  ((((handleRequestMarked kind adapters targetAddr req).run
    { ProxyStatsEntry.zero with readRequest := readTime tick clock }).run ⟨false, false⟩).exec
      (clocked h tick) ((h .readRequest w).2, after tick 2 clock)).1.2

/-- The entry says what was called, and how long reading the request took. -/
structure Tells (entry : ProxyStatsEntry) (calls : Calls) : Prop where
  forwarded : entry.forwarded = true ↔ calls.forwardTimed = true
  cacheMiss : entry.cacheMiss = true ↔ calls.initializer = true
  readRequest : entry.readRequest = readTime tick clock

/-- The clock is looked at twice around the reading and twice around the lookup, and then before and
after `initialize`: there it has moved on exactly if the initializer was invoked. If the fetch gives
an object, reading the request took no time. -/
def Meeting.Shows : Meeting → Prop
  | found => True
  | filled => reading tick clock 5 ≤ reading tick clock 4
  | fetched f => reading tick clock 4 < reading tick clock (f.looks + 5) ∧
      (f.complete = true → reading tick clock 1 = reading tick clock 0)

variable {h tick targetAddr req w clock}

/-- The entry is what the marked handler leaves. -/
theorem entry_eq {kind : CacheKind} {adapters : List ObjectStorage} {entry : ProxyStatsEntry}
    (hread : (h .readRequest w).1 = .ok req)
    (hentry : ((handleHttpTimed askTimed now kind adapters targetAddr).exec (clocked h tick)
      (w, clock)).1 = .ok entry) :
    entry = ((((handleRequestMarked kind adapters targetAddr req).run
      { ProxyStatsEntry.zero with readRequest := readTime tick clock }).run ⟨false, false⟩).exec
        (clocked h tick) ((h .readRequest w).2, after tick 2 clock)).1.1.2 := by
  have hunmarks := ((handleRequestMarked_unmarks kind adapters targetAddr req).exec (clocked h tick)
    { ProxyStatsEntry.zero with readRequest := readTime tick clock } ⟨false, false⟩
    ((h .readRequest w).2, after tick 2 clock)).1
  rw [hunmarks]
  unfold handleHttpTimed at hentry
  rw [exec_deferClose_timed] at hentry
  -- the request is read between two looks at the clock
  simp only [Prog.exec_bind, askTimed, now, Clock.operation, Prog.exec, clocked] at hentry
  rw [hread] at hentry
  let plain := ((handleRequestTimed askTimed now (kind.cache fun i => liftM (askTimed i)) adapters
    targetAddr req).run { ProxyStatsEntry.zero with readRequest := readTime tick clock }).exec
      (clocked h tick) ((h .readRequest w).2, after tick 2 clock)
  have hplain : plain.1.1.map (fun _ => plain.1.2) = .ok entry := hentry
  change entry = plain.1.2
  cases houtcome : plain.1.1 with
  | error panic =>
    rw [houtcome] at hplain
    cases hplain
  | ok _ =>
    rw [houtcome] at hplain
    exact (Except.ok.inj hplain).symm

theorem Meeting.shows_iff (met : Meeting) :
    ((0 < met.initElapsed tick (after tick 2 clock) ↔ met.invoked = true) ∧
      (if met.complete then 0 else readTime tick clock) = readTime tick clock) ↔
      met.Shows tick clock := by
  cases met with
  | found => exact iff_of_true ⟨iff_of_false (lt_irrefl 0) Bool.false_ne_true, rfl⟩ trivial
  | filled =>
    have hinit : Meeting.filled.initElapsed tick (after tick 2 clock) =
        reading tick clock 5 - reading tick clock 4 := rfl
    rw [hinit, Shows]
    simp [invoked, complete]
  | fetched f =>
    have hinit : (Meeting.fetched f).initElapsed tick (after tick 2 clock) =
        reading tick clock (f.looks + 5) - reading tick clock 4 := by
      have hafter := after_add tick 2 (f.looks + 3) clock
      exact congrArg (fun clock' => (tick clock').1 - reading tick clock 4) hafter.symm
    rw [hinit, Shows, Int.sub_pos, readTime]
    refine and_congr (iff_true_right rfl) ?_
    have hcomplete : (Meeting.fetched f).complete = f.complete := rfl
    rw [hcomplete]
    cases f.complete with
    | false => exact iff_of_true rfl nofun
    | true =>
      simp only [if_true, forall_const]
      omega

/-- **The entry.** It tells what happened exactly if an adapter intercepts the request and the
lookups of its key, the fetch and the clock go together. -/
theorem entry_tells_iff {ω χ : Type} (h : (i : ProxyOp) → ω → i.Ans × ω)
    (tick : χ → ℤ × χ) (kind : CacheKind) (adapters : List ObjectStorage) (targetAddr : Addr)
    (req : Request) (w : ω) (clock : χ) (entry : ProxyStatsEntry)
    (hread : (h .readRequest w).1 = .ok req)
    (hentry : ((handleHttpTimed askTimed now kind adapters targetAddr).exec (clocked h tick)
      (w, clock)).1 = .ok entry) :
    Tells tick clock entry (calls h tick targetAddr req w clock kind adapters) ↔
      ∃ adapter, shouldIntercept adapters req = some adapter ∧
        (meeting h targetAddr req (adapter.extractObjectKey req) (h .readRequest w).2).Shows
          tick clock := by
  rw [entry_eq hread hentry, calls]
  cases hadapter : shouldIntercept adapters req with
  | none =>
    obtain ⟨hkeeps, hcalls⟩ :=
      handleRequestMarked_exec_of_none h tick targetAddr req (h .readRequest w).2
      (after tick 2 clock) kind hadapter
        { ProxyStatsEntry.zero with readRequest := readTime tick clock }
      ⟨false, false⟩
    refine iff_of_false (fun ht => ?_) (fun ⟨_, hnone, _⟩ => nomatch hnone)
    have hforwarded := ht.forwarded.2 (hcalls ▸ rfl)
    rw [hkeeps.forwarded] at hforwarded
    cases hforwarded
  | some adapter =>
    have hanswered :=
      answered_of_some h tick targetAddr req (h .readRequest w).2 (after tick 2 clock) kind
      hadapter (s := { ProxyStatsEntry.zero with readRequest := readTime tick clock }) rfl
    simp only [Option.some.injEq, exists_eq_left']
    rw [← Meeting.shows_iff]
    constructor
    · intro ht
      refine ⟨?_, hanswered.readRequest.symm.trans ht.readRequest⟩
      rw [← hanswered.initializer, ← ht.cacheMiss, hanswered.cacheMiss, decide_eq_true_iff]
    · rintro ⟨hmiss, htime⟩
      refine ⟨by rw [hanswered.forwarded], ?_, hanswered.readRequest.trans htime⟩
      rw [hanswered.cacheMiss, hanswered.initializer, decide_eq_true_iff, hmiss]

end worlds

/-- A hit: the object is in the store, and nothing fails. -/
def hitWorld : (i : ProxyOp) → Unit → i.Ans × Unit
  | .readRequest, w => (.ok getObject, w)
  | .write _, w | .respond _, w | .writeRequest _ _, w => (none, w)
  | .close, w | .goPut _, w => ((), w)
  | .dial _, w => (.ok 3, w)
  | .readResponse _ _, w => (.ok (okResponse [1]), w)
  | .get key, w => (.ok ⟨key, some [1], none⟩, w)
  | .put _, w => (.ok (), w)

/-- What is returned for it. -/
def hitEntry : ProxyStatsEntry :=
  { ProxyStatsEntry.zero with
    readRequest := 1
    writeResponse := 1
    cacheRetrieve := 1
    objectKey := ascii "/bucket/object?" }

/-- The object is not in the store, and the origin cannot be reached. -/
def refusedWorld : (i : ProxyOp) → Unit → i.Ans × Unit
  | .dial _, w => (.error (.new "connection refused"), w)
  | i, w => missWorld i w

/-- What is returned for it. -/
def refusedEntry : ProxyStatsEntry :=
  { ProxyStatsEntry.zero with
    readRequest := 1
    dialRemote := 1
    writeResponse := 1
    cacheRetrieve := 1
    initializeTime := 3
    cacheMiss := true
    forwarded := true
    objectKey := ascii "/bucket/object?" }

/-- A hit; and a miss whose fetch fails, so that the request is forwarded. -/
theorem entry_tells_hit :
    let minio := [MinioObjectStorageAdapter.toObjectStorage ⟨ascii "host.lima.internal:9000"⟩]
    let called (world : (i : ProxyOp) → Unit → i.Ans × Unit) :=
      calls world ticking ⟨0x0a000001, 9000⟩ getObject () 0 .bigcache minio
    Tells ticking 0 hitEntry (called hitWorld) ∧ (called hitWorld).initializer = false ∧
      Tells ticking 0 refusedEntry (called refusedWorld) ∧
      (called refusedWorld).initializer = true := by
  intro minio called
  have hhit : Tells ticking 0 hitEntry (called hitWorld) :=
    (entry_tells_iff hitWorld ticking .bigcache minio _ getObject () 0 hitEntry rfl rfl).2
      ⟨_, rfl, trivial⟩
  have hrefused : Tells ticking 0 refusedEntry (called refusedWorld) :=
    (entry_tells_iff refusedWorld ticking .bigcache minio _ getObject () 0 refusedEntry rfl rfl).2
      ⟨_, rfl, by decide, nofun⟩
  exact ⟨hhit, rfl, hrefused, rfl⟩

/-- A miss that is fetched: reading the request took one tick, and the entry says none. -/
theorem entry_loses_readTime :
    ¬ ∀ (ω χ : Type) (h : (i : ProxyOp) → ω → i.Ans × ω) (tick : χ → ℤ × χ)
    (kind : CacheKind) (adapters : List ObjectStorage) (targetAddr : Addr) (req : Request) (w : ω)
    (clock : χ) (entry : ProxyStatsEntry), (h .readRequest w).1 = .ok req →
      ((handleHttpTimed askTimed now kind adapters targetAddr).exec (clocked h tick) (w, clock)).1 =
        .ok entry →
      Tells tick clock entry (calls h tick targetAddr req w clock kind adapters) := by
  intro h
  have ht := h Unit ℤ missWorld ticking .bigcache
    [MinioObjectStorageAdapter.toObjectStorage ⟨ascii "host.lima.internal:9000"⟩]
    ⟨0x0a000001, 9000⟩
    getObject () 0 _ rfl rfl
  cases ht.readRequest

end Proxy

end AutomaticCache
