import AutomaticCache.Cache.Calls
import AutomaticCache.Lib.Clock
import AutomaticCache.Lib.Goroutines
import AutomaticCache.Proxy.System

/-!
# The handlers

`handleHttpInternal` of `HttpCachingProxy` and `handleHttpTimed` of `HttpCachingTimedProxy`, with
all that they call, as programs over what they ask of the network and of their cache. What is
written down once in both files is written down once here, in any monad `m` with these operations.

`retrieveObjectFromRemote` starts a goroutine and waits on two unbuffered channels for what it
sends. That the connection to the origin is closed in the end is left out: nothing waits for that.
-/

namespace AutomaticCache

namespace Proxy

open Bytes

/-- What a handler asks for. Its client's connection is one of its own; a connection to the origin
is what a dial gives it. The last three are what its cache asks of its store. -/
inductive ProxyOp
  /-- `http.ReadRequest`. -/
  | readRequest
  /-- `conn.Write`. -/
  | write (b : Bytes)
  /-- `response.Write(conn)`. -/
  | respond (response : Response)
  | close
  | dial (targetAddr : Addr)
  /-- `req.Write(targetConn)`. -/
  | writeRequest (targetConn : ℕ) (req : Request)
  /-- `http.ReadResponse`, with what its body will yield. -/
  | readResponse (targetConn : ℕ) (req : Request)
  | get (key : Bytes)
  | put (o : Object)
  /-- `go put(o)`. -/
  | goPut (o : Object)

abbrev ProxyOp.Ans : ProxyOp → Type
  | .readRequest => Except GoError Request
  | .write _ | .respond _ | .writeRequest _ _ => Option GoError
  | .close | .goPut _ => Unit
  | .dial _ => Except GoError ℕ
  | .readResponse _ _ => Except GoError Response
  | .get _ => Except GoError Object
  | .put _ => Except GoError Unit

/-- The interface `cache.Cache`, as far as the proxies use it. -/
structure Cache (m : Type → Type) where
  Get : Bytes → Option (Initializer m) → m (Except GoError Object)
  GetTimed : m ℤ → Bytes → Option (Initializer m) → m (Except GoError Object × ℤ × ℤ)

/-- The caches that implement it. -/
inductive CacheKind
  | bigcache
  | memcached
  deriving DecidableEq

/-! ## `HttpCachingProxy` -/

section handlers

variable {m : Type → Type} [Monad m] (perform : (i : ProxyOp) → m i.Ans)

def storeOps : StoreOps m where
  get := fun key => perform (.get key)
  put := fun o => perform (.put o)
  goPut := fun o => perform (.goPut o)

def CacheKind.cache : CacheKind → Cache m
  | .bigcache => ⟨BigcacheWrapper.Get (storeOps perform),
      BigcacheWrapper.GetTimed (storeOps perform)⟩
  | .memcached => ⟨MemcachedClient.Get (storeOps perform),
      MemcachedClient.GetTimed (storeOps perform)⟩

namespace CacheKind

def initializeKey (kind : CacheKind) (key : Bytes) (initializer : Option (Initializer m)) :
    m (Except GoError Object) :=
  match kind with
  | .bigcache => BigcacheWrapper.initializeKey (storeOps perform) key initializer
  | .memcached => MemcachedClient.initializeKey (storeOps perform) key initializer

/-- What `initialize` returns where the initializer returns an error. -/
def initError : CacheKind → GoError → GoError
  | .bigcache => id
  | .memcached => wrapError errInitializer

/-- How `initialize` stores what the initializer returns. -/
def fill (kind : CacheKind) (obj : Object) : m (Except GoError Object) :=
  match kind with
  | .bigcache => do
    perform (.goPut obj)
    return .ok obj
  | .memcached => do
    match ← perform (.put obj) with
    | .error err => return .error err
    | .ok () => return .ok obj

theorem get_eq (kind : CacheKind) (key : Bytes) (initializer : Option (Initializer m)) :
    (kind.cache perform).Get key initializer = (do
      match ← perform (.get key) with
      | .error _ => kind.initializeKey perform key initializer
      | .ok obj => return .ok obj) := by
  cases kind <;> exact bind_congr fun found => by cases found <;> rfl

theorem getTimed_eq (kind : CacheKind) (now : m ℤ) (key : Bytes)
    (initializer : Option (Initializer m)) :
    (kind.cache perform).GetTimed now key initializer = (do
      let start ← now
      let data ← perform (.get key)
      let elapsed := (← now) - start
      match data with
      | .error _ =>
        let start ← now
        let obj ← kind.initializeKey perform key initializer
        let initElapsed := (← now) - start
        return (obj, elapsed, initElapsed)
      | .ok data => return (.ok data, elapsed, 0)) := by
  cases kind <;>
    exact bind_congr fun start => bind_congr fun data => bind_congr fun t => by cases data <;> rfl

theorem initializeKey_eq (kind : CacheKind) (key : Bytes) (initializer : Initializer m) :
    kind.initializeKey perform key (some initializer) = (do
      match ← perform (.get key) with
      | .error _ =>
        match ← initializer with
        | .error err => return .error (kind.initError err)
        | .ok obj => kind.fill perform obj
      | .ok obj => return .ok obj) := by
  cases kind with
  | bigcache =>
    refine bind_congr fun found => ?_
    cases found with
    | ok obj => rfl
    | error _ => exact bind_congr fun fetched => by cases fetched <;> rfl
  | memcached =>
    refine bind_congr fun found => ?_
    cases found with
    | ok obj => rfl
    | error _ =>
      refine bind_congr fun fetched => ?_
      cases fetched with
      | error err => rfl
      | ok obj => exact bind_congr fun stored => by cases stored <;> rfl

end CacheKind

def serviceUnavailable : Bytes := ascii "HTTP/1.1 503 Service Unavailable\r\n\r\n"

def badRequest : Bytes := ascii "HTTP/1.1 400 Bad Request\r\n\r\n"

/-- `defer conn.Close()`. -/
def deferClose {α : Type} (body : m α) : m α := do
  let result ← body
  perform .close
  return result

def forward (targetAddr : Addr) (req : Request) : m Unit := do
  match ← perform (.dial targetAddr) with
  | .error _ =>
    let _ ← perform (.write serviceUnavailable)
  | .ok targetConn =>
    let _ ← perform (.writeRequest targetConn req)
    match ← perform (.readResponse targetConn req) with
    | .error _ =>
      let _ ← perform (.write serviceUnavailable)
    | .ok res =>
      let _ ← perform (.respond res)

/-- `handleHttpInternal` from the request on. -/
def handleRequest (retrieve : Request → Addr → Bytes → Initializer m) (cache : Cache m)
    (adapters : List ObjectStorage) (targetAddr : Addr) (request : Request) :
    m (Except Panic Unit) :=
  match shouldIntercept adapters request with
  | some adapter => do
    let objKey := adapter.extractObjectKey request
    let initializer := retrieve request targetAddr objKey
    match ← cache.Get objKey (some initializer) with
    | .ok cachedObj =>
      match adapter.createLocalResponse cachedObj with
      | .error panic => return .error panic
      | .ok (.error _) =>
        forward perform targetAddr request
        return .ok ()
      | .ok (.ok response) =>
        match ← perform (.respond response) with
        | some _ =>
          forward perform targetAddr request
          return .ok ()
        | none => return .ok ()
    | .error _ =>
      forward perform targetAddr request
      return .ok ()
  | none => do
    forward perform targetAddr request
    return .ok ()

/-- With what `retrieveObjectFromRemote` is in `m`. -/
def handleWith (retrieve : Request → Addr → Bytes → Initializer m) (cache : Cache m)
    (adapters : List ObjectStorage) (targetAddr : Addr) : m (Except Panic Unit) :=
  deferClose perform do
    match ← perform .readRequest with
    | .error _ => return .ok ()
    | .ok request => handleRequest perform retrieve cache adapters targetAddr request

/-! ## `HttpCachingTimedProxy` -/

structure NetworkTimer where
  readRequest : ℤ
  dialRemote : ℤ
  writeRequest : ℤ
  readResponse : ℤ
  writeResponse : ℤ
  deriving DecidableEq

def NetworkTimer.zero : NetworkTimer := ⟨0, 0, 0, 0, 0⟩

structure ProxyStatsEntry extends NetworkTimer where
  total : ℤ
  cacheRetrieve : ℤ
  initializeTime : ℤ
  cacheMiss : Bool
  forwarded : Bool
  failed : Bool
  objectKey : Bytes
  workerID : ℤ
  deriving DecidableEq

def ProxyStatsEntry.zero : ProxyStatsEntry := ⟨.zero, 0, 0, 0, false, false, false, [], 0⟩

/-- With the variable `stats`, into whose timer `retrieveObjectFromRemoteTimed` and `forwardTimed`
write. -/
abbrev StatsT (m : Type → Type) := StateT ProxyStatsEntry m

variable (now : m ℤ)

def retrieveObjectFromRemoteTimed (req : Request) (targetAddr : Addr) (objectKey : Bytes) :
    Initializer (StatsT m) := do
  let start ← now
  let dialed ← perform (.dial targetAddr)
  let dialRemote := (← now) - start
  match dialed with
  | .error err => return .error (connectError err)
  | .ok targetConn =>
  let start ← now
  let written ← perform (.writeRequest targetConn req)
  let writeRequest := (← now) - start
  match written with
  | some err => return .error (sendRequestError err)
  | none =>
  let start ← now
  match ← perform (.readResponse targetConn req) with
  | .error err => return .error (readResponseError err)
  | .ok res =>
  if res.statusCode ≠ statusOK then return receive objectKey res
  else
    let readResponse := (← now) - start
    match receive objectKey res with
    | .error err => return .error err
    | .ok object =>
      -- `localTimes.ReadRequest` is never set
      modify fun stats => { stats with
        dialRemote := dialRemote
        writeRequest := writeRequest
        readRequest := NetworkTimer.zero.readRequest
        readResponse := readResponse }
      return .ok object

def forwardTimed (targetAddr : Addr) (req : Request) : StatsT m Unit := do
  let start ← now
  let dialed ← perform (.dial targetAddr)
  let dialRemote := (← now) - start
  modify fun stats => { stats with dialRemote := dialRemote }
  match dialed with
  | .error _ =>
    let start ← now
    let _ ← perform (.write serviceUnavailable)
    let writeResponse := (← now) - start
    modify fun stats => { stats with writeResponse := writeResponse }
  | .ok targetConn =>
    let start ← now
    let _ ← perform (.writeRequest targetConn req)
    let writeRequest := (← now) - start
    modify fun stats => { stats with writeRequest := writeRequest }
    let start ← now
    let read ← perform (.readResponse targetConn req)
    let readResponse := (← now) - start
    modify fun stats => { stats with readResponse := readResponse }
    match read with
    | .error _ =>
      let start ← now
      let _ ← perform (.write serviceUnavailable)
      let writeResponse := (← now) - start
      modify fun stats => { stats with writeResponse := writeResponse }
    | .ok res =>
      let start ← now
      let _ ← perform (.respond res)
      let writeResponse := (← now) - start
      modify fun stats => { stats with writeResponse := writeResponse }

/-- `handleHttpTimed` from the request on. -/
def handleRequestTimed (cache : Cache (StatsT m)) (adapters : List ObjectStorage)
    (targetAddr : Addr) (request : Request) : StatsT m (Except Panic Unit) :=
  match shouldIntercept adapters request with
  | some adapter => do
    let objKey := adapter.extractObjectKey request
    modify fun stats => { stats with objectKey := objKey }
    let initializer := retrieveObjectFromRemoteTimed perform now request targetAddr objKey
    let (cachedObj, cacheRetrieveT, initT) ← cache.GetTimed now objKey (some initializer)
    modify fun stats => { stats with
      cacheRetrieve := cacheRetrieveT
      initializeTime := initT
      cacheMiss := 0 < initT }
    match cachedObj with
    | .ok cachedObj =>
      match adapter.createLocalResponse cachedObj with
      | .error panic => return .error panic
      | .ok (.error _) =>
        modify fun stats => { stats with forwarded := true, failed := true }
        forwardTimed perform now targetAddr request
        return .ok ()
      | .ok (.ok response) =>
        let t ← now
        let sent ← perform (.respond response)
        let writeResponse := (← now) - t
        modify fun stats => { stats with writeResponse := writeResponse }
        match sent with
        | some _ =>
          modify fun stats => { stats with forwarded := true, failed := true }
          forwardTimed perform now targetAddr request
          return .ok ()
        | none => return .ok ()
    | .error _ =>
      modify fun stats => { stats with forwarded := true }
      forwardTimed perform now targetAddr request
      return .ok ()
  | none => do
    forwardTimed perform now targetAddr request
    return .ok ()

/-- `io.ErrUnexpectedEOF`. -/
def errUnexpectedEOF : GoError := .new "unexpected EOF"

/-- `handleHttpTimed` once it has measured the reading of its request. -/
def handleReadTimed (kind : CacheKind) (adapters : List ObjectStorage) (targetAddr : Addr)
    (read : Except GoError Request) : StatsT m (Except Panic Unit) :=
  match read with
  | .error err => do
    let t ← now
    if err = errUnexpectedEOF then
      let _ ← perform (.write badRequest)
      return .ok ()
    else
      let _ ← perform (.write badRequest)
      let writeResponse := (← now) - t
      modify fun stats => { stats with writeResponse := writeResponse }
      return .ok ()
  | .ok request =>
    handleRequestTimed perform now (kind.cache fun i => liftM (perform i)) adapters
      targetAddr request

def handleHttpTimed (kind : CacheKind) (adapters : List ObjectStorage) (targetAddr : Addr) :
    m (Except Panic ProxyStatsEntry) :=
  deferClose perform do
    let startTime ← now
    let t := startTime
    let read ← perform .readRequest
    let stats := { ProxyStatsEntry.zero with readRequest := (← now) - t }
    let (outcome, stats) ← (handleReadTimed perform now kind adapters targetAddr read).run stats
    return outcome.map fun _ => stats

end handlers

/-! ## The goroutine of `retrieveObjectFromRemote` -/

inductive Chan
  | errChan
  | objChan
  deriving DecidableEq

abbrev Chan.Val : Chan → Type
  | .errChan => Option GoError
  | .objChan => Object

/-- What the goroutine closes over. -/
structure Retrieval where
  req : Request
  targetAddr : Addr
  objectKey : Bytes

/-- What a handler and its goroutine run. -/
abbrev HandlerM := Goroutines.GoM ProxyOp Chan Retrieval Chan.Val ProxyOp.Ans

/-- An operation, as a handler or its goroutine asks for it. -/
def perform (i : ProxyOp) : HandlerM i.Ans := Goroutines.operation i

def Retrieval.goroutine (r : Retrieval) : HandlerM Unit := do
  match ← perform (.dial r.targetAddr) with
  | .error err => Goroutines.send .errChan (some (connectError err))
  | .ok targetConn =>
  match ← perform (.writeRequest targetConn r.req) with
  | some err => Goroutines.send .errChan (some (sendRequestError err))
  | none =>
  match ← perform (.readResponse targetConn r.req) with
  | .error err => Goroutines.send .errChan (some (readResponseError err))
  | .ok res =>
  match receive r.objectKey res with
  | .error err => Goroutines.send .errChan (some err)
  | .ok object => do
    Goroutines.send .errChan none
    Goroutines.send .objChan object

def retrieveObjectFromRemote (req : Request) (targetAddr : Addr) (objectKey : Bytes) :
    HandlerM (Except GoError Object) := do
  Goroutines.go ⟨req, targetAddr, objectKey⟩
  match ← (Goroutines.recv Chan.errChan : HandlerM (Option GoError)) with
  | some err => return .error (retrieveError err)
  | none => return .ok (← Goroutines.recv Chan.objChan)

def handleHttpInternal (kind : CacheKind) (adapters : List ObjectStorage) (targetAddr : Addr) :
    HandlerM (Except Panic Unit) :=
  handleWith perform retrieveObjectFromRemote (kind.cache perform) adapters
    targetAddr

end Proxy

end AutomaticCache
