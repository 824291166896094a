import AutomaticCache.Proxy.Agreement

/-!
# The caching proxy as programs

`server` is `HttpCachingProxy` with a `BigcacheWrapper` again, where each connection is handled by
the program `handleHttpInternal` with the goroutines it starts. They take turns in any order, and
share the cache. With the goroutine of `retrieveObjectFromRemote` in line, what is left of a program
is one of a few (`reads_eq` and what it is made of).
-/

namespace AutomaticCache

open Runs

namespace Proxy

/-! ## The system -/

/-- What the connections share: the `bigcache.BigCache`, and each `go bw.put(obj)` that has not
run. -/
structure Shared where
  store : Finmap fun _ : Bytes => Gob.Message
  puts : List Object

/-- A connection, the goroutines that handle it, and a record of what they asked for. -/
structure Connection where
  targetAddr : Addr
  main : HandlerM (Except Panic Unit)
  goroutines : List (HandlerM Unit)
  asked : List (Σ i : ProxyOp, i.Ans)

structure Server where
  shared : Shared
  connections : List Connection

def Connection.accepted (adapters : List ObjectStorage) (targetAddr : Addr) : Connection :=
  ⟨targetAddr, handleHttpInternal .bigcache adapters targetAddr, [], []⟩

def Connection.panicked (conn : Connection) : Bool :=
  match conn.main with
  | .ret (.error _) => true
  | _ => false

abbrev bigcacheBackend : Backend (Finmap fun _ : Bytes => Gob.Message) Gob.Message :=
  mapBackend Gob.Message BigcacheWrapper.errEntryNotFound

/-- The cache answers a lookup, and the oracle what is asked of the network. -/
def Shared.answer (oracle : (i : ProxyOp) → i.Ans) : (i : ProxyOp) → Shared → i.Ans × Shared
  | .get key, w => (BigcacheWrapper.get bigcacheBackend w.store key, w)
  | .goPut o, w => ((), { w with puts := w.puts ++ [o] })
  | i, w => (oracle i, w)

inductive ServerAct
  | accept (targetAddr : Addr)
  /-- A step of the goroutines of connection `i`. -/
  | run (i : ℕ) (oracle : (i : ProxyOp) → i.Ans) (a : Goroutines.Act)
  | put (n : ℕ)
  | putFails (n : ℕ)
  | drop (key : Bytes)

/-- A step of the goroutines of a connection. -/
def Connection.step (oracle : (i : ProxyOp) → i.Ans) (conn : Connection) (w : Shared)
    (a : Goroutines.Act) : Option (Shared × Connection) :=
  (Goroutines.step (Prog.recording (Shared.answer oracle)) Retrieval.goroutine
    ⟨conn.main, conn.goroutines, (w, conn.asked)⟩ a).map fun s =>
      (s.world.1, ⟨conn.targetAddr, s.main, s.goroutines, s.world.2⟩)

/-- A panic ends the process, once the deferred `Close` has run. -/
def Server.step (adapters : List ObjectStorage) (S : Server) (a : ServerAct) : Option Server :=
  if S.connections.any Connection.panicked then none
  else
    match a with
    | .accept targetAddr => some { S with connections := S.connections ++
        [.accepted adapters targetAddr] }
    | .run i oracle a => S.connections[i]?.bind fun conn =>
        (conn.step oracle S.shared a).map fun next => ⟨next.1, S.connections.set i next.2⟩
    | .put n => S.shared.puts[n]?.bind fun o =>
        match BigcacheWrapper.put bigcacheBackend S.shared.store o with
        | .ok store => some { S with shared := ⟨store, S.shared.puts.eraseIdx n⟩ }
        | .error _ => none
    | .putFails n => S.shared.puts[n]?.bind fun _ =>
        some { S with shared := { S.shared with puts := S.shared.puts.eraseIdx n } }
    | .drop key => some { S with shared := { S.shared with store := S.shared.store.erase key } }

def server (adapters : List ObjectStorage) : System Server ServerAct where
  init := ⟨⟨∅, []⟩, []⟩
  step := Server.step adapters

/-! ## What is left of a handler -/

/-- The deferred `Close`. -/
def closes (outcome : Except Panic Unit) : ProxyM (Except Panic Unit) :=
  .op .close fun _ => .ret outcome

def refuses : ProxyM (Except Panic Unit) := .op (.write serviceUnavailable) fun _ => closes (.ok ())

def relays (res : Response) : ProxyM (Except Panic Unit) :=
  .op (.respond res) fun _ => closes (.ok ())

def forwardRead : Except GoError Response → ProxyM (Except Panic Unit)
  | .error _ => refuses
  | .ok res => relays res

def forwardReads (targetConn : ℕ) (req : Request) : ProxyM (Except Panic Unit) :=
  .op (.readResponse targetConn req) forwardRead

def forwardWrites (targetConn : ℕ) (req : Request) : ProxyM (Except Panic Unit) :=
  .op (.writeRequest targetConn req) fun _ => forwardReads targetConn req

def forwardDialed (req : Request) : Except GoError ℕ → ProxyM (Except Panic Unit)
  | .error _ => refuses
  | .ok targetConn => forwardWrites targetConn req

def forwards (targetAddr : Addr) (req : Request) : ProxyM (Except Panic Unit) :=
  .op (.dial targetAddr) (forwardDialed req)

section intercepted

variable (adapter : ObjectStorage) (targetAddr : Addr) (req : Request)

def sent : Option GoError → ProxyM (Except Panic Unit)
  | some _ => forwards targetAddr req
  | none => closes (.ok ())

def sends (response : Response) : ProxyM (Except Panic Unit) :=
  .op (.respond response) (sent targetAddr req)

def serves (o : Object) : ProxyM (Except Panic Unit) :=
  match adapter.createLocalResponse o with
  | .error panic => closes (.error panic)
  | .ok (.error _) => forwards targetAddr req
  | .ok (.ok response) => sends targetAddr req response

def puts (o : Object) : ProxyM (Except Panic Unit) :=
  .op (.goPut o) fun _ => serves adapter targetAddr req o

def fetchRead : Except GoError Response → ProxyM (Except Panic Unit)
  | .error _ => forwards targetAddr req
  | .ok res =>
    match receive (adapter.extractObjectKey req) res with
    | .error _ => forwards targetAddr req
    | .ok o => puts adapter targetAddr req o

def fetchReads (targetConn : ℕ) : ProxyM (Except Panic Unit) :=
  .op (.readResponse targetConn req) (fetchRead adapter targetAddr req)

def fetchWritten (targetConn : ℕ) : Option GoError → ProxyM (Except Panic Unit)
  | some _ => forwards targetAddr req
  | none => fetchReads adapter targetAddr req targetConn

def fetchWrites (targetConn : ℕ) : ProxyM (Except Panic Unit) :=
  .op (.writeRequest targetConn req) (fetchWritten adapter targetAddr req targetConn)

def fetchDialed : Except GoError ℕ → ProxyM (Except Panic Unit)
  | .error _ => forwards targetAddr req
  | .ok targetConn => fetchWrites adapter targetAddr req targetConn

def fetchDials : ProxyM (Except Panic Unit) :=
  .op (.dial targetAddr) (fetchDialed adapter targetAddr req)

def doubleChecked : Except GoError Object → ProxyM (Except Panic Unit)
  | .ok o => serves adapter targetAddr req o
  | .error _ => fetchDials adapter targetAddr req

def doubleChecks : ProxyM (Except Panic Unit) :=
  .op (.get (adapter.extractObjectKey req)) (doubleChecked adapter targetAddr req)

def gotten : Except GoError Object → ProxyM (Except Panic Unit)
  | .ok o => serves adapter targetAddr req o
  | .error _ => doubleChecks adapter targetAddr req

def gets : ProxyM (Except Panic Unit) :=
  .op (.get (adapter.extractObjectKey req)) (gotten adapter targetAddr req)

end intercepted

def requested (adapters : List ObjectStorage) (targetAddr : Addr) :
    Except GoError Request → ProxyM (Except Panic Unit)
  | .error _ => closes (.ok ())
  | .ok req =>
    match shouldIntercept adapters req with
    | none => forwards targetAddr req
    | some adapter => gets adapter targetAddr req

def reads (adapters : List ObjectStorage) (targetAddr : Addr) : ProxyM (Except Panic Unit) :=
  .op .readRequest (requested adapters targetAddr)

theorem forwards_eq (targetAddr : Addr) (req : Request) :
    (deferClose ask do
      forward ask targetAddr req
      return .ok ()) = forwards targetAddr req := by
  unfold forward forwards
  refine congrArg (Prog.op _) (funext fun dialed => ?_)
  cases dialed with
  | error err => rfl
  | ok targetConn =>
    refine congrArg (Prog.op _) (funext fun written => congrArg (Prog.op _) (funext fun read => ?_))
    cases read <;> rfl

/-- After the lookups, with what `cache.Get` returns. -/
theorem serves_eq (adapter : ObjectStorage) (targetAddr : Addr) (req : Request) (o : Object) :
    (deferClose ask <|
      match adapter.createLocalResponse o with
      | .error panic => return .error panic
      | .ok (.error _) => do
        forward ask targetAddr req
        return .ok ()
      | .ok (.ok response) => do
        match ← ask (.respond response) with
        | some _ =>
          forward ask targetAddr req
          return .ok ()
        | none => return .ok ()) = serves adapter targetAddr req o := by
  unfold serves
  cases adapter.createLocalResponse o with
  | error panic => rfl
  | ok result =>
    cases result with
    | error err => exact forwards_eq targetAddr req
    | ok response =>
      refine congrArg (Prog.op _) (funext fun sent => ?_)
      cases sent with
      | none => rfl
      | some err => exact forwards_eq targetAddr req

theorem reads_eq (adapters : List ObjectStorage) (targetAddr : Addr) :
    handleInline .bigcache adapters targetAddr = reads adapters targetAddr := by
  refine congrArg (Prog.op _) (funext fun read => ?_)
  cases read with
  | error err => rfl
  | ok req =>
    dsimp only [Prog.bind, requested, handleRequest]
    cases shouldIntercept adapters req with
    | none => exact forwards_eq targetAddr req
    | some adapter =>
      refine congrArg (Prog.op _) (funext fun found => ?_)
      cases found with
      | ok o => exact serves_eq adapter targetAddr req o
      | error err =>
        refine congrArg (Prog.op _) (funext fun found => ?_)
        cases found with
        | ok o => exact serves_eq adapter targetAddr req o
        | error err =>
          refine congrArg (Prog.op _) (funext fun dialed => ?_)
          cases dialed with
          | error err => exact forwards_eq targetAddr req
          | ok targetConn =>
            refine congrArg (Prog.op _) (funext fun written => ?_)
            cases written with
            | some err => exact forwards_eq targetAddr req
            | none =>
              refine congrArg (Prog.op _) (funext fun read => ?_)
              cases read with
              | error err => exact forwards_eq targetAddr req
              | ok res =>
                dsimp only [Prog.bind, fetchRead]
                cases receive (adapter.extractObjectKey req) res with
                | error err => exact forwards_eq targetAddr req
                | ok o =>
                  refine congrArg (Prog.op _) (funext fun _ => ?_)
                  exact serves_eq adapter targetAddr req o

end Proxy

end AutomaticCache
