import AutomaticCache.Proxy.Agreement

/-!
# What a handler asks for

Whatever it meets, a handler dials no address but its client's, writes no request but the one that
it has read, looks up and stores under no key but the one that an adapter makes of that request, and
stores no object without data (`handleRequest_only`).
-/

namespace AutomaticCache

/-- An object with data that carries the key. -/
structure Object.For (key : Bytes) (o : Object) : Prop where
  key : o.key = key
  data : o.data ≠ none

namespace Proxy

/-- What a handler may ask for once it has read its request. -/
inductive Asked (adapters : List ObjectStorage) (targetAddr : Addr) (request : Request) :
    ProxyOp → Prop
  | write : Asked adapters targetAddr request (.write serviceUnavailable)
  | respond (response : Response) : Asked adapters targetAddr request (.respond response)
  | dial : Asked adapters targetAddr request (.dial targetAddr)
  | writeRequest (targetConn : ℕ) :
    Asked adapters targetAddr request (.writeRequest targetConn request)
  | readResponse (targetConn : ℕ) :
    Asked adapters targetAddr request (.readResponse targetConn request)
  | get {adapter : ObjectStorage} (h : shouldIntercept adapters request = some adapter) :
    Asked adapters targetAddr request (.get (adapter.extractObjectKey request))
  | put {adapter : ObjectStorage} (h : shouldIntercept adapters request = some adapter) {o : Object}
    (ho : o.For (adapter.extractObjectKey request)) : Asked adapters targetAddr request (.put o)
  | goPut {adapter : ObjectStorage} (h : shouldIntercept adapters request = some adapter)
    {o : Object} (ho : o.For (adapter.extractObjectKey request)) :
    Asked adapters targetAddr request (.goPut o)

theorem ask_only {P : ProxyOp → Prop} {i : ProxyOp} (hi : P i) : (ask i).Only P :=
  .op hi fun r => .ret r

/-- An object that it returns is one with `Q`. -/
def Fetches (Q : Object → Prop) (init : Initializer ProxyM) : Prop :=
  init.Returns fun fetched => ∀ o, fetched = .ok o → Q o

section rules

variable {P : ProxyOp → Prop} {targetAddr : Addr} {req : Request}

theorem retrieveInline_only (hdial : P (.dial targetAddr))
    (hwrite : ∀ targetConn, P (.writeRequest targetConn req))
    (hread : ∀ targetConn, P (.readResponse targetConn req)) (objectKey : Bytes) :
    (retrieveInline req targetAddr objectKey).Only P := by
  refine .op hdial fun dialed => ?_
  cases dialed with
  | error err => exact .ret _
  | ok targetConn =>
    refine .op (hwrite targetConn) fun written => ?_
    cases written with
    | some err => exact .ret _
    | none =>
      refine .op (hread targetConn) fun read => ?_
      cases read with
      | error err => exact .ret _
      | ok res =>
        simp only [Prog.bind]
        cases receive objectKey res with
        | error err => exact .ret _
        | ok object => exact .ret _

/-- What is fetched for a key carries it. -/
theorem retrieveInline_fetches (req : Request) (targetAddr : Addr) (objectKey : Bytes) :
    Fetches (Object.For objectKey) (retrieveInline req targetAddr objectKey) := by
  have herror (err : GoError) (o : Object) : Except.error err ≠ Except.ok o := fun h => by cases h
  refine .op fun dialed => ?_
  cases dialed with
  | error err => exact .ret fun o h => absurd h (herror _ o)
  | ok targetConn =>
    refine .op fun written => ?_
    cases written with
    | some err => exact .ret fun o h => absurd h (herror _ o)
    | none =>
      refine .op fun read => ?_
      cases read with
      | error err => exact .ret fun o h => absurd h (herror _ o)
      | ok res =>
        simp only [Prog.bind]
        cases hreceive : receive objectKey res with
        | error err => exact .ret fun o h => absurd h (herror _ o)
        | ok object =>
          obtain ⟨-, rfl⟩ := receive_eq_ok.1 hreceive
          exact .ret fun o ho => Except.ok.inj ho ▸ ⟨rfl, Option.some_ne_none _⟩

theorem fill_only {Q : Object → Prop} (kind : CacheKind) (hput : ∀ o, Q o → P (.put o))
    (hgoPut : ∀ o, Q o → P (.goPut o)) {obj : Object} (hobj : Q obj) :
    (kind.fill ask obj).Only P := by
  cases kind with
  | bigcache => exact .bind (ask_only (hgoPut obj hobj)) fun _ => .ret _
  | memcached =>
    refine .bind (ask_only (hput obj hobj)) fun stored => ?_
    cases stored <;> exact .ret _

/-- What a cache asks for: its key, what its initializer asks for, and to store what that
returns. -/
theorem CacheKind.get_only {Q : Object → Prop} {key : Bytes} {init : Initializer ProxyM}
    (kind : CacheKind) (hget : P (.get key)) (hput : ∀ o, Q o → P (.put o))
    (hgoPut : ∀ o, Q o → P (.goPut o)) (hinit : init.Only P) (hfetches : Fetches Q init) :
    ((kind.cache ask).Get key (some init)).Only P := by
  simp only [CacheKind.get_eq, CacheKind.initializeKey_eq]
  refine .bind (ask_only hget) fun found => ?_
  cases found with
  | ok o => exact .ret _
  | error _ =>
    refine .bind (ask_only hget) fun found => ?_
    cases found with
    | ok o => exact .ret _
    | error _ =>
      refine .bind_of_returns hinit hfetches fun fetched hQ => ?_
      cases fetched with
      | error err => exact .ret _
      | ok obj => exact fill_only kind hput hgoPut (hQ obj rfl)

end rules

section handlers

variable {adapters : List ObjectStorage} (targetAddr : Addr) (request : Request)

theorem forward_only :
    (forward ask targetAddr request).Only (Asked adapters targetAddr request) := by
  refine .bind (ask_only .dial) fun dialed => ?_
  cases dialed with
  | error _ => exact .bind (ask_only .write) fun _ => .ret _
  | ok targetConn =>
    refine .bind (ask_only (.writeRequest targetConn)) fun _ => ?_
    refine .bind (ask_only (.readResponse targetConn)) fun read => ?_
    cases read with
    | error _ => exact .bind (ask_only .write) fun _ => .ret _
    | ok res => exact .bind (ask_only (.respond res)) fun _ => .ret _

variable (adapters) in
/-- **What is asked for.** -/
theorem handleRequest_only (kind : CacheKind) :
    (handleRequest ask retrieveInline (kind.cache ask) adapters targetAddr request).Only
      (Asked adapters targetAddr request) := by
  have hforward :
      (forward ask targetAddr request >>= fun _ => .ret (Except.ok (ε := Panic) ())).Only
      (Asked adapters targetAddr request) := .bind (forward_only targetAddr request) fun _ => .ret _
  unfold handleRequest
  cases hadapter : shouldIntercept adapters request with
  | none => exact hforward
  | some adapter =>
    have hget := kind.get_only (P := Asked adapters targetAddr request) (.get hadapter)
      (fun o ho => .put hadapter ho) (fun o ho => .goPut hadapter ho)
      (retrieveInline_only .dial .writeRequest .readResponse _)
      (retrieveInline_fetches request targetAddr _)
    refine .bind hget fun got => ?_
    cases got with
    | error _ => exact hforward
    | ok cachedObj =>
      dsimp only
      cases adapter.createLocalResponse cachedObj with
      | error panic => exact .ret _
      | ok result =>
        cases result with
        | error _ => exact hforward
        | ok response =>
          refine .bind (ask_only (.respond response)) fun sent => ?_
          cases sent with
          | some _ => exact hforward
          | none => exact .ret _

/-- Whatever it reads, it ends with the close of the client's connection. -/
theorem handleWith_must_close (cache : Cache ProxyM) (adapters : List ObjectStorage)
    (targetAddr : Addr) :
    (handleWith ask retrieveInline cache adapters targetAddr).Must (· = .close) :=
  .bind _ fun _ => .here rfl

end handlers

end Proxy

end AutomaticCache
