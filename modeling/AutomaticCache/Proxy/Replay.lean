import AutomaticCache.Http.Wire
import AutomaticCache.Proxy.Asked

/-!
# The fallback's request

A request that was fetched in vain is forwarded. Both write the same `http.Request`, and its body
can be read once: after the first write it is closed, and the second one sends the request without
it. Neither sends the head as the client did, unless it is one that `Request.Write` leaves alone
(`fallback_replays_iff`).
-/

namespace AutomaticCache

namespace Proxy

open Bytes Goroutines

/-! ## Bodies that are read once -/

/-- `Request.Body`, as `http.ReadRequest` makes it: `http.NoBody` of a request without one, and
otherwise a reader on the client's connection. -/
inductive RequestBody
  | noBody
  | unread (data : Bytes)
  | closed
  deriving DecidableEq

/-- `http.ErrBodyReadAfterClose`. -/
def errBodyReadAfterClose : GoError := .new "http: invalid Read on closed Body"

/-- What reading to the end yields. -/
def RequestBody.read : RequestBody → Except GoError Bytes
  | noBody => .ok []
  | unread data => .ok data
  | closed => .error errBodyReadAfterClose

def RequestBody.close : RequestBody → RequestBody
  | noBody => noBody
  | unread _ | closed => closed

/-- The body of a request that has just been read. -/
def openBody (req : Request) : RequestBody := if req.NoBody then .noBody else .unread req.body

theorem read_openBody (req : Request) : (openBody req).read = .ok req.body := by
  unfold openBody
  split_ifs with hno
  · rw [hno.1]
    rfl
  · rfl

theorem openBody_eq_noBody_iff (req : Request) : openBody req = .noBody ↔ req.NoBody := by
  unfold openBody
  split_ifs with hno
  · exact iff_of_true rfl hno
  · refine iff_of_false (fun hunread => ?_) hno
    cases hunread

/-- What `Request.Write` sends: the head, and then what the body yields. If that ends with an error,
the request breaks off. -/
structure Sent where
  targetConn : ℕ
  head : RequestHead
  body : Except GoError Bytes

/-- The client's request, complete. -/
def Sent.Replays (sent : Sent) (m : RequestMessage) : Prop :=
  m.SameHead sent.head ∧ sent.body = .ok m.body

/-- A world `env`, with the body of the request that the client has sent, and what was written of
it. -/
structure Wire (ω : Type) where
  body : RequestBody
  sent : List Sent
  env : ω

/-- `Request.Write` closes the body however it ends, and reads it unless the head cannot be
written. -/
def bodyWorld {ω : Type} (punycode : Punycode) (env : (i : ProxyOp) → ω → i.Ans × ω) :
    (i : ProxyOp) → Wire ω → i.Ans × Wire ω
  | .writeRequest targetConn req, s =>
    match req.writeHead punycode with
    | .error err => (some err, { s with body := s.body.close })
    | .ok head =>
      let (written, next) := env (.writeRequest targetConn req) s.env
      (match s.body.read with
        | .ok _ => written
        | .error err => some err,
        ⟨s.body.close, s.sent ++ [⟨targetConn, head, s.body.read⟩], next⟩)
  | i, s => ((env i s.env).1, { s with env := (env i s.env).2 })

theorem RequestBody.read_close {body : RequestBody} (h : ∃ data, body.read = .ok data) :
    body.close.read = body.read ↔ body = .noBody := by
  obtain ⟨data, h⟩ := h
  cases body with
  | noBody => exact iff_of_true rfl rfl
  | unread data => exact iff_of_false nofun nofun
  | closed => cases h

def IsWrite (i : ProxyOp) : Prop := ∃ targetConn req, i = .writeRequest targetConn req

section world

variable {ω : Type} {punycode : Punycode}
    {env : (i : ProxyOp) → ω → i.Ans × ω} {s : Wire ω}

theorem bodyWorld_of_not_isWrite {i : ProxyOp} (hi : ¬IsWrite i) :
    bodyWorld punycode env i s = ((env i s.env).1, { s with env := (env i s.env).2 }) := by
  cases i with
  | writeRequest targetConn req => exact absurd ⟨targetConn, req, rfl⟩ hi
  | _ => rfl

/-- A head that can be written is sent, with what the body yields. -/
theorem bodyWorld_writeRequest {req : Request} {head : RequestHead}
    (hhead : req.writeHead punycode = .ok head) (targetConn : ℕ) :
    (bodyWorld punycode env (.writeRequest targetConn req) s).2 =
      ⟨s.body.close, s.sent ++ [⟨targetConn, head, s.body.read⟩],
        (env (.writeRequest targetConn req) s.env).2⟩ := by
  unfold bodyWorld
  dsimp only
  rw [hhead]

variable (punycode env)

/-- Without a write, the body stays as it is. -/
theorem exec_of_not_isWrite {α : Type} {p : ProxyM α} (hp : p.Only fun i => ¬IsWrite i) :
    (p.exec (bodyWorld punycode env) s).2.body = s.body ∧
      (p.exec (bodyWorld punycode env) s).2.sent = s.sent := by
  induction hp generalizing s with
  | ret a => exact ⟨rfl, rfl⟩
  | @op i next hi _ ih =>
    rw [Prog.exec_op, bodyWorld_of_not_isWrite hi]
    exact ih _

/-- One write at most, of this request, and the body is closed after it. -/
theorem exec_of_atMostOnce {α : Type} {p : ProxyM α} {adapters : List ObjectStorage}
    {targetAddr : Addr} {request : Request} (hp : p.AtMostOnce IsWrite)
    (honly : p.Only (Asked adapters targetAddr request)) :
    (p.exec (bodyWorld punycode env) s).2.sent = s.sent ∨
      ∃ targetConn head, request.writeHead punycode = .ok head ∧
        (p.exec (bodyWorld punycode env) s).2.sent =
          s.sent ++ [⟨targetConn, head, s.body.read⟩] ∧
        (p.exec (bodyWorld punycode env) s).2.body = s.body.close := by
  induction hp generalizing s with
  | never hp => exact Or.inl (exec_of_not_isWrite punycode env hp).2
  | @later i next hi _ ih =>
    cases honly with
    | op _ honly =>
      rw [Prog.exec_op, bodyWorld_of_not_isWrite hi]
      exact ih _ (honly _)
  | @once i next hi hnext =>
    obtain ⟨targetConn, req, rfl⟩ := hi
    cases honly with
    | op hasked honly =>
      cases hasked with
      | writeRequest =>
        obtain ⟨hbody, hsent⟩ := exec_of_not_isWrite punycode env
          (s := (bodyWorld punycode env (.writeRequest targetConn request) s).2)
          (hnext (bodyWorld punycode env (.writeRequest targetConn request) s).1)
        rw [Prog.exec_op]
        cases hhead : request.writeHead punycode with
        | error err =>
          refine Or.inl (hsent.trans ?_)
          unfold bodyWorld
          dsimp only
          rw [hhead]
        | ok head =>
          have hwritten : (bodyWorld punycode env (.writeRequest targetConn request) s).2 = _ :=
            bodyWorld_writeRequest hhead targetConn
          exact Or.inr ⟨targetConn, head, rfl, hsent.trans (congrArg Wire.sent hwritten),
            hbody.trans (congrArg Wire.body hwritten)⟩

end world

/-! ## How often it is written -/

theorem retrieveInline_atMostOnce (req : Request) (targetAddr : Addr) (objectKey : Bytes) :
    (retrieveInline req targetAddr objectKey).AtMostOnce IsWrite := by
  refine .later nofun fun dialed => ?_
  cases dialed with
  | error err => exact .never (.ret _)
  | ok targetConn =>
    refine .once ⟨targetConn, req, rfl⟩ fun written => ?_
    cases written with
    | some err => exact .ret _
    | none =>
      refine .op nofun fun read => ?_
      cases read with
      | error err => exact .ret _
      | ok res =>
        simp only [Prog.bind]
        cases receive objectKey res with
        | error err => exact .ret _
        | ok object => exact .ret _

theorem get_atMostOnce (kind : CacheKind) (key : Bytes) {init : Initializer ProxyM}
    (hinit : init.AtMostOnce IsWrite) :
    ((kind.cache ask).Get key (some init)).AtMostOnce IsWrite := by
  have hlookup : (ask (.get key)).Only fun i => ¬IsWrite i := ask_only nofun
  have hfill (obj : Object) : (kind.fill ask obj).Only fun i => ¬IsWrite i :=
    fill_only kind (Q := fun _ => True) (fun _ _ => nofun) (fun _ _ => nofun) trivial
  simp only [CacheKind.get_eq, CacheKind.initializeKey_eq]
  refine .after hlookup fun found => ?_
  cases found with
  | ok o => exact .never (.ret _)
  | error _ =>
    refine .after hlookup fun found => ?_
    cases found with
    | ok o => exact .never (.ret _)
    | error _ =>
      refine .bind hinit fun fetched => ?_
      cases fetched with
      | error err => exact .ret _
      | ok obj => exact hfill obj

/-! ## The fallback -/

section fallback

variable {ω : Type} (punycode : Punycode)
  (parseAuthority : Bytes → Option (Option Bytes × Bytes))
  (env : (i : ProxyOp) → ω → i.Ans × ω) (kind : CacheKind) (adapters : List ObjectStorage)
  (targetAddr : Addr) (m : RequestMessage) (request : Request) (w : ω)

/-- The wire once the request is read. -/
def Wire.read : Wire ω := ⟨openBody request, [], (env .readRequest w).2⟩

/-- What `Cache.Get` does with the request, and what it leaves behind. -/
def getThrough (adapter : ObjectStorage) : Except GoError Object × Wire ω :=
  ((kind.cache ask).Get (adapter.extractObjectKey request)
    (some (retrieveInline request targetAddr (adapter.extractObjectKey request)))).exec
      (bodyWorld punycode env) (Wire.read env request w)

/-- The client's GET request `m` is read and intercepted; `Cache.Get` fails after it was written to
the origin; and `forward` reaches the origin. -/
structure FallsBack : Prop where
  get : m.method = methodGet
  complete : m.Complete
  sent : m.readRequest parseAuthority = some request
  read : (env .readRequest w).1 = .ok request
  fails : ∃ adapter, shouldIntercept adapters request = some adapter ∧
    (∃ err, (getThrough punycode env kind targetAddr request w adapter).1 = .error err) ∧
    (getThrough punycode env kind targetAddr request w adapter).2.sent ≠ [] ∧
    ∃ targetConn, (env (.dial targetAddr)
      (getThrough punycode env kind targetAddr request w adapter).2.env).1 = .ok targetConn

variable {punycode parseAuthority env kind adapters targetAddr m request w}

theorem forward_sent {s : Wire ω} {targetConn : ℕ} {head : RequestHead}
    (hhead : request.writeHead punycode = .ok head)
    (hdial : (env (.dial targetAddr) s.env).1 = .ok targetConn) :
    ((forward ask targetAddr request).exec (bodyWorld punycode env) s).2.sent =
      s.sent ++ [⟨targetConn, head, s.body.read⟩] := by
  have hdialed : (ask (.dial targetAddr)).exec (bodyWorld punycode env) s =
      (.ok targetConn, { s with env := (env (.dial targetAddr) s.env).2 }) := Prod.ext hdial rfl
  have hwritten (s : Wire ω) :
      ((ask (.writeRequest targetConn request)).exec (bodyWorld punycode env) s).2 = _ :=
    bodyWorld_writeRequest hhead targetConn
  unfold forward
  rw [Prog.exec_bind, hdialed]
  dsimp only
  rw [Prog.exec_bind]
  refine (exec_of_not_isWrite punycode env (.bind
    (ask_only (i := .readResponse targetConn request) nofun) fun read => ?_)).2.trans ?_
  · cases read with
    | error _ => exact .bind (ask_only (i := .write serviceUnavailable) nofun) fun _ => .ret _
    | ok res => exact .bind (ask_only (i := .respond res) nofun) fun _ => .ret _
  · rw [hwritten]

variable (h : FallsBack punycode parseAuthority env kind adapters targetAddr m request w)

include h in
theorem FallsBack.exec_sent : ∃ first second head, request.writeHead punycode = .ok head ∧
    ((handleInline kind adapters targetAddr).exec (bodyWorld punycode env)
      ⟨openBody request, [], w⟩).2.sent =
      [⟨first, head, (openBody request).read⟩,
        ⟨second, head, (openBody request).close.read⟩] := by
  obtain ⟨adapter, hadapter, ⟨err, herr⟩, hsent, second, hdial⟩ := h.fails
  have honly := kind.get_only (P := Asked adapters targetAddr request) (.get hadapter)
    (fun o ho => .put hadapter ho) (fun o ho => .goPut hadapter ho)
    (retrieveInline_only .dial .writeRequest .readResponse _)
    (retrieveInline_fetches request targetAddr _)
  have hget := exec_of_atMostOnce punycode env (s := Wire.read env request w)
    (get_atMostOnce kind _ (retrieveInline_atMostOnce request targetAddr _)) honly
  obtain hget | ⟨first, head, hhead, hget, hclosed⟩ := hget
  · exact absurd hget hsent
  refine ⟨first, second, head, hhead, ?_⟩
  have hread : (bodyWorld punycode env .readRequest ⟨openBody request, [], w⟩).1 =
      .ok request :=
    h.read
  unfold handleInline
  rw [handleWith_exec _ adapters targetAddr _ hread, exec_deferClose]
  rw [bodyWorld_of_not_isWrite (i := .close) nofun]
  unfold handleRequest
  rw [hadapter]
  dsimp only
  rw [Prog.exec_bind]
  have hfails : ((kind.cache ask).Get (adapter.extractObjectKey request) (some (retrieveInline
      request targetAddr (adapter.extractObjectKey request)))).exec (bodyWorld punycode env)
        (bodyWorld punycode env .readRequest ⟨openBody request, [], w⟩).2 =
      (.error err, (getThrough punycode env kind targetAddr request w adapter).2) :=
    Prod.ext herr rfl
  rw [hfails]
  dsimp only
  rw [Prog.exec_bind]
  have hget : (getThrough punycode env kind targetAddr request w adapter).2.sent =
      [⟨first, head, (openBody request).read⟩] := hget
  have hclosed : (getThrough punycode env kind targetAddr request w adapter).2.body =
      (openBody request).close := hclosed
  refine (forward_sent hhead hdial).trans ?_
  rw [hget, hclosed]
  rfl

include h in
theorem FallsBack.completes :
    let internal := Goroutines.system (bodyWorld punycode env) Retrieval.goroutine
      (handleHttpInternal kind adapters targetAddr) ⟨openBody request, [], w⟩
    internal.Completes internal.init fun t => ∃ first second head,
      request.writeHead punycode = .ok head ∧ t.world.sent =
        [⟨first, head, (openBody request).read⟩,
          ⟨second, head, (openBody request).close.read⟩] := by
  have hcompletes := BehavesAs.completes (h := bodyWorld punycode env)
    (handleWith_behavesAs (get_behavesAs kind) adapters targetAddr) ⟨openBody request, [], w⟩
  refine hcompletes.mono fun t ht => ?_
  rw [ht.2.2]
  exact h.exec_sent

include h in
/-- What is written after a first write is the client's request exactly if nothing of it is lost. -/
theorem FallsBack.replays_iff {head : RequestHead} (hhead : request.writeHead punycode = .ok head)
    (second : ℕ) :
    Sent.Replays ⟨second, head, (openBody request).close.read⟩ m ↔ m.WrittenAsSent := by
  have hread := RequestMessage.readAs_of_readRequest h.sent h.get
  have hbody : (openBody request).close.read = .ok m.body ↔ request.NoBody := by
    rw [← hread.body, ← read_openBody, ← openBody_eq_noBody_iff]
    exact RequestBody.read_close ⟨_, read_openBody request⟩
  constructor
  · rintro ⟨hsame, hsent⟩
    exact (RequestMessage.sameHead_iff h.sent h.get (hbody.1 hsent) hhead).1 hsame
  · intro hsent
    have hno := hsent.noBody h.complete hread
    exact ⟨(RequestMessage.sameHead_iff h.sent h.get hno hhead).2 hsent, hbody.2 hno⟩

end fallback

/-- **The fallback.** In every schedule, a request that was fetched in vain is written a second
time, and it is the client's request exactly if that has no body and a head that is written as it
was sent. -/
theorem fallback_replays_iff {ω : Type} (punycode : Punycode)
    (parseAuthority : Bytes → Option (Option Bytes × Bytes))
    (env : (i : ProxyOp) → ω → i.Ans × ω) (kind : CacheKind) (adapters : List ObjectStorage)
    (targetAddr : Addr) (m : RequestMessage) (request : Request) (w : ω)
    (h : FallsBack punycode parseAuthority env kind adapters targetAddr m request w) :
    let internal := Goroutines.system (bodyWorld punycode env) Retrieval.goroutine
      (handleHttpInternal kind adapters targetAddr) ⟨openBody request, [], w⟩
    internal.Completes internal.init fun t => ∃ first second, t.world.sent = [first, second] ∧
      (second.Replays m ↔ m.WrittenAsSent) := by
  refine h.completes.mono fun t ⟨first, second, head, hhead, hsent⟩ => ⟨_, _, hsent, ?_⟩
  exact h.replays_iff hhead second

/-! ## A request with a body, and one without -/

/-- ASCII is all there is. -/
def asIs : Punycode := ⟨.ok, fun _ _ => rfl⟩

/-- `GET /bucket/object`, with one more field than its host. -/
def getMessage (name value body : Bytes) : RequestMessage where
  method := methodGet
  target := ascii "/bucket/object"
  minor := 1
  fields := ((∅ : Header).insert (ascii "Host") [getObject.host]).insert name [value]
  body := body
  fields_ne name' := by
    by_cases hname : name' = name
    · rw [hname, Finmap.lookup_insert]
      nofun
    rw [Finmap.lookup_insert_of_ne _ hname]
    by_cases hhost : name' = ascii "Host"
    · rw [hhost, Finmap.lookup_insert]
      nofun
    rw [Finmap.lookup_insert_of_ne _ hhost, Finmap.lookup_empty]
    nofun

def withBody : RequestMessage := getMessage (ascii "Content-Length") (ascii "1") (ascii "x")

def withUserAgent : RequestMessage := getMessage (ascii "User-Agent") (ascii "curl/8.5.0") []

/-- What is read of it. -/
def getRead (m : RequestMessage) : Request :=
  { getObject with header := m.readHeader false, body := m.body, close := m.shouldClose }

theorem readRequest_withBody : withBody.readRequest (fun _ => none) = some (getRead withBody) :=
  have hlength : withBody.contentLength = some 1 := by decide +kernel
  RequestMessage.readRequest_of_get rfl (by decide +kernel) rfl (by decide +kernel)
    (by decide +kernel) hlength

theorem readRequest_withUserAgent :
    withUserAgent.readRequest (fun _ => none) = some (getRead withUserAgent) :=
  have hlength : withUserAgent.contentLength = some 0 := by decide +kernel
  RequestMessage.readRequest_of_get rfl (by decide +kernel) rfl (by decide +kernel)
    (by decide +kernel) hlength

theorem writtenAsSent_withUserAgent : withUserAgent.WrittenAsSent where
  target := by decide +kernel
  host := ⟨getObject.host, by decide +kernel, by decide +kernel, by decide +kernel⟩
  userAgent := ⟨ascii "curl/8.5.0", by decide +kernel, by decide +kernel⟩
  contentLength := by decide +kernel
  transferEncoding := by decide +kernel
  trailer := by decide +kernel
  connection := by decide +kernel
  cacheControl := by decide +kernel
  clean name := by
    by_cases huser : name = ascii "User-Agent"
    · rw [huser]
      exact ⟨fun _ => by decide +kernel, by decide +kernel⟩
    by_cases hhost : name = ascii "Host"
    · rw [hhost]
      exact ⟨fun _ => by decide +kernel, by decide +kernel⟩
    have hnone : withUserAgent.fields.values name = [] := by
      unfold Header.values withUserAgent getMessage
      rw [Finmap.lookup_insert_of_ne _ huser, Finmap.lookup_insert_of_ne _ hhost,
        Finmap.lookup_empty]
      rfl
    unfold RequestMessage.CleanField
    rw [hnone]
    exact ⟨fun hne => absurd rfl hne, nofun⟩

/-- The origin does not have the object. -/
def notFoundWorld (request : Request) : (i : ProxyOp) → Unit → i.Ans × Unit
  | .readRequest, w => (.ok request, w)
  | .readResponse _ _, w =>
    (.ok { okResponse [] with status := ascii "404 Not Found", statusCode := 404 }, w)
  | i, w => missWorld i w

theorem fallsBack_getRead {m : RequestMessage} (hget : m.method = methodGet)
    (hcomplete : m.Complete) (hsent : m.readRequest (fun _ => none) = some (getRead m)) :
    FallsBack asIs (fun _ => none) (notFoundWorld (getRead m)) .bigcache
      [MinioObjectStorageAdapter.toObjectStorage ⟨getObject.host⟩] ⟨0x0a000001, 9000⟩ m
      (getRead m) () where
  get := hget
  complete := hcomplete
  sent := hsent
  read := rfl
  fails := by
    have hopen := read_openBody (getRead m)
    unfold getThrough Wire.read
    cases hbody : openBody (getRead m) with
    | noBody | unread data => exact ⟨_, rfl, ⟨_, rfl⟩, List.cons_ne_nil _ _, 3, rfl⟩
    | closed =>
      rw [hbody] at hopen
      cases hopen

theorem fallsBack_withBody : FallsBack asIs (fun _ => none) (notFoundWorld (getRead withBody))
    .bigcache [MinioObjectStorageAdapter.toObjectStorage ⟨getObject.host⟩]
      ⟨0x0a000001, 9000⟩
    withBody (getRead withBody) () :=
  fallsBack_getRead rfl (Or.inr (by decide +kernel)) readRequest_withBody

/-- The one with a body is not replayed; the one without is, as it has a User-Agent. -/
theorem fallback_getWithBody :
    let internal (m : RequestMessage) := Goroutines.system
      (bodyWorld asIs (notFoundWorld (getRead m))) Retrieval.goroutine
      (handleHttpInternal .bigcache
        [MinioObjectStorageAdapter.toObjectStorage ⟨getObject.host⟩] ⟨0x0a000001, 9000⟩)
      ⟨openBody (getRead m), [], ()⟩
    ((internal withBody).Completes (internal withBody).init fun t => ∃ first second,
      t.world.sent = [first, second] ∧ (second.Replays withBody ↔ withBody.WrittenAsSent)) ∧
    (internal withUserAgent).Completes (internal withUserAgent).init fun t => ∃ first second,
      t.world.sent = [first, second] ∧ second.Replays withUserAgent := by
  refine ⟨fallback_replays_iff _ _ _ _ _ _ _ _ () fallsBack_withBody, ?_⟩
  have hreplays := fallback_replays_iff _ _ _ _ _ _ _ _ ()
    (fallsBack_getRead rfl (Or.inr (by decide +kernel)) readRequest_withUserAgent)
  exact hreplays.mono fun t ⟨first, second, hsent, hiff⟩ =>
    ⟨first, second, hsent, hiff.2 writtenAsSent_withUserAgent⟩

/-- The second request breaks off after its head. -/
theorem fallback_loses_body : ¬ ∀ (ω : Type) (punycode : Punycode)
    (parseAuthority : Bytes → Option (Option Bytes × Bytes))
    (env : (i : ProxyOp) → ω → i.Ans × ω) (kind : CacheKind) (adapters : List ObjectStorage)
    (targetAddr : Addr) (m : RequestMessage) (request : Request) (w : ω),
    FallsBack punycode parseAuthority env kind adapters targetAddr m request w →
      let internal := Goroutines.system (bodyWorld punycode env) Retrieval.goroutine
        (handleHttpInternal kind adapters targetAddr) ⟨openBody request, [], w⟩
      internal.Completes internal.init fun t => ∃ first second, t.world.sent = [first, second] ∧
        second.Replays m := by
  intro h
  have hcompletes := (h _ _ _ _ _ _ _ _ _ _ fallsBack_withBody).and fallsBack_withBody.completes
  obtain ⟨_, t, -, ⟨first, second, hsent, hreplays⟩, c, c', head, -, hsent'⟩ :=
    hcompletes.exists_end
  rw [hsent, List.cons.injEq, List.cons.injEq] at hsent'
  obtain rfl := hsent'.2.1
  cases hreplays.2

end Proxy

end AutomaticCache
