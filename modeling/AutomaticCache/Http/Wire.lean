import AutomaticCache.Http.Message
import AutomaticCache.Lib.Decimal
import AutomaticCache.Lib.Target

/-!
# Requests on the wire

What `http.ReadRequest` makes of a request that a client sends, and what `Request.Write` sends of
it. The two are not inverse: `Write` adds a User-Agent where there is none, leaves out a
Content-Length of 0 and turns an absolute URL into a path, among others. `WrittenAsSent` says when
the head of a request without a body comes out as it went in (`sameHead_iff`).

A field is known by its name in canonical form. The order of fields with different names is left
out, as are the trailers of a chunked body and the version, which is always written as HTTP/1.1.
-/

namespace AutomaticCache

open Bytes

/-- `http.Header.Values`. -/
def Header.values (header : Header) (name : Bytes) : List Bytes := (header.lookup name).getD []

/-- `http.Header.Get`. -/
def Header.get (header : Header) (name : Bytes) : Bytes := (header.values name).headD []

/-! ## Tokens -/

/-- Without what is in `spaces` at its ends. -/
def trim (spaces s : Bytes) : Bytes :=
  ((s.dropWhile (· ∈ spaces)).reverse.dropWhile (· ∈ spaces)).reverse

/-- `textproto.TrimString`. -/
def trimString (s : Bytes) : Bytes := trim (ascii " \t\n\r") s

/-- What is written of the value of a field: without line breaks, and trimmed. -/
def cleanValue (v : Bytes) : Bytes :=
  trimString (v.map fun c => if c = byte '\n' ∨ c = byte '\r' then byte ' ' else c)

/-- A byte of a token. -/
def isTokenByte (c : UInt8) : Bool := URL.isAlphanumeric c || c ∈ ascii "!#$%&'*+-.^_`|~"

/-- `httpguts.ValidHeaderFieldName`. -/
def validHeaderFieldName (name : Bytes) : Bool := name ≠ [] && name.all isTokenByte

/-- `httpguts.ValidHostHeader`. -/
def validHostHeader (host : Bytes) : Bool :=
  host.all fun c => URL.isAlphanumeric c || c ∈ ascii "!$%&()*+,-.:;=[]'_~"

/-- An IPv6 address goes without its zone, from the last `%` to the last bracket. -/
def removeZone (host : Bytes) : Bytes :=
  if host.head? ≠ some (byte '[') then host
  else
    match host.reverse.dropWhile (· ≠ byte ']') with
    | [] => host
    | bracket :: address =>
      match address.dropWhile (· ≠ byte '%') with
      | [] => host
      | _ :: start =>
        start.reverse ++ bracket :: (host.reverse.takeWhile (· ≠ byte ']')).reverse

def lower (s : Bytes) : Bytes := s.map URL.toLower

/-- `httpguts.HeaderValuesContainsToken`. -/
def headerValuesContainsToken (values : List Bytes) (token : Bytes) : Bool :=
  values.any fun v => (v.splitOn (byte ',')).any fun part => lower (trim (ascii " \t") part) = token

def isTokenBoundary (c : UInt8) : Bool := c ∈ ascii " ,\t"

/-- The token is somewhere in `v`, between boundaries. -/
def hasToken (v token : Bytes) : Bool :=
  token ≠ [] && (List.range (v.length + 1)).any fun sp =>
    lower ((v.drop sp).take token.length) = token &&
    ((v.take sp).getLast?.all isTokenBoundary) &&
    ((v.drop (sp + token.length)).head?.all isTokenBoundary)

/-! ## Read -/

/-- A request as a client sends it, in version 1.`minor`. A field that is there has a value. -/
structure RequestMessage where
  method : Bytes
  target : Bytes
  minor : ℕ
  fields : Header
  body : Bytes
  fields_ne : ∀ name, fields.lookup name ≠ some []

namespace RequestMessage

/-- The target of a CONNECT request is an authority, unless it is a path. -/
def parseTarget (parseAuthority : Bytes → Option (Option Bytes × Bytes)) (m : RequestMessage) :
    Option URL :=
  if m.method = ascii "CONNECT" ∧ m.target.head? ≠ some (byte '/') then
    (URL.parse parseAuthority (ascii "http://" ++ m.target)).map fun u => { u with scheme := [] }
  else URL.parse parseAuthority m.target

/-- `none` is an error. -/
def chunked (m : RequestMessage) : Option Bool :=
  match m.fields.values (ascii "Transfer-Encoding") with
  | [] => some false
  | values =>
    if m.minor = 0 then some false
    else
      match values with
      | [v] => if lower v = ascii "chunked" then some true else none
      | _ => none

/-- `none` is an error. -/
def contentLength (m : RequestMessage) : Option ℕ :=
  match m.fields.values (ascii "Content-Length") with
  | [] => some 0
  | v :: vs =>
    if vs.all fun v' => trimString v' = trimString v then
      (Decimal.readNat (trimString v)).filter (· < 2 ^ 63)
    else none

def shouldClose (m : RequestMessage) : Bool :=
  let conv := m.fields.values (ascii "Connection")
  let hasClose := headerValuesContainsToken conv (ascii "close")
  if m.minor = 0 then hasClose || !headerValuesContainsToken conv (ascii "keep-alive") else hasClose

def fixPragmaCacheControl (header : Header) : Header :=
  if (header.values (ascii "Pragma")).head? = some (ascii "no-cache") ∧
      ascii "Cache-Control" ∉ header then
    header.insert (ascii "Cache-Control") [ascii "no-cache"]
  else header

/-- Equal lengths are sent as one. -/
def dedupContentLength (header : Header) : Header :=
  match header.values (ascii "Content-Length") with
  | v :: _ :: _ => header.insert (ascii "Content-Length") [trimString v]
  | _ => header

/-- The header that is left when the host and the framing of the body are read. -/
def readHeader (m : RequestMessage) (chunked : Bool) : Header :=
  let header := (fixPragmaCacheControl m.fields).erase (ascii "Transfer-Encoding")
  let header :=
    if chunked then (header.erase (ascii "Content-Length")).erase (ascii "Trailer")
    else dedupContentLength header
  header.erase (ascii "Host")

/-- `http.ReadRequest`. -/
def readRequest (parseAuthority : Bytes → Option (Option Bytes × Bytes)) (m : RequestMessage) :
    Option Request :=
  (m.parseTarget parseAuthority).bind fun url =>
    if 1 < (m.fields.values (ascii "Host")).length then none
    else
      m.chunked.bind fun chunked =>
        (if chunked then some 0 else m.contentLength).map fun _ => {
          method := m.method
          url := url
          host := if url.host ≠ [] then url.host else m.fields.get (ascii "Host")
          header := m.readHeader chunked
          body := m.body
          chunked := chunked
          close := m.shouldClose }

/-- The client sends all of the body that it announces, and no more. -/
def Complete (m : RequestMessage) : Prop :=
  m.chunked = some true ∨ m.contentLength = some m.body.length

end RequestMessage

/-! ## Written -/

/-- The head of a request as it is sent, with the values of each field. -/
structure RequestHead where
  method : Bytes
  target : Bytes
  fields : Bytes → List Bytes

/-- `httpguts.PunycodeHostPort`, of which no more is known here than that it leaves ASCII alone. -/
structure Punycode where
  hostPort : Bytes → Except GoError Bytes
  ascii : ∀ host : Bytes, (∀ c ∈ host, c < 0x80) → hostPort host = .ok host

namespace Request

def defaultUserAgent : Bytes := ascii "Go-http-client/1.1"

/-- One that the client left empty is not sent. -/
def userAgent (req : Request) : List Bytes :=
  let userAgent :=
    if ascii "User-Agent" ∈ req.header then req.header.get (ascii "User-Agent")
    else defaultUserAgent
  if userAgent ≠ [] then [cleanValue userAgent] else []

def shouldSendContentLength (req : Request) : Bool :=
  if req.chunked then false
  else req.body ≠ [] || req.method ∈ [ascii "POST", ascii "PUT", ascii "PATCH"]

/-- A field that is sent as it is. -/
def writeSubset (req : Request) (name : Bytes) : List Bytes :=
  if validHeaderFieldName name then (req.header.values name).map cleanValue else []

def writeFields (req : Request) (host name : Bytes) : List Bytes :=
  if name = ascii "Host" then [host]
  else if name = ascii "User-Agent" then req.userAgent
  else if name = ascii "Content-Length" then
    if req.shouldSendContentLength then [Decimal.printNat req.body.length] else []
  else if name = ascii "Transfer-Encoding" then if req.chunked then [ascii "chunked"] else []
  else if name = ascii "Trailer" then []
  else if name = ascii "Connection" then
    if req.close && !hasToken (req.header.get name) (ascii "close") then
      ascii "close" :: req.writeSubset name
    else req.writeSubset name
  else req.writeSubset name

/-- What is asked for: a CONNECT request without a path asks for a host. -/
def ruri (req : Request) (host : Bytes) : Bytes :=
  if req.method = ascii "CONNECT" ∧ req.url.path = [] then
    if req.url.opaqueData ≠ [] then req.url.opaqueData else host
  else req.url.requestURI

/-- `Request.Write`, up to the body. -/
def writeHead (punycode : Punycode) (req : Request) : Except GoError RequestHead :=
  match punycode.hostPort (if req.host ≠ [] then req.host else req.url.host) with
  | .error err => .error err
  | .ok host =>
    let host := removeZone (if validHostHeader host then host else [])
    if URL.containsCTLByte (req.ruri host) then
      .error (.new "net/http: can't write control character in Request.URL")
    else
      .ok ⟨if req.method ≠ [] then req.method else methodGet, req.ruri host,
        req.writeFields host⟩

end Request

/-! ## Tokens as they are written -/

theorem trim_eq_self {spaces s : Bytes} (h : ∀ c ∈ s, c ∉ spaces) : trim spaces s = s := by
  have hdrop (t : Bytes) (ht : ∀ c ∈ t, c ∉ spaces) : t.dropWhile (· ∈ spaces) = t := by
    cases t with
    | nil => rfl
    | cons c t =>
      exact List.dropWhile_cons_of_neg (by simpa using ht c List.mem_cons_self)
  unfold trim
  rw [hdrop s h, hdrop _ fun c hc => h c (List.mem_reverse.1 hc), List.reverse_reverse]

/-- What a byte of a host is not. -/
theorem hostByte {host : Bytes} (h : validHostHeader host = true) {c : UInt8} (hc : c ∈ host) :
    c < 0x80 ∧ c ∉ ascii " \t\n\r" ∧ ¬(c = byte '\n' ∨ c = byte '\r') := by
  have hbyte : ∀ n : Fin 256, validHostHeader [UInt8.ofFin n] = true →
      UInt8.ofFin n < 0x80 ∧ UInt8.ofFin n ∉ ascii " \t\n\r" ∧
        ¬(UInt8.ofFin n = byte '\n' ∨ UInt8.ofFin n = byte '\r') := by decide +kernel
  refine hbyte c.toFin ?_
  unfold validHostHeader at h ⊢
  rw [List.all_cons, List.all_nil, Bool.and_true]
  exact List.all_eq_true.1 h c hc

theorem cleanValue_of_validHostHeader {host : Bytes} (h : validHostHeader host = true) :
    cleanValue host = host := by
  have hmap : host.map (fun c => if c = byte '\n' ∨ c = byte '\r' then byte ' ' else c) = host :=
    (List.map_congr_left fun c hc => if_neg (hostByte h hc).2.2).trans (List.map_id' host)
  unfold cleanValue
  rw [hmap]
  exact trim_eq_self fun c hc => (hostByte h hc).2.1

theorem mem_removeZone {host : Bytes} {c : UInt8} (h : c ∈ removeZone host) : c ∈ host := by
  unfold removeZone at h
  split_ifs at h with hbracket
  · exact h
  · have hdrop (p : UInt8 → Bool) (s : Bytes) : s.dropWhile p ⊆ s :=
      (List.dropWhile_suffix p).subset
    split at h
    · exact h
    · rename_i bracket address hlast
      have haddress : ∀ b ∈ bracket :: address, b ∈ host := fun b hb =>
        List.mem_reverse.1 (hdrop _ _ (hlast ▸ hb))
      split at h
      · exact h
      · rename_i percent start hzone
        rcases List.mem_append.1 h with hstart | hport
        · have hin : c ∈ percent :: start := List.mem_cons_of_mem _ (List.mem_reverse.1 hstart)
          exact haddress c (List.mem_cons_of_mem _ (hdrop _ _ (hzone ▸ hin)))
        · rcases List.mem_cons.1 hport with rfl | hport
          · exact haddress _ List.mem_cons_self
          · exact List.mem_reverse.1 ((List.takeWhile_prefix _).subset (List.mem_reverse.1 hport))

theorem validHostHeader_removeZone {host : Bytes} (h : validHostHeader host = true) :
    validHostHeader (removeZone host) = true :=
  List.all_eq_true.2 fun c hc => List.all_eq_true.1 h c (mem_removeZone hc)

/-! ## Written as it was read -/

namespace RequestMessage

/-- The field can be sent as it is. -/
def CleanField (m : RequestMessage) (name : Bytes) : Prop :=
  (m.fields.values name ≠ [] → validHeaderFieldName name = true) ∧
    ∀ v ∈ m.fields.values name, cleanValue v = v

/-- The head has the target and the fields that the client sent. -/
structure SameHead (m : RequestMessage) (head : RequestHead) : Prop where
  method : head.method = m.method
  target : head.target = m.target
  fields : ∀ name, head.fields name = m.fields.values name

/-- There is no body and nothing to frame one, and the head needs no change: the target is a path
(or the asterisk) that needs no more escapes; there is one host, which is valid and has no zone;
there is one User-Agent, which is not empty; where the connection is to be closed after the request,
the first Connection field says so; where the first Pragma is `no-cache`, there is a Cache-Control;
and every field has a token for its name and values that need no cleaning. -/
structure WrittenAsSent (m : RequestMessage) : Prop where
  target : URL.Kept m.target
  host : ∃ host, m.fields.values (ascii "Host") = [host] ∧ validHostHeader host = true ∧
    removeZone host = host
  userAgent : ∃ userAgent, m.fields.values (ascii "User-Agent") = [userAgent] ∧ userAgent ≠ []
  contentLength : m.fields.values (ascii "Content-Length") = []
  transferEncoding : m.fields.values (ascii "Transfer-Encoding") = []
  trailer : m.fields.values (ascii "Trailer") = []
  connection : m.shouldClose = true →
    hasToken (m.fields.get (ascii "Connection")) (ascii "close") = true
  cacheControl : (m.fields.values (ascii "Pragma")).head? = some (ascii "no-cache") →
    m.fields.values (ascii "Cache-Control") ≠ []
  clean : ∀ name, m.CleanField name

variable {m : RequestMessage} {req : Request} {head : RequestHead} {punycode : Punycode}
  {parseAuthority : Bytes → Option (Option Bytes × Bytes)}

theorem mem_fields (m : RequestMessage) (name : Bytes) :
    name ∈ m.fields ↔ m.fields.values name ≠ [] := by
  unfold Header.values
  rw [← Finmap.lookup_isSome]
  cases hl : m.fields.lookup name with
  | none => exact iff_of_false nofun (not_not.2 rfl)
  | some vs => exact iff_of_true rfl fun hnil => m.fields_ne name (hl.trans (congrArg some hnil))

/-! ### What is read -/

/-- What is known of the request that is read. -/
structure ReadAs (m : RequestMessage) (req : Request) : Prop where
  method : req.method = m.method
  target : URL.Reads m.target req.url
  host : req.host = if req.url.host ≠ [] then req.url.host else m.fields.get (ascii "Host")
  header : req.header = m.readHeader req.chunked
  body : req.body = m.body
  chunked : m.chunked = some req.chunked
  close : req.close = m.shouldClose

theorem readAs_of_readRequest (h : m.readRequest parseAuthority = some req)
    (hget : m.method = methodGet) : m.ReadAs req := by
  obtain ⟨url, hurl, h⟩ := Option.bind_eq_some_iff.1 h
  unfold parseTarget at hurl
  rw [if_neg fun hh => absurd (hget.symm.trans hh.1) (by decide)] at hurl
  by_cases hhosts : 1 < (m.fields.values (ascii "Host")).length
  · rw [if_pos hhosts] at h
    cases h
  · rw [if_neg hhosts] at h
    obtain ⟨chunked, hchunked, h⟩ := Option.bind_eq_some_iff.1 h
    obtain ⟨n, -, rfl⟩ := Option.map_eq_some_iff.1 h
    exact ⟨rfl, URL.reads_of_parse hurl, rfl, rfl, rfl, hchunked, rfl⟩

theorem readRequest_of_get {url : URL} {length : ℕ} (hget : m.method = methodGet)
    (hurl : URL.parse parseAuthority m.target = some url) (hhost : url.host = [])
    (hhosts : (m.fields.values (ascii "Host")).length ≤ 1) (hchunked : m.chunked = some false)
    (hlength : m.contentLength = some length) : m.readRequest parseAuthority = some
      { method := m.method, url := url, host := m.fields.get (ascii "Host"),
        header := m.readHeader false, body := m.body, close := m.shouldClose } := by
  unfold readRequest parseTarget
  rw [if_neg fun hh => absurd (hget.symm.trans hh.1) (by decide), hurl, Option.bind_some,
    if_neg (Nat.not_lt.2 hhosts), hchunked, Option.bind_some, if_neg Bool.false_ne_true, hlength,
    Option.map_some, hhost, if_neg (not_not.2 rfl)]

theorem lookup_fixPragmaCacheControl (header : Header) {name : Bytes}
    (hname : name ≠ ascii "Cache-Control") :
    (fixPragmaCacheControl header).lookup name = header.lookup name := by
  unfold fixPragmaCacheControl
  split_ifs
  · rw [Finmap.lookup_insert_of_ne _ hname]
  · rfl

theorem values_fixPragmaCacheControl (m : RequestMessage) :
    (fixPragmaCacheControl m.fields).values (ascii "Cache-Control") =
      if (m.fields.values (ascii "Pragma")).head? = some (ascii "no-cache") ∧
          m.fields.values (ascii "Cache-Control") = [] then [ascii "no-cache"]
      else m.fields.values (ascii "Cache-Control") := by
  have hmem : ascii "Cache-Control" ∉ m.fields ↔ m.fields.values (ascii "Cache-Control") = [] :=
    (m.mem_fields _).not.trans not_not
  unfold fixPragmaCacheControl
  simp only [hmem]
  split_ifs
  · unfold Header.values
    rw [Finmap.lookup_insert]
    rfl
  · rfl

/-- The fields that `http.Request` has elsewhere. -/
def framing : List Bytes :=
  [ascii "Host", ascii "Content-Length", ascii "Transfer-Encoding", ascii "Trailer"]

theorem lookup_readHeader (m : RequestMessage) (chunked : Bool) {name : Bytes}
    (hname : name ∉ framing) :
    (m.readHeader chunked).lookup name = (fixPragmaCacheControl m.fields).lookup name := by
  simp only [framing, List.mem_cons, List.not_mem_nil, or_false, not_or] at hname
  obtain ⟨hhost, hlength, htransfer, htrailer⟩ := hname
  have hdedup (header : Header) : (dedupContentLength header).lookup name = header.lookup name := by
    unfold dedupContentLength
    split
    · rw [Finmap.lookup_insert_of_ne _ hlength]
    · rfl
  unfold readHeader
  rw [Finmap.lookup_erase_ne hhost]
  split_ifs
  · rw [Finmap.lookup_erase_ne htrailer, Finmap.lookup_erase_ne hlength,
      Finmap.lookup_erase_ne htransfer]
  · rw [hdedup, Finmap.lookup_erase_ne htransfer]

theorem ReadAs.lookup (h : m.ReadAs req) {name : Bytes} (hname : name ∉ framing)
    (hcache : name ≠ ascii "Cache-Control") : req.header.lookup name = m.fields.lookup name := by
  rw [h.header, lookup_readHeader m _ hname, lookup_fixPragmaCacheControl _ hcache]

theorem ReadAs.values (h : m.ReadAs req) {name : Bytes} (hname : name ∉ framing)
    (hcache : name ≠ ascii "Cache-Control") : req.header.values name = m.fields.values name :=
  congrArg (fun vs => vs.getD []) (h.lookup hname hcache)

theorem ReadAs.hostPort (h : m.ReadAs req) (hkept : URL.Kept m.target) :
    (if req.host ≠ [] then req.host else req.url.host) = m.fields.get (ascii "Host") := by
  have hnil := h.target.host_eq_nil hkept
  have hhost := h.host
  rw [hnil, if_neg (not_not.2 rfl)] at hhost
  rw [hnil, hhost]
  split_ifs with hget
  · rfl
  · exact (not_not.1 hget).symm

/-! ### What is written -/

theorem writeHead_eq (h : req.writeHead punycode = .ok head) (hget : req.method = methodGet) :
    ∃ host, punycode.hostPort (if req.host ≠ [] then req.host else req.url.host) = .ok host ∧
      head = ⟨methodGet, req.url.requestURI,
        req.writeFields (removeZone (if validHostHeader host then host else []))⟩ := by
  have hruri (host : Bytes) : req.ruri host = req.url.requestURI := by
    unfold Request.ruri
    rw [hget, if_neg fun hh => absurd hh.1 (by decide)]
  unfold Request.writeHead at h
  split at h
  · cases h
  · rename_i host hhost
    refine ⟨host, hhost, ?_⟩
    dsimp only at h
    generalize removeZone (if validHostHeader host then host else []) = host at h ⊢
    rw [hruri, if_pos (hget.trans_ne (by decide)), hget] at h
    split_ifs at h
    cases h
    rfl

theorem map_cleanValue_eq_iff (vs : List Bytes) :
    vs.map cleanValue = vs ↔ ∀ v ∈ vs, cleanValue v = v := by
  have hinj := List.map_inj_left (l := vs) (f := cleanValue) (g := fun v => v)
  rwa [List.map_id'] at hinj

theorem writeSubset_eq_iff {name : Bytes} (h : req.header.values name = m.fields.values name) :
    req.writeSubset name = m.fields.values name ↔ m.CleanField name := by
  unfold Request.writeSubset CleanField
  rw [h]
  split_ifs with hname
  · rw [map_cleanValue_eq_iff, and_iff_right fun _ => hname]
  · constructor
    · intro hnil
      rw [← hnil]
      exact ⟨fun hne => absurd rfl hne, nofun⟩
    · rintro ⟨hvalid, -⟩
      by_contra hne
      exact hname (hvalid fun hnil => hne hnil.symm)

/-- The host is written as it was sent, if it is not that of an absolute URL. -/
theorem host_eq_iff {host : Bytes}
    (hhost : punycode.hostPort (m.fields.get (ascii "Host")) = .ok host) :
    [removeZone (if validHostHeader host then host else [])] = m.fields.values (ascii "Host") ↔
      ∃ host, m.fields.values (ascii "Host") = [host] ∧ validHostHeader host = true ∧
        removeZone host = host := by
  have hascii {sent : Bytes} (hvalues : m.fields.values (ascii "Host") = [sent])
      (hvalid : validHostHeader sent = true) : host = sent := by
    unfold Header.get at hhost
    rw [hvalues, List.headD_cons, punycode.ascii _ fun c hc => (hostByte hvalid hc).1] at hhost
    exact (Except.ok.inj hhost).symm
  constructor
  · intro h
    have hvalid :
        validHostHeader (removeZone (if validHostHeader host then host else [])) = true := by
      refine validHostHeader_removeZone ?_
      split_ifs with hv
      · exact hv
      · rfl
    have heq := hascii h.symm hvalid
    refine ⟨_, h.symm, hvalid, ?_⟩
    rw [← heq] at hvalid
    rw [if_pos hvalid] at heq ⊢
    rw [← heq, ← heq]
  · rintro ⟨sent, hvalues, hvalid, hzone⟩
    rw [hascii hvalues hvalid, if_pos hvalid, hzone, hvalues]

theorem ReadAs.userAgent_eq_iff (h : m.ReadAs req) :
    req.userAgent = m.fields.values (ascii "User-Agent") ↔
      (∃ userAgent, m.fields.values (ascii "User-Agent") = [userAgent] ∧ userAgent ≠ []) ∧
        m.CleanField (ascii "User-Agent") := by
  have hmem : ascii "User-Agent" ∈ req.header ↔
      m.fields.values (ascii "User-Agent") ≠ [] := by
    rw [← m.mem_fields, ← Finmap.lookup_isSome, h.lookup (by decide) (by decide),
      Finmap.lookup_isSome]
  unfold Request.userAgent CleanField Header.get
  rw [h.values (by decide) (by decide)]
  dsimp only
  cases hvalues : m.fields.values (ascii "User-Agent") with
  | nil =>
    rw [if_neg fun hin => hmem.1 hin hvalues, if_pos (by decide)]
    refine iff_of_false (List.cons_ne_nil _ _) ?_
    rintro ⟨⟨userAgent, hnil, -⟩, -⟩
    cases hnil
  | cons v vs =>
    rw [if_pos (hmem.2 (by rw [hvalues]; exact List.cons_ne_nil v vs)), List.headD_cons]
    split_ifs with hv
    · constructor
      · intro heq
        obtain ⟨hclean, rfl⟩ := List.cons.inj heq
        exact ⟨⟨v, rfl, hv⟩, fun _ => by decide, List.forall_mem_singleton.2 hclean⟩
      · rintro ⟨⟨w, hw, -⟩, -, hclean⟩
        obtain ⟨rfl, rfl⟩ := List.cons.inj hw
        rw [hclean v List.mem_cons_self]
    · refine iff_of_false not_false ?_
      rintro ⟨⟨w, hw, hne⟩, -⟩
      rw [(List.cons.inj hw).1] at hv
      exact hv hne

theorem ReadAs.cacheControl_eq_iff (h : m.ReadAs req) :
    req.writeSubset (ascii "Cache-Control") = m.fields.values (ascii "Cache-Control") ↔
      ((m.fields.values (ascii "Pragma")).head? = some (ascii "no-cache") →
        m.fields.values (ascii "Cache-Control") ≠ []) ∧
          m.CleanField (ascii "Cache-Control") := by
  have hvalues : req.header.values (ascii "Cache-Control") = _ :=
    (congrArg (fun vs => vs.getD []) (h.header ▸ lookup_readHeader m _ (by decide))).trans
      m.values_fixPragmaCacheControl
  by_cases hadded : (m.fields.values (ascii "Pragma")).head? = some (ascii "no-cache") ∧
      m.fields.values (ascii "Cache-Control") = []
  · rw [if_pos hadded] at hvalues
    refine iff_of_false ?_ fun hh => hh.1 hadded.1 hadded.2
    unfold Request.writeSubset
    rw [hvalues, hadded.2]
    decide
  · rw [if_neg hadded] at hvalues
    rw [writeSubset_eq_iff hvalues, and_iff_right fun hpragma hnil => hadded ⟨hpragma, hnil⟩]

theorem ReadAs.connection_eq_iff (h : m.ReadAs req) (host : Bytes) :
    req.writeFields host (ascii "Connection") = m.fields.values (ascii "Connection") ↔
      (m.shouldClose = true →
        hasToken (m.fields.get (ascii "Connection")) (ascii "close") = true) ∧
          m.CleanField (ascii "Connection") := by
  have hvalues : req.header.values (ascii "Connection") = m.fields.values (ascii "Connection") :=
    h.values (by decide) (by decide)
  have hget : req.header.get (ascii "Connection") = m.fields.get (ascii "Connection") :=
    congrArg (fun vs => vs.headD []) hvalues
  have hwritten : req.writeFields host (ascii "Connection") =
      if m.shouldClose && !hasToken (m.fields.get (ascii "Connection")) (ascii "close") then
        ascii "close" :: req.writeSubset (ascii "Connection")
      else req.writeSubset (ascii "Connection") := by
    rw [← hget, ← h.close]
    rfl
  rw [hwritten]
  split_ifs with hadded
  · rw [Bool.and_eq_true, Bool.not_eq_true'] at hadded
    refine iff_of_false (fun heq => ?_) fun hh => absurd (hh.1 hadded.1) (by rw [hadded.2]; nofun)
    -- one more than the client has sent
    have hlength := congrArg List.length heq
    unfold Request.writeSubset at hlength
    rw [if_pos (by decide), hvalues, List.length_cons, List.length_map] at hlength
    omega
  · rw [writeSubset_eq_iff hvalues, and_iff_right]
    intro hclose
    rw [hclose, Bool.true_and, Bool.not_eq_true', Bool.not_eq_false] at hadded
    exact hadded

/-- Without a body, a GET request is sent without a length. -/
theorem shouldSendContentLength_eq_false (hget : req.method = methodGet) (hno : req.NoBody) :
    req.shouldSendContentLength = false := by
  unfold Request.shouldSendContentLength
  rw [hno.1, hno.2, hget]
  decide

/-- Without a body, nothing frames one. -/
theorem writeFields_framing (hget : req.method = methodGet) (hno : req.NoBody) (host : Bytes)
    {name : Bytes} (hname : name ∈ framing) (hhost : name ≠ ascii "Host") :
    req.writeFields host name = [] := by
  have hlength := shouldSendContentLength_eq_false hget hno
  simp only [framing, List.mem_cons, List.not_mem_nil, or_false] at hname
  obtain rfl | rfl | rfl | rfl := hname
  · exact absurd rfl hhost
  · unfold Request.writeFields
    rw [if_neg (by decide), if_neg (by decide), if_pos rfl, hlength, if_neg Bool.false_ne_true]
  · unfold Request.writeFields
    rw [if_neg (by decide), if_neg (by decide), if_neg (by decide), if_pos rfl, hno.2,
      if_neg Bool.false_ne_true]
  · rfl

theorem ReadAs.writeFields_eq_iff (h : m.ReadAs req) (host : Bytes)
    (huserAgent : ∃ userAgent, m.fields.values (ascii "User-Agent") = [userAgent] ∧
      userAgent ≠ [])
    (hconnection : m.shouldClose = true →
      hasToken (m.fields.get (ascii "Connection")) (ascii "close") = true)
    (hcacheControl : (m.fields.values (ascii "Pragma")).head? = some (ascii "no-cache") →
      m.fields.values (ascii "Cache-Control") ≠ [])
    {name : Bytes} (hname : name ∉ framing) :
    req.writeFields host name = m.fields.values name ↔ m.CleanField name := by
  by_cases huser : name = ascii "User-Agent"
  · rw [huser]
    exact h.userAgent_eq_iff.trans (and_iff_right huserAgent)
  by_cases hconn : name = ascii "Connection"
  · rw [hconn]
    exact (h.connection_eq_iff host).trans (and_iff_right hconnection)
  have hwritten : req.writeFields host name = req.writeSubset name := by
    simp only [framing, List.mem_cons, List.not_mem_nil, or_false, not_or] at hname
    obtain ⟨hhost, hlength, htransfer, htrailer⟩ := hname
    unfold Request.writeFields
    rw [if_neg hhost, if_neg huser, if_neg hlength, if_neg htransfer, if_neg htrailer, if_neg hconn]
  rw [hwritten]
  by_cases hcache : name = ascii "Cache-Control"
  · rw [hcache]
    exact h.cacheControl_eq_iff.trans (and_iff_right hcacheControl)
  · exact writeSubset_eq_iff (h.values hname hcache)

/-- **The head.** Without a body, a GET request is written with the target and the fields that the
client sent exactly if it is `WrittenAsSent`. -/
theorem sameHead_iff (hread : m.readRequest parseAuthority = some req)
    (hget : m.method = methodGet) (hno : req.NoBody) (hwrite : req.writeHead punycode = .ok head) :
    m.SameHead head ↔ m.WrittenAsSent := by
  have h := readAs_of_readRequest hread hget
  have hreqGet := h.method.trans hget
  obtain ⟨host, hhost, rfl⟩ := writeHead_eq hwrite hreqGet
  constructor
  · intro hsame
    have hkept := h.target.requestURI_eq_iff.1 hsame.target
    have hfields (name : Bytes) : req.writeFields
        (removeZone (if validHostHeader host then host else [])) name = m.fields.values name :=
      hsame.fields name
    rw [h.hostPort hkept] at hhost
    have hhosts := (host_eq_iff hhost).1 (hfields (ascii "Host"))
    have huserAgent := (h.userAgent_eq_iff.1 (hfields (ascii "User-Agent"))).1
    have hconnection := ((h.connection_eq_iff _).1 (hfields (ascii "Connection"))).1
    have hcacheControl := (h.cacheControl_eq_iff.1 (hfields (ascii "Cache-Control"))).1
    have hframing {name : Bytes} (hname : name ∈ framing) (hne : name ≠ ascii "Host") :
        m.fields.values name = [] :=
      (hfields name).symm.trans (writeFields_framing hreqGet hno _ hname hne)
    refine ⟨hkept, hhosts, huserAgent, hframing (by decide) (by decide),
      hframing (by decide) (by decide), hframing (by decide) (by decide), hconnection,
      hcacheControl, fun name => ?_⟩
    by_cases hname : name ∈ framing
    · by_cases hne : name = ascii "Host"
      · obtain ⟨sent, hsent, hvalid, -⟩ := hhosts
        unfold CleanField
        rw [hne, hsent]
        exact ⟨fun _ => by decide,
          List.forall_mem_singleton.2 (cleanValue_of_validHostHeader hvalid)⟩
      · unfold CleanField
        rw [hframing hname hne]
        exact ⟨fun hnil => absurd rfl hnil, nofun⟩
    · exact (h.writeFields_eq_iff _ huserAgent hconnection hcacheControl hname).1 (hfields name)
  · intro hsent
    rw [h.hostPort hsent.target] at hhost
    refine ⟨hget.symm, h.target.requestURI_eq_iff.2 hsent.target, fun name => ?_⟩
    by_cases hname : name ∈ framing
    · by_cases hne : name = ascii "Host"
      · rw [hne]
        exact (host_eq_iff hhost).2 hsent.host
      · refine (writeFields_framing hreqGet hno _ hname hne).trans ?_
        simp only [framing, List.mem_cons, List.not_mem_nil, or_false] at hname
        obtain rfl | rfl | rfl | rfl := hname
        · exact absurd rfl hne
        · exact hsent.contentLength.symm
        · exact hsent.transferEncoding.symm
        · exact hsent.trailer.symm
    · exact (h.writeFields_eq_iff _ hsent.userAgent hsent.connection hsent.cacheControl hname).2
        (hsent.clean name)

/-- There is nothing to send after the head. -/
theorem WrittenAsSent.noBody (hsent : m.WrittenAsSent) (hcomplete : m.Complete)
    (h : m.ReadAs req) : req.NoBody := by
  have hchunked : m.chunked = some false := by
    unfold RequestMessage.chunked
    rw [hsent.transferEncoding]
  have hlength : m.contentLength = some 0 := by
    unfold RequestMessage.contentLength
    rw [hsent.contentLength]
  have heq := h.chunked.symm.trans hchunked
  refine ⟨?_, Option.some.inj heq⟩
  rcases hcomplete with hbody | hbody
  · cases hchunked.symm.trans hbody
  · rw [h.body]
    exact List.length_eq_zero_iff.1 (Option.some.inj (hlength.symm.trans hbody)).symm

end RequestMessage

end AutomaticCache
