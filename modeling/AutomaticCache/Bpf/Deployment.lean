import AutomaticCache.Lib.Run
import AutomaticCache.Bpf.Hooks

/-!
# The proxy and the hooks on a host

The system the hooks are part of: `run`'s start-up, which attaches them one after the other, then
listens and writes `map_config` (`main.go`); the client sockets, with the life of every connection
attempt; and the proxy, which queries each accepted connection once. A step runs at most one hook,
atomically.

What is assumed of the kernel is in the guards of `step`: cookies identify sockets, so that an
attempt is made by a cookie; a socket with a live attempt cannot connect again; an attempt is
established before the proxy can accept it; two established connections to the proxy differ in
their source address or port.
-/

namespace AutomaticCache

open Endian

/-- `PROXY_PORT`. -/
def proxyPort : BitVec 16 := 18000

/-- One step of the start-up of `run`. -/
inductive BootStep
  | attachConnect4
  | attachSockOps
  | attachSockOpt
  | listen
  | writeConfig
  deriving DecidableEq, Repr

/-- The start-up of `run`, in its order. -/
def startUp : List BootStep :=
  [.attachConnect4, .attachSockOps, .attachSockOpt, .listen, .writeConfig]

/-- A connection attempt, as its client's kernel sees it: `gone` once it was refused, timed out,
reset, or closed. -/
inductive Tcp
  | pending
  | established
  | gone
  deriving DecidableEq, Repr

/-- What the proxy's side did with a connection: `waiting` to be accepted, `accepted` with its
original destination still to be queried, `queried`, or `dropped` and never to be accepted. -/
inductive ProxyEnd
  | waiting
  | accepted
  | queried
  | dropped
  deriving DecidableEq, Repr

/-- A connection attempt: the socket that made it, the address it passed to `connect()`, the one
`cg_connect4` left in the context, and its source address and port once established. -/
structure Conn where
  cookie : Cookie
  asked : BpfSockAddr
  dest : BpfSockAddr
  srcAddr : BitVec 32
  srcPort : BitVec 16
  tcp : Tcp
  fd : ProxyEnd
  deriving DecidableEq, Repr

namespace Conn

/-- A new attempt. -/
def attempt (cookie : Cookie) (asked dest : BpfSockAddr) : Conn where
  cookie := cookie
  asked := asked
  dest := dest
  srcAddr := 0
  srcPort := 0
  tcp := .pending
  fd := .waiting

/-- The hook rewrote the destination. -/
def Redirected (c : Conn) : Prop := c.dest ≠ c.asked

instance (c : Conn) : Decidable c.Redirected := by unfold Redirected; infer_instance

/-- The attempt goes to the address the proxy listens on. -/
def ToProxy (bo : ByteOrder) (c : Conn) : Prop :=
  c.dest.userIp4 = htonl bo loopback ∧ c.dest.sinPort = htons bo proxyPort

instance (bo : ByteOrder) (c : Conn) : Decidable (c.ToProxy bo) := by
  unfold ToProxy; infer_instance

/-- What `cg_sock_opt` sees when the proxy queries the accepted end (`getOriginalTargetFromConn`):
a buffer of 16 bytes, and `retval`, the kernel's own answer to the option. -/
def queryCtx (bo : ByteOrder) (c : Conn) (retval : ℤ) : BpfSockopt where
  level := solIp
  optname := soOriginalDst
  optlen := sizeofSockaddrIn
  retval := retval
  skFamily := afInet
  skProtocol := ipprotoTcp
  skDstPort := htons bo c.srcPort
  optval := ⟨0, 0, 0⟩
  optvalSize := sizeofSockaddrIn

end Conn

/-- A `getsockopt()` call: the calling process, the connection whose accepted end the socket is, if
it is one, and what the hook sees of the call. -/
structure GetsockoptCall where
  tgid : BitVec 64
  acceptedEnd : Option ℕ
  ctx : BpfSockopt
  deriving DecidableEq, Repr

/-- The state of the host. `todo` is what remains of the start-up. -/
structure Deployment (cap : ℕ) where
  todo : List BootStep
  connect4 : Bool
  sockOps : Bool
  sockOpt : Bool
  listening : Bool
  config : Config
  socks : MapSocks cap
  ports : MapPorts cap
  conns : List Conn

/-- A step and the choices of the environment in it. -/
inductive Act
  /-- The next step of the start-up. -/
  | boot
  /-- A process calls `connect()` on the socket `cookie`. -/
  | connect (cookie : Cookie) (pidTgid : BitVec 64) (ctx : BpfSockAddr)
  /-- Attempt `i` is established from this source address and port. -/
  | establish (i : ℕ) (srcAddr : BitVec 32) (srcPort : BitVec 16)
  /-- Any other socket operation callback. -/
  | sockOps (cookie : Cookie) (ctx : BpfSockOps)
  /-- Attempt `i` fails, or its connection ends. -/
  | close (i : ℕ)
  /-- The proxy accepts connection `i`. -/
  | accept (i : ℕ)
  /-- Connection `i` will never be accepted. -/
  | drop (i : ℕ)
  /-- The proxy queries connection `i`; the kernel's own answer is `retval`. -/
  | query (i : ℕ) (retval : ℤ)
  /-- Any `getsockopt()` call, by any process and on any socket. -/
  | getsockopt (call : GetsockoptCall)
  deriving DecidableEq, Repr

namespace Deployment

variable {cap : ℕ}

/-- Nothing is attached yet and the maps are empty. -/
def initial : Deployment cap where
  todo := startUp
  connect4 := false
  sockOps := false
  sockOpt := false
  listening := false
  config := .zero
  socks := ∅
  ports := ∅
  conns := []

/-- The effect of one start-up step of a proxy with process id `pid`. -/
def perform (pid : BitVec 64) (s : Deployment cap) : BootStep → Deployment cap
  | .attachConnect4 => { s with connect4 := true }
  | .attachSockOps => { s with sockOps := true }
  | .attachSockOpt => { s with sockOpt := true }
  | .listen => { s with listening := true }
  | .writeConfig => { s with config := ⟨proxyPort, pid⟩ }

variable (bo : ByteOrder)

/-- A `connect()` runs `cg_connect4` once it is attached. -/
def connectHook (s : Deployment cap) (pidTgid : BitVec 64) (cookie : Cookie) (ctx : BpfSockAddr) :
    MapSocks cap × BpfSockAddr :=
  if s.connect4 then (cgConnect4 bo s.config pidTgid cookie s.socks ctx).2 else (s.socks, ctx)

/-- A socket operation runs `cg_sock_ops` once it is attached. -/
def sockOpsHook (s : Deployment cap) (cookie : Cookie) (ctx : BpfSockOps) : MapPorts cap :=
  if s.sockOps then (cgSockOps cookie s.socks s.ports ctx).2 else s.ports

/-- A `getsockopt()` runs `cg_sock_opt` once it is attached. -/
def sockOptHook (s : Deployment cap) (ctx : BpfSockopt) :
    MapPorts cap × MapSocks cap × BpfSockopt :=
  if s.sockOpt then (cgSockOpt bo s.ports s.socks ctx).2 else (s.ports, s.socks, ctx)

/-- The maps after a `getsockopt()`. -/
def afterSockOpt (s : Deployment cap) (ctx : BpfSockopt) : Deployment cap :=
  { s with ports := (s.sockOptHook bo ctx).1, socks := (s.sockOptHook bo ctx).2.1 }

/-- The socket has an attempt that is pending or established. -/
def Busy (s : Deployment cap) (cookie : Cookie) : Prop :=
  ∃ c ∈ s.conns, c.cookie = cookie ∧ c.tcp ≠ .gone

instance (s : Deployment cap) (cookie : Cookie) : Decidable (s.Busy cookie) := by
  unfold Busy; infer_instance

/-- May the pending attempt `c` be established from this source? -/
def MayEstablish (s : Deployment cap) (c : Conn) (srcAddr : BitVec 32) (srcPort : BitVec 16) :
    Prop :=
  c.tcp = .pending ∧ c.asked.userFamily = afInet ∧ c.asked.protocol = ipprotoTcp ∧
    (c.ToProxy bo → s.listening = true ∧
      ∀ d ∈ s.conns, d.tcp = .established → d.ToProxy bo →
        (d.srcAddr, d.srcPort) ≠ (srcAddr, srcPort))

instance (s : Deployment cap) (c : Conn) (srcAddr : BitVec 32) (srcPort : BitVec 16) :
    Decidable (s.MayEstablish bo c srcAddr srcPort) := by unfold MayEstablish; infer_instance

/-- Connection `i` becomes `c`. -/
def setConn (s : Deployment cap) (i : ℕ) (c : Conn) : Deployment cap :=
  { s with conns := s.conns.set i c }

def step (pid : BitVec 64) (s : Deployment cap) : Act → Option (Deployment cap)
  | .boot =>
    match s.todo with
    | [] => none
    | b :: rest => some (perform pid { s with todo := rest } b)
  | .connect cookie pidTgid ctx =>
    if s.Busy cookie then none
    else
      let r := s.connectHook bo pidTgid cookie ctx
      some { s with socks := r.1, conns := s.conns ++ [.attempt cookie ctx r.2] }
  | .establish i srcAddr srcPort =>
    s.conns[i]?.bind fun c =>
      if s.MayEstablish bo c srcAddr srcPort then
        some ({ s with ports := s.sockOpsHook c.cookie (establishedCtx srcPort) }.setConn i
          { c with srcAddr := srcAddr, srcPort := srcPort, tcp := .established })
      else none
  | .sockOps cookie ctx =>
    if ctx.op = activeEstablishedCb then none
    else some { s with ports := s.sockOpsHook cookie ctx }
  | .close i =>
    s.conns[i]?.bind fun c =>
      match c.tcp with
      | .pending => some (s.setConn i { c with tcp := .gone, fd := .dropped })
      | .established => some (s.setConn i { c with tcp := .gone })
      | .gone => none
  | .accept i =>
    s.conns[i]?.bind fun c =>
      if s.todo = [] ∧ c.ToProxy bo ∧ c.tcp ≠ .pending ∧ c.fd = .waiting then
        some (s.setConn i { c with fd := .accepted })
      else none
  | .drop i =>
    s.conns[i]?.bind fun c =>
      if c.tcp ≠ .pending ∧ c.fd = .waiting then some (s.setConn i { c with fd := .dropped })
      else none
  | .query i retval =>
    s.conns[i]?.bind fun c =>
      if c.fd = .accepted then
        some ((s.afterSockOpt bo (c.queryCtx bo retval)).setConn i { c with fd := .queried })
      else none
  | .getsockopt call => some (s.afterSockOpt bo call.ctx)

/-- The host with a proxy of process id `pid`, as a labelled system. -/
def system (pid : BitVec 64) (cap : ℕ) : Runs.System (Deployment cap) Act where
  init := initial
  step := step bo pid

/-! ## What a step can do -/

variable {bo} {pid : BitVec 64} {s s' : Deployment cap}

theorem step_boot (h : step bo pid s .boot = some s') :
    ∃ b rest, s.todo = b :: rest ∧ s' = perform pid { s with todo := rest } b := by
  unfold step at h
  cases ht : s.todo with
  | nil => simp [ht] at h
  | cons b rest =>
    simp only [ht, Option.some.injEq] at h
    exact ⟨b, rest, rfl, h.symm⟩

theorem step_connect {cookie : Cookie} {pidTgid : BitVec 64} {ctx : BpfSockAddr}
    (h : step bo pid s (.connect cookie pidTgid ctx) = some s') :
    ¬ s.Busy cookie ∧
      s' = { s with
        socks := (s.connectHook bo pidTgid cookie ctx).1
        conns := s.conns ++ [.attempt cookie ctx (s.connectHook bo pidTgid cookie ctx).2] } := by
  simp only [step] at h
  split_ifs at h with hb
  exact ⟨hb, (Option.some.inj h).symm⟩

theorem step_establish {i : ℕ} {srcAddr : BitVec 32} {srcPort : BitVec 16}
    (h : step bo pid s (.establish i srcAddr srcPort) = some s') :
    ∃ c, s.conns[i]? = some c ∧ s.MayEstablish bo c srcAddr srcPort ∧
      s' = { s with ports := s.sockOpsHook c.cookie (establishedCtx srcPort) }.setConn i
        { c with srcAddr := srcAddr, srcPort := srcPort, tcp := .established } := by
  unfold step at h
  obtain ⟨c, hc, h⟩ := Option.bind_eq_some_iff.1 h
  split_ifs at h with hm
  exact ⟨c, hc, hm, (Option.some.inj h).symm⟩

/-- A callback other than the established one changes nothing. -/
theorem step_sockOps {cookie : Cookie} {ctx : BpfSockOps}
    (h : step bo pid s (.sockOps cookie ctx) = some s') : s' = s := by
  simp only [step] at h
  split_ifs at h with hop
  rw [← Option.some.inj h]
  unfold sockOpsHook
  rw [cgSockOps_of_op_ne hop, ite_self]

theorem step_close {i : ℕ} (h : step bo pid s (.close i) = some s') :
    ∃ c, s.conns[i]? = some c ∧ c.tcp ≠ .gone ∧
      s' = s.setConn i { c with tcp := .gone, fd := if c.tcp =
        .pending then .dropped else c.fd } := by
  unfold step at h
  obtain ⟨c, hc, h⟩ := Option.bind_eq_some_iff.1 h
  refine ⟨c, hc, ?_⟩
  cases ht : c.tcp with
  | pending => rw [ht] at h; exact ⟨by simp, (Option.some.inj h).symm⟩
  | established => rw [ht] at h; exact ⟨by simp, (Option.some.inj h).symm⟩
  | gone => rw [ht] at h; simp at h

theorem step_accept {i : ℕ} (h : step bo pid s (.accept i) = some s') :
    ∃ c, s.conns[i]? = some c ∧
      (s.todo = [] ∧ c.ToProxy bo ∧ c.tcp ≠ .pending ∧ c.fd = .waiting) ∧
      s' = s.setConn i { c with fd := .accepted } := by
  unfold step at h
  obtain ⟨c, hc, h⟩ := Option.bind_eq_some_iff.1 h
  split_ifs at h with hm
  exact ⟨c, hc, hm, (Option.some.inj h).symm⟩

theorem step_drop {i : ℕ} (h : step bo pid s (.drop i) = some s') :
    ∃ c, s.conns[i]? = some c ∧ (c.tcp ≠ .pending ∧ c.fd = .waiting) ∧
      s' = s.setConn i { c with fd := .dropped } := by
  unfold step at h
  obtain ⟨c, hc, h⟩ := Option.bind_eq_some_iff.1 h
  split_ifs at h with hm
  exact ⟨c, hc, hm, (Option.some.inj h).symm⟩

theorem step_query {i : ℕ} {retval : ℤ} (h : step bo pid s (.query i retval) = some s') :
    ∃ c, s.conns[i]? = some c ∧ c.fd = .accepted ∧
      s' = (s.afterSockOpt bo (c.queryCtx bo retval)).setConn i { c with fd := .queried } := by
  unfold step at h
  obtain ⟨c, hc, h⟩ := Option.bind_eq_some_iff.1 h
  split_ifs at h with hm
  exact ⟨c, hc, hm, (Option.some.inj h).symm⟩

/-! ## Connections after a step -/

/-- The connections after connection `i` was set: the new one at `i`, the old ones elsewhere. -/
theorem getElem?_setConn {i j : ℕ} {c d : Conn} (h : (s.setConn i c).conns[j]? = some d) :
    (j = i ∧ d = c) ∨ (j ≠ i ∧ s.conns[j]? = some d) := by
  unfold setConn at h
  rw [List.getElem?_set] at h
  by_cases hij : i = j
  · subst hij
    rw [if_pos rfl] at h
    split_ifs at h with hl
    exact Or.inl ⟨rfl, (Option.some.inj h).symm⟩
  · rw [if_neg hij] at h
    exact Or.inr ⟨fun e => hij e.symm, h⟩

theorem getElem?_setConn_self {i : ℕ} {c : Conn} (d : Conn) (h : s.conns[i]? = some c) :
    (s.setConn i d).conns[i]? = some d := by
  unfold setConn
  rw [List.getElem?_set, if_pos rfl, if_pos (List.getElem?_eq_some_iff.1 h).1]

theorem getElem?_setConn_of_ne {i j : ℕ} (c : Conn) (h : j ≠ i) :
    (s.setConn i c).conns[j]? = s.conns[j]? := by
  unfold setConn
  rw [List.getElem?_set, if_neg fun e => h e.symm]

/-- The connections after one was appended: the new one last, the old ones before. -/
theorem getElem?_append_one {l : List Conn} {j : ℕ} {c d : Conn} (h : (l ++ [c])[j]? = some d) :
    (j = l.length ∧ d = c) ∨ (j < l.length ∧ l[j]? = some d) := by
  rcases Nat.lt_or_ge j l.length with hj | hj
  · rw [List.getElem?_append_left hj] at h
    exact Or.inr ⟨hj, h⟩
  · rw [List.getElem?_append_right hj] at h
    have hlt := (List.getElem?_eq_some_iff.1 h).1
    have hj' : j - l.length = 0 := by rw [List.length_singleton] at hlt; omega
    rw [hj'] at h
    exact Or.inl ⟨by omega, (Option.some.inj h).symm⟩

/-! ## The hooks in a deployment -/

/-- `cg_connect4` is attached and redirects this call. -/
def RedirectsCall (bo : ByteOrder) (s : Deployment cap) (pidTgid : BitVec 64) (ctx : BpfSockAddr) :
    Prop :=
  s.connect4 = true ∧ Redirects bo s.config pidTgid ctx

instance (pidTgid : BitVec 64) (ctx : BpfSockAddr) :
    Decidable (s.RedirectsCall bo pidTgid ctx) := by
  unfold RedirectsCall; infer_instance

theorem connectHook_of_redirects {pidTgid : BitVec 64} {ctx : BpfSockAddr} (cookie : Cookie)
    (h : s.RedirectsCall bo pidTgid ctx) :
    s.connectHook bo pidTgid cookie ctx =
      (s.socks.put cookie (recordOf bo ctx), rewritten bo s.config ctx) := by
  unfold connectHook
  rw [if_pos h.1, cgConnect4_of_redirects cookie s.socks h.2]

theorem connectHook_of_not_redirects {pidTgid : BitVec 64} {ctx : BpfSockAddr} (cookie : Cookie)
    (h : ¬ s.RedirectsCall bo pidTgid ctx) :
    s.connectHook bo pidTgid cookie ctx = (s.socks, ctx) := by
  unfold connectHook
  by_cases hc : s.connect4 = true
  · rw [if_pos hc, cgConnect4_of_not_redirects cookie s.socks fun hr => h ⟨hc, hr⟩]
  · rw [if_neg hc]

/-- `cg_sock_opt` is attached and answers this call. -/
def AnswersCall (bo : ByteOrder) (s : Deployment cap) (ctx : BpfSockopt) : Prop :=
  s.sockOpt = true ∧ Queries ctx ∧ Resolves bo s.ports s.socks ctx

theorem sockOptHook_of_not_answers {ctx : BpfSockopt} (h : ¬ s.AnswersCall bo ctx) :
    s.sockOptHook bo ctx = (s.ports, s.socks, ctx) := by
  unfold sockOptHook
  by_cases hs : s.sockOpt = true
  · rw [if_pos hs, cgSockOpt_of_not_resolves fun hr => h ⟨hs, hr⟩]
  · rw [if_neg hs]

theorem sockOptHook_of_answers {ctx : BpfSockopt} (h : s.AnswersCall bo ctx) :
    ∃ cookie sock, s.ports.lookup (ntohs bo ctx.skDstPort) = some cookie ∧
      s.socks.lookup cookie = some sock ∧
      s.sockOptHook bo ctx =
        (s.ports.delete (ntohs bo ctx.skDstPort), s.socks.delete cookie, answered bo sock ctx) := by
  obtain ⟨hs, hq, ⟨cookie, hport, hmem⟩, hsize⟩ := h
  obtain ⟨sock, hsock⟩ := BoundedMap.mem_iff_exists.1 hmem
  refine ⟨cookie, sock, hport, hsock, ?_⟩
  unfold sockOptHook
  rw [if_pos hs, cgSockOpt_of_resolves hq hport hsock hsize]

/-- A call that is not answered leaves the deployment as it was. -/
theorem afterSockOpt_of_not_answers {ctx : BpfSockopt} (h : ¬ s.AnswersCall bo ctx) :
    s.afterSockOpt bo ctx = s := by
  unfold afterSockOpt
  rw [sockOptHook_of_not_answers h]

/-- An established callback writes the port of a recorded socket, and nothing else. -/
theorem sockOpsHook_established (cookie : Cookie) (port : BitVec 16) :
    s.sockOpsHook cookie (establishedCtx port) =
      if s.sockOps = true ∧ cookie ∈ s.socks then s.ports.put port cookie else s.ports := by
  unfold sockOpsHook
  by_cases hs : s.sockOps = true
  · by_cases hm : cookie ∈ s.socks
    · rw [if_pos hs, if_pos ⟨hs, hm⟩, cgSockOps_established_mem s.ports port hm]
    · rw [if_pos hs, if_neg fun h => hm h.2, cgSockOps_established_notMem s.ports port hm]
  · rw [if_neg hs, if_neg fun h => hs h.1]

end Deployment

end AutomaticCache
