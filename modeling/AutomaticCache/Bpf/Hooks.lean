import AutomaticCache.Lib.ByteOrder
import AutomaticCache.Lib.BoundedMap

/-!
# The hooks of `proxy.c`

The three programs attached to the cgroup and the maps they share, each run as one atomic step:

* `cgConnect4` (connect4): redirect a client's `connect()` on port 9000 to the proxy and record
  where it wanted to go in `map_socks`, under the socket's cookie.
* `cgSockOps` (sockops): once the connection is established, record its source port in
  `map_ports`.
* `cgSockOpt` (getsockopt): answer `SO_ORIGINAL_DST` from the two maps and drop both entries.

Every program is parametric in the byte order: `go:generate` builds an object for each. The
conversions of `bpf-utils.h` are `ntohs`, `htons`, `ntohl` and `htonl`. What a helper returns that
depends on the caller (`bpf_get_current_pid_tgid`, `bpf_get_socket_cookie`) is an argument, and a
program's return value is the first component of its result. `bpf_printk` is left out.
-/

namespace AutomaticCache

open Endian

/-! ## `bpf-utils.h` -/

def ntohs : ByteOrder → BitVec 16 → BitVec 16
  | .little, x => bswap16 x
  | .big, x => x

def htons : ByteOrder → BitVec 16 → BitVec 16
  | .little, x => bswap16 x
  | .big, x => x

def ntohl : ByteOrder → BitVec 32 → BitVec 32
  | .little, x => bswap32 x
  | .big, x => x

def htonl : ByteOrder → BitVec 32 → BitVec 32
  | .little, x => bswap32 x
  | .big, x => x

@[simp] theorem ntohs_htons (bo : ByteOrder) (x : BitVec 16) : ntohs bo (htons bo x) = x := by
  cases bo <;> simp [ntohs, htons]

@[simp] theorem htons_ntohs (bo : ByteOrder) (x : BitVec 16) : htons bo (ntohs bo x) = x := by
  cases bo <;> simp [ntohs, htons]

@[simp] theorem htonl_ntohl (bo : ByteOrder) (x : BitVec 32) : htonl bo (ntohl bo x) = x := by
  cases bo <;> simp [ntohl, htonl]

theorem htons_injective (bo : ByteOrder) : Function.Injective (htons bo) :=
  Function.LeftInverse.injective (ntohs_htons bo)

/-! ## Constants -/

def afInet : BitVec 32 := 2
def ipprotoTcp : BitVec 32 := 6
def solIp : BitVec 32 := 0
def soOriginalDst : BitVec 32 := 80

/-- `BPF_SOCK_OPS_ACTIVE_ESTABLISHED_CB`. -/
def activeEstablishedCb : BitVec 32 := 4

def maxConnections : ℕ := 100000

instance : NeZero maxConnections := ⟨by decide⟩

/-- `127.0.0.1`, where the proxy listens. -/
def loopback : BitVec 32 := 0x7f000001

/-- The port of the requests to redirect. -/
def minioPort : BitVec 16 := 9000

/-! ## Maps -/

structure Config where
  proxyPort : BitVec 16
  proxyPid : BitVec 64
  deriving DecidableEq, Repr

/-- What an array map holds before its first update. -/
def Config.zero : Config := ⟨0, 0⟩

structure Socket where
  srcAddr : BitVec 32
  srcPort : BitVec 16
  dstAddr : BitVec 32
  dstPort : BitVec 16
  deriving DecidableEq, Repr

abbrev Cookie := BitVec 64

/-- `map_socks`: from a socket's cookie to where it wanted to go. -/
abbrev MapSocks (cap : ℕ) := BoundedMap Cookie Socket cap

/-- `map_ports`: from a source port to the cookie of the socket that connected from it. -/
abbrev MapPorts (cap : ℕ) := BoundedMap (BitVec 16) Cookie cap

/-- `map_config`, an array of one element: the lookup of index 0 always finds one. -/
def lookupConfig (mapConfig : Config) (key : BitVec 32) : Option Config :=
  if key = 0 then some mapConfig else none

/-! ## `cg_connect4` -/

/-- `struct bpf_sock_addr`. The kernel keeps the port of the sockaddr, 16 bits in network order. -/
structure BpfSockAddr where
  userFamily : BitVec 32
  userIp4 : BitVec 32
  sinPort : BitVec 16
  protocol : BitVec 32
  deriving DecidableEq, Repr

namespace BpfSockAddr

/-- The 32-bit field `user_port` reads the port zero-extended. -/
def userPort (ctx : BpfSockAddr) : BitVec 32 := ctx.sinPort.setWidth 32

/-- A write to `user_port` keeps its low 16 bits. -/
def setUserPort (ctx : BpfSockAddr) (v : BitVec 32) : BpfSockAddr :=
  { ctx with sinPort := v.setWidth 16 }

/-- What the hook sees of `connect()` on an IPv4 TCP socket with this address and port. -/
def ofConnect (bo : ByteOrder) (addr : BitVec 32) (port : BitVec 16) : BpfSockAddr :=
  { userFamily := afInet, userIp4 := htonl bo addr, sinPort := htons bo port,
    protocol := ipprotoTcp }

end BpfSockAddr

variable (bo : ByteOrder) {cap : ℕ}

/-- Where the client asked to go, as `cg_connect4` records it: host order. -/
def recordOf (ctx : BpfSockAddr) : Socket where
  srcAddr := 0
  srcPort := 0
  dstAddr := ntohl bo ctx.userIp4
  dstPort := (ntohl bo ctx.userPort >>> 16).setWidth 16

/-- The context that sends the client to the proxy. -/
def rewritten (conf : Config) (ctx : BpfSockAddr) : BpfSockAddr :=
  { ctx with userIp4 := htonl bo loopback }.setUserPort
    (htonl bo (conf.proxyPort.setWidth 32 <<< 16))

/-- Only IPv4 TCP connections to `minioPort` are redirected, and not the proxy's own. What
`bpf_map_update_elem` returns is not looked at. -/
def cgConnect4 (mapConfig : Config) (pidTgid : BitVec 64) (cookie : Cookie) (socks : MapSocks cap)
    (ctx : BpfSockAddr) : ℤ × MapSocks cap × BpfSockAddr :=
  if ctx.userFamily ≠ afInet then (1, socks, ctx)
  else if ctx.protocol ≠ ipprotoTcp then (1, socks, ctx)
  else if ctx.userPort ≠ (htons bo minioPort).setWidth 32 then (1, socks, ctx)
  else match lookupConfig mapConfig 0 with
    | none => (1, socks, ctx)
    | some conf =>
      if pidTgid >>> 32 = conf.proxyPid then (1, socks, ctx)
      else (1, socks.put cookie (recordOf bo ctx), rewritten bo conf ctx)

/-- The tests that `cg_connect4` makes before it redirects. -/
def Redirects (conf : Config) (pidTgid : BitVec 64) (ctx : BpfSockAddr) : Prop :=
  ctx.userFamily = afInet ∧ ctx.protocol = ipprotoTcp ∧ ctx.sinPort = htons bo minioPort ∧
    pidTgid >>> 32 ≠ conf.proxyPid

instance (conf : Config) (pidTgid : BitVec 64) (ctx : BpfSockAddr) :
    Decidable (Redirects bo conf pidTgid ctx) := by unfold Redirects; infer_instance

variable {bo}

theorem setWidth_inj {x y : BitVec 16} : x.setWidth 32 = y.setWidth 32 ↔ x = y := by
  constructor
  · intro h
    have := congrArg (BitVec.setWidth 16) h
    simpa using this
  · exact fun h => h ▸ rfl

/-- A redirected call is recorded, if the map admits it, and rewritten in any case. -/
theorem cgConnect4_of_redirects {conf : Config} {pidTgid : BitVec 64} {ctx : BpfSockAddr}
    (cookie : Cookie) (socks : MapSocks cap) (h : Redirects bo conf pidTgid ctx) :
    cgConnect4 bo conf pidTgid cookie socks ctx =
      (1, socks.put cookie (recordOf bo ctx), rewritten bo conf ctx) := by
  obtain ⟨hf, hp, hport, hpid⟩ := h
  unfold cgConnect4 BpfSockAddr.userPort
  rw [if_neg (not_not.2 hf), if_neg (not_not.2 hp), if_neg (not_not.2 (setWidth_inj.2 hport))]
  simp only [lookupConfig, if_true, if_neg hpid]

/-- Any other call is left alone. -/
theorem cgConnect4_of_not_redirects {conf : Config} {pidTgid : BitVec 64} {ctx : BpfSockAddr}
    (cookie : Cookie) (socks : MapSocks cap) (h : ¬ Redirects bo conf pidTgid ctx) :
    cgConnect4 bo conf pidTgid cookie socks ctx = (1, socks, ctx) := by
  unfold cgConnect4 BpfSockAddr.userPort
  split_ifs with hf hp hport
  · rfl
  · rfl
  · rfl
  · have hpid : pidTgid >>> 32 = conf.proxyPid := by
      by_contra hne
      exact h ⟨not_not.1 hf, not_not.1 hp, setWidth_inj.1 (not_not.1 hport), hne⟩
    simp only [lookupConfig, if_true, if_pos hpid]

/-! ### Addresses in the two byte orders -/

/-- On a little-endian host the port shifted into the upper half comes out in network order. -/
theorem rewritten_sinPort_little (conf : Config) (ctx : BpfSockAddr) :
    (rewritten .little conf ctx).sinPort = htons .little conf.proxyPort :=
  bswap32_shiftLeft conf.proxyPort

/-- On a big-endian host the shift moves the port out of the 16 bits that are kept. -/
theorem rewritten_sinPort_big (conf : Config) (ctx : BpfSockAddr) :
    (rewritten .big conf ctx).sinPort = 0 := by
  show (conf.proxyPort.setWidth 32 <<< 16).setWidth 16 = 0
  ext i hi
  simp only [BitVec.getElem_setWidth, BitVec.getLsbD_shiftLeft]
  grind

theorem recordOf_dstPort_little (ctx : BpfSockAddr) :
    (recordOf .little ctx).dstPort = ntohs .little ctx.sinPort :=
  bswap32_shiftRight ctx.sinPort

/-- On a big-endian host the recorded port is 0 whatever the client asked for. -/
theorem recordOf_dstPort_big (ctx : BpfSockAddr) : (recordOf .big ctx).dstPort = 0 := by
  show (ctx.sinPort.setWidth 32 >>> 16).setWidth 16 = 0
  ext i hi
  simp only [BitVec.getElem_setWidth, BitVec.getLsbD_ushiftRight, BitVec.getLsbD_setWidth]
  grind

/-! ## `cg_sock_ops` -/

/-- `struct bpf_sock_ops`; `localPort` is in host order. -/
structure BpfSockOps where
  family : BitVec 32
  op : BitVec 32
  localPort : BitVec 32
  deriving DecidableEq, Repr

/-- Records the source port of an active IPv4 socket with an established connection, if
`map_socks` knows its cookie. -/
def cgSockOps (cookie : Cookie) (socks : MapSocks cap) (ports : MapPorts cap) (ctx : BpfSockOps) :
    ℤ × MapPorts cap :=
  if ctx.family ≠ afInet then (0, ports)
  else if ctx.op = activeEstablishedCb then
    match socks.lookup cookie with
    | some _ => (0, ports.put (ctx.localPort.setWidth 16) cookie)
    | none => (0, ports)
  else (0, ports)

/-- What the kernel passes when an IPv4 connection from `port` is established. -/
def establishedCtx (port : BitVec 16) : BpfSockOps where
  family := afInet
  op := activeEstablishedCb
  localPort := port.setWidth 32

/-- Any callback but the established one changes nothing. -/
theorem cgSockOps_of_op_ne {cookie : Cookie} {socks : MapSocks cap} {ports : MapPorts cap}
    {ctx : BpfSockOps} (h : ctx.op ≠ activeEstablishedCb) :
    cgSockOps cookie socks ports ctx = (0, ports) := by
  unfold cgSockOps; rw [if_neg h, ite_self]

theorem cgSockOps_established_mem {cookie : Cookie} {socks : MapSocks cap} (ports : MapPorts cap)
    (port : BitVec 16) (h : cookie ∈ socks) :
    cgSockOps cookie socks ports (establishedCtx port) = (0, ports.put port cookie) := by
  obtain ⟨sock, hs⟩ := BoundedMap.mem_iff_exists.1 h
  unfold cgSockOps establishedCtx
  rw [if_neg (by simp), if_pos rfl, hs]
  simp

theorem cgSockOps_established_notMem {cookie : Cookie} {socks : MapSocks cap}
    (ports : MapPorts cap) (port : BitVec 16) (h : cookie ∉ socks) :
    cgSockOps cookie socks ports (establishedCtx port) = (0, ports) := by
  have hn : socks.lookup cookie = none := not_not.1 h
  unfold cgSockOps establishedCtx
  rw [if_neg (by simp), if_pos rfl, hn]

/-! ## `cg_sock_opt` -/

/-- `struct sockaddr_in`, without its padding; port and address in network order. -/
structure SockaddrIn where
  sinFamily : BitVec 16
  sinPort : BitVec 16
  sinAddr : BitVec 32
  deriving DecidableEq, Repr

/-- `sizeof(struct sockaddr_in)`. -/
def sizeofSockaddrIn : ℕ := 16

/-- `struct bpf_sockopt` with the fields of `sk` it is read through. `optvalSize` is
`optval_end - optval`, and `optval` is what the first 16 bytes of the buffer hold. -/
structure BpfSockopt where
  level : BitVec 32
  optname : BitVec 32
  optlen : ℕ
  retval : ℤ
  skFamily : BitVec 32
  skProtocol : BitVec 32
  skDstPort : BitVec 16
  optval : SockaddrIn
  optvalSize : ℕ
  deriving DecidableEq, Repr

variable (bo)

/-- The context of a query that is answered with the record `sock`. -/
def answered (sock : Socket) (ctx : BpfSockopt) : BpfSockopt :=
  { ctx with
    optlen := sizeofSockaddrIn
    optval := { sinFamily := ctx.skFamily.setWidth 16, sinPort := htons bo sock.dstPort,
                sinAddr := htonl bo sock.dstAddr }
    retval := 0 }

/-- Answers `SO_ORIGINAL_DST` on an IPv4 TCP socket whose peer's port has a record. The peer of the
proxy's accepted socket is the client, so that its port is the client's source port. -/
def cgSockOpt (ports : MapPorts cap) (socks : MapSocks cap) (ctx : BpfSockopt) :
    ℤ × MapPorts cap × MapSocks cap × BpfSockopt :=
  if ctx.optname ≠ soOriginalDst then (1, ports, socks, ctx)
  else if ctx.skFamily ≠ afInet then (1, ports, socks, ctx)
  else if ctx.skProtocol ≠ ipprotoTcp then (1, ports, socks, ctx)
  else
    let srcPort := ntohs bo ctx.skDstPort
    match ports.lookup srcPort with
    | none => (1, ports, socks, ctx)
    | some cookie =>
      match socks.lookup cookie with
      | none => (1, ports, socks, ctx)
      | some sock =>
        if ctx.optvalSize < sizeofSockaddrIn then (1, ports, socks, ctx)
        else (1, ports.delete srcPort, socks.delete cookie, answered bo sock ctx)

/-- The tests on the caller's socket and option that `cg_sock_opt` makes first. -/
def Queries (ctx : BpfSockopt) : Prop :=
  ctx.optname = soOriginalDst ∧ ctx.skFamily = afInet ∧ ctx.skProtocol = ipprotoTcp

instance (ctx : BpfSockopt) : Decidable (Queries ctx) := by unfold Queries; infer_instance

/-- The peer's port resolves to a cookie with a record, and the answer fits the caller's buffer. -/
def Resolves (ports : MapPorts cap) (socks : MapSocks cap) (ctx : BpfSockopt) : Prop :=
  (∃ cookie, ports.lookup (ntohs bo ctx.skDstPort) = some cookie ∧ cookie ∈ socks) ∧
    sizeofSockaddrIn ≤ ctx.optvalSize

variable {bo}

/-- A query whose port resolves is answered from the record and takes both entries away. -/
theorem cgSockOpt_of_resolves {ports : MapPorts cap} {socks : MapSocks cap} {ctx : BpfSockopt}
    {cookie : Cookie} {sock : Socket} (hq : Queries ctx)
    (hport : ports.lookup (ntohs bo ctx.skDstPort) = some cookie)
    (hsock : socks.lookup cookie = some sock) (hsize : sizeofSockaddrIn ≤ ctx.optvalSize) :
    cgSockOpt bo ports socks ctx =
      (1, ports.delete (ntohs bo ctx.skDstPort), socks.delete cookie, answered bo sock ctx) := by
  obtain ⟨hn, hf, hp⟩ := hq
  unfold cgSockOpt
  rw [if_neg (not_not.2 hn), if_neg (not_not.2 hf), if_neg (not_not.2 hp)]
  simp only [hport, hsock, if_neg (Nat.not_lt.2 hsize)]

/-- Any other call is left alone. -/
theorem cgSockOpt_of_not_resolves {ports : MapPorts cap} {socks : MapSocks cap} {ctx : BpfSockopt}
    (h : ¬ (Queries ctx ∧ Resolves bo ports socks ctx)) :
    cgSockOpt bo ports socks ctx = (1, ports, socks, ctx) := by
  unfold cgSockOpt
  by_cases hn : ctx.optname ≠ soOriginalDst
  · rw [if_pos hn]
  by_cases hf : ctx.skFamily ≠ afInet
  · rw [if_neg hn, if_pos hf]
  by_cases hp : ctx.skProtocol ≠ ipprotoTcp
  · rw [if_neg hn, if_neg hf, if_pos hp]
  rw [if_neg hn, if_neg hf, if_neg hp]
  have hq : Queries ctx := ⟨not_not.1 hn, not_not.1 hf, not_not.1 hp⟩
  dsimp only
  split
  · rfl
  · rename_i cookie hport
    split
    · rfl
    · rename_i sock hsock
      rw [if_pos]
      by_contra hsize
      exact h ⟨hq, ⟨cookie, hport, BoundedMap.mem_of_lookup hsock⟩, Nat.not_lt.1 hsize⟩

end AutomaticCache
