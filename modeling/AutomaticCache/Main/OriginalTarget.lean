import AutomaticCache.Bpf.Hooks
import AutomaticCache.Http.Message

/-!
# The original destination

What `getOriginalTargetFromConn` asks, and what it makes of the answer to `SO_ORIGINAL_DST`. It
reads the `sockaddr_in` byte by byte, in network order. The four conversions on the way there fit
together on a little-endian host; on a big-endian one, `cg_connect4` shifts the port away.
-/

namespace AutomaticCache

open Endian

namespace Main

/-- What the answer is written over. -/
structure SockAddrIn where
  sinFamily : BitVec 16
  sinPort : BitVec 8 × BitVec 8
  sinAddr : BitVec 8 × BitVec 8 × BitVec 8 × BitVec 8
  deriving DecidableEq

namespace SockAddrIn

/-- `var originalDst SockAddrIn`. -/
def zero : SockAddrIn := ⟨0, (0, 0), (0, 0, 0, 0)⟩

/-- A `sockaddr_in` in memory. -/
def ofMemory (bo : ByteOrder) (sa : SockaddrIn) : SockAddrIn :=
  ⟨sa.sinFamily, bytes16 bo sa.sinPort, bytes32 bo sa.sinAddr⟩

/-- `targetAddr` and `targetPort`. -/
def target (originalDst : SockAddrIn) : Addr :=
  ⟨ofBytes32 originalDst.sinAddr, ofBytes16 originalDst.sinPort⟩

end SockAddrIn

/-- What a query of a connection meets. -/
structure Query where
  /-- What `SyscallConn` returns. -/
  syscallConn : Option GoError
  /-- What `getsockopt` returns, and what is then in `originalDst`; or `none`, if `Control` fails
  and does not call its function. -/
  control : Option (Option GoError × SockAddrIn)

/-- `none` is a nil address, and a nil error. The error of `Control` is not looked at, and the one
of `getsockopt` is assigned to `err`, which is not looked at any more. -/
def getOriginalTargetFromConn (q : Query) : Option Addr × Option GoError :=
  match q.syscallConn with
  | some err => (none, some err)
  | none =>
    let originalDst :=
      match q.control with
      | some (_, originalDst) => originalDst
      | none => .zero
    (some originalDst.target, none)

/-! ## Byte orders -/

/-- A port in network order lies in memory with its upper byte first. -/
theorem bytes16_htons (bo : ByteOrder) (x : BitVec 16) :
    bytes16 bo (htons bo x) = bytes16 .big x := by
  cases bo with
  | little => exact bytes16_bswap16 x
  | big => rfl

theorem bytes32_htonl (bo : ByteOrder) (x : BitVec 32) :
    bytes32 bo (htonl bo x) = bytes32 .big x := by
  cases bo with
  | little => exact bytes32_bswap32 x
  | big => rfl

theorem ntohl_htonl (bo : ByteOrder) (x : BitVec 32) : ntohl bo (htonl bo x) = x := by
  cases bo with
  | little => exact bswap32_bswap32 x
  | big => rfl

/-- The proxy decodes the record that the query was answered with. -/
theorem target_answered (bo : ByteOrder) (sock : Socket) (ctx : BpfSockopt) :
    (SockAddrIn.ofMemory bo (answered bo sock ctx).optval).target =
    ⟨sock.dstAddr, sock.dstPort⟩ := by
  unfold SockAddrIn.target SockAddrIn.ofMemory answered
  dsimp only
  rw [bytes16_htons, bytes32_htonl, ofBytes16_bytes16, ofBytes32_bytes32]

section connect

variable (addr : BitVec 32) (port : BitVec 16)

theorem recordOf_ofConnect_dstAddr (bo : ByteOrder) :
    (recordOf bo (.ofConnect bo addr port)).dstAddr = addr := ntohl_htonl bo addr

theorem recordOf_ofConnect_dstPort (bo : ByteOrder) :
    (recordOf bo (.ofConnect bo addr port)).dstPort = port ↔ bo = .little ∨ port = 0 := by
  cases bo with
  | little =>
    rw [recordOf_dstPort_little]
    exact iff_of_true (ntohs_htons .little port) (Or.inl rfl)
  | big =>
    rw [recordOf_dstPort_big, or_iff_right (by decide)]
    exact eq_comm

/-- The client is sent to the proxy's port, where the host swaps its bytes. -/
theorem rewritten_ofConnect (bo : ByteOrder) (conf : Config) :
    rewritten bo conf (.ofConnect bo addr port) = .ofConnect bo loopback conf.proxyPort ↔
      bo = .little ∨ conf.proxyPort = 0 := by
  have hrest (sinPort : BitVec 16) : rewritten bo conf (.ofConnect bo addr port) =
      { BpfSockAddr.ofConnect bo loopback conf.proxyPort with sinPort := sinPort } ↔
        (rewritten bo conf (.ofConnect bo addr port)).sinPort = sinPort :=
    ⟨fun h => by rw [h], fun h => by rw [← h]; rfl⟩
  refine (hrest (htons bo conf.proxyPort)).trans ?_
  cases bo with
  | little =>
    rw [rewritten_sinPort_little]
    exact iff_of_true rfl (Or.inl rfl)
  | big =>
    rw [rewritten_sinPort_big, or_iff_right (by decide)]
    exact eq_comm

end connect

/-- What a client asked for with `connect()`, and the port it connects from, come through the hooks
and the proxy as they were, and the hooks send the client to the proxy's port. -/
structure Survives (bo : ByteOrder) (addr : BitVec 32) (port proxyPort srcPort : BitVec 16) :
    Prop where
  target : ∀ ctx : BpfSockopt, (SockAddrIn.ofMemory bo
    (answered bo (recordOf bo (.ofConnect bo addr port)) ctx).optval).target = ⟨addr, port⟩
  proxy : ∀ conf : Config, conf.proxyPort = proxyPort →
    rewritten bo conf (.ofConnect bo addr port) = .ofConnect bo loopback proxyPort
  /-- The key under which `cg_sock_opt` looks for a connection is the one it was recorded under. -/
  source : ∀ (cap : ℕ) (cookie : Cookie) (socks : MapSocks cap) (ports : MapPorts cap),
    cookie ∈ socks →
    (cgSockOps cookie socks ports (establishedCtx srcPort)).2 =
      ports.put (ntohs bo (htons bo srcPort)) cookie

theorem destination_survives_iff (bo : ByteOrder) (addr : BitVec 32)
    (port proxyPort srcPort : BitVec 16) :
    Survives bo addr port proxyPort srcPort ↔ bo = .little ∨ (port = 0 ∧ proxyPort = 0) := by
  have htarget (ctx : BpfSockopt) : (SockAddrIn.ofMemory bo
      (answered bo (recordOf bo (.ofConnect bo addr port)) ctx).optval).target =
        ⟨addr, port⟩ ↔ bo = .little ∨ port = 0 := by
    rw [target_answered, recordOf_ofConnect_dstAddr, Addr.mk.injEq, recordOf_ofConnect_dstPort]
    exact and_iff_right rfl
  rw [or_and_left]
  constructor
  · intro h
    refine ⟨(htarget ⟨0, 0, 0, 0, 0, 0, 0, ⟨0, 0, 0⟩, 0⟩).1 (h.target _), ?_⟩
    exact (rewritten_ofConnect addr port bo ⟨proxyPort, 0⟩).1 (h.proxy _ rfl)
  · rintro ⟨hport, hproxy⟩
    refine ⟨fun ctx => (htarget ctx).2 hport, fun conf hconf => ?_,
      fun cap cookie socks ports hmem => ?_⟩
    · rw [← hconf] at hproxy ⊢
      exact (rewritten_ofConnect addr port bo conf).2 hproxy
    · rw [ntohs_htons, cgSockOps_established_mem ports srcPort hmem]

/-- A client of a big-endian host that connects to port 9000. -/
theorem destination_lost :
    ¬ ∀ (bo : ByteOrder) (addr : BitVec 32) (port proxyPort srcPort : BitVec 16),
    Survives bo addr port proxyPort srcPort := by
  intro h
  have htarget :=
    (h .big 0x0a000001 9000 18000 40000).target ⟨0, 80, 0, 0, 0, 0, 0, ⟨0, 0, 0⟩, 16⟩
  exact absurd htarget (by decide)

end Main

end AutomaticCache
