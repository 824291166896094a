import AutomaticCache.Bpf.StartUp

/-!
# Who may read a record

`cg_sock_opt` knows a connection by its peer's port alone. It looks neither at the calling process
nor at the option level, so that any IPv4 TCP socket whose peer has the port of a pending connection
reads that connection's original destination and takes its record away. `confined_iff` says which
calls are harmless.
-/

namespace AutomaticCache

open Endian

namespace Deployment

variable {cap : ℕ} {bo : ByteOrder} {pid : BitVec 64} {s s' : Deployment cap}

/-- The call is the proxy's own, on the accepted end of a redirected connection that it has not
queried yet. -/
def ProxyQuery (s : Deployment cap) (call : GetsockoptCall) : Prop :=
  call.tgid = s.config.proxyPid ∧
    ∃ i ∈ call.acceptedEnd, ∃ c ∈ s.conns[i]?, c.Redirected ∧ c.fd = .accepted

/-- Any other `SO_ORIGINAL_DST` call on an IPv4 TCP socket leaves its result and both maps as they
were. -/
def Confined (bo : ByteOrder) (s : Deployment cap) (call : GetsockoptCall) : Prop :=
  Queries call.ctx → ¬ s.ProxyQuery call →
    s.sockOptHook bo call.ctx = (s.ports, s.socks, call.ctx)

/-- The call is the proxy's, or its peer's port does not resolve to a record, or its buffer is too
small for the answer, or the hook is not attached. -/
def Harmless (bo : ByteOrder) (s : Deployment cap) (call : GetsockoptCall) : Prop :=
  Queries call.ctx → s.ProxyQuery call ∨ s.sockOpt = false ∨
    ¬ Resolves bo s.ports s.socks call.ctx

def ConfinedStep (bo : ByteOrder) (s : Deployment cap) : Act → Prop
  | .getsockopt call => s.Confined bo call
  | _ => True

def HarmlessStep (bo : ByteOrder) (s : Deployment cap) : Act → Prop
  | .getsockopt call => s.Harmless bo call
  | _ => True

/-- A call that is answered changes `map_ports`. -/
theorem sockOptHook_ne_of_answers {ctx : BpfSockopt} (h : s.AnswersCall bo ctx) :
    (s.sockOptHook bo ctx).1 ≠ s.ports := by
  obtain ⟨cookie, sock, hport, -, he⟩ := sockOptHook_of_answers h
  rw [he]
  exact BoundedMap.delete_ne_self (BoundedMap.mem_of_lookup hport)

theorem confined_iff_harmless (call : GetsockoptCall) :
    s.Confined bo call ↔ s.Harmless bo call := by
  constructor
  · intro h hq
    by_cases hp : s.ProxyQuery call
    · exact Or.inl hp
    · refine Or.inr ?_
      by_contra hn
      rw [not_or, Bool.not_eq_false, not_not] at hn
      have hans : s.AnswersCall bo call.ctx := ⟨hn.1, hq, hn.2⟩
      refine sockOptHook_ne_of_answers hans ?_
      rw [h hq hp]
  · intro h hq hp
    refine sockOptHook_of_not_answers fun ha => ?_
    rcases h hq with hp' | hs | hr
    · exact hp hp'
    · exact absurd ha.1 (by rw [hs]; decide)
    · exact hr ha.2.2

/-- **Record confinement.** In every state a run reaches, a call is confined exactly when it is
harmless; so the calls of a run are all confined exactly when they are all harmless. -/
theorem confined_iff (bo : ByteOrder) (pid : BitVec 64) (cap : ℕ) (as : List Act) :
    ((system bo pid cap).Steps (ConfinedStep bo) initial as ↔
      (system bo pid cap).Steps (HarmlessStep bo) initial as) ∧
    ∀ s, (system bo pid cap).run initial as = some s → ∀ call,
      (s.Confined bo call ↔ s.Harmless bo call) := by
  refine ⟨Runs.System.steps_congr (fun s a _ => ?_) Runs.System.Reachable.initial,
    fun s _ call => confined_iff_harmless call⟩
  cases a with
  | getsockopt call => exact confined_iff_harmless call
  | _ => exact Iff.rfl

/-- The start-up, then a client with socket 7 connects to `10.0.0.1:9000` from
`127.0.0.1:40000`. -/
def oneClient (bo : ByteOrder) : List Act :=
  [.boot, .boot, .boot, .boot, .boot, .connect 7 (1000 <<< 32) (.ofConnect bo 0x0a000001 9000),
    .establish 0 loopback 40000]

/-- A call at the TCP level by process 1001, on a socket whose peer has port 40000. -/
def strayCall (bo : ByteOrder) : GetsockoptCall where
  tgid := 1001
  acceptedEnd := none
  ctx := { level := ipprotoTcp, optname := soOriginalDst, optlen := 16, retval := -92,
           skFamily := afInet, skProtocol := ipprotoTcp, skDstPort := htons bo 40000,
           optval := ⟨0, 0, 0⟩, optvalSize := 16 }

/-- That call is told `10.0.0.1:9000`, and both maps are empty afterwards. -/
theorem not_confined :
    ¬ ∀ as s, (system .little 4242 maxConnections).run initial as = some s →
      ∀ call, s.Confined .little call := by
  intro h
  have hrun : ∃ s, (system .little 4242 maxConnections).run initial
      (oneClient .little) = some s ∧
      (s.sockOptHook .little (strayCall .little).ctx).2.2.retval = 0 := ⟨_, rfl, by decide⟩
  obtain ⟨s, hs, hret⟩ := hrun
  have hq : Queries (strayCall .little).ctx := by decide
  have hnp : ¬ s.ProxyQuery (strayCall .little) := by
    rintro ⟨-, i, hi, -⟩
    cases hi
  rw [h _ s hs (strayCall .little) hq hnp] at hret
  exact absurd (show (-92 : ℤ) = 0 from hret) (by decide)

end Deployment

end AutomaticCache
