import AutomaticCache.Lib.Run
import AutomaticCache.Lib.SlotMap
import AutomaticCache.Bpf.Hooks

/-!
# The hooks, one helper call at a time

The programs of `proxy.c` run concurrently, and only their calls of map helpers are atomic. Here an
invocation is what it has done so far (`pc`) and advances by one `bpf_map_*` call, with the plain
code that follows it; reading a record through its reference is a step of its own. A lookup keeps
the slot it found, so that `*cookie` and `*sock` are read again at each use.

The slot of an inserted element is the kernel's choice, and an update may also fail: both are in the
label of the step. `ρ` is the type of the slots.
-/

namespace AutomaticCache

open Endian

/-- The maps of `proxy.c`, with their value slots. -/
structure Maps (ρ : Type) where
  config : Config
  ports : SlotMap (BitVec 16) Cookie ρ
  socks : SlotMap Cookie Socket ρ

/-! ## Invocations -/

inductive Connect4Pc
  | start
  /-- The call is to be redirected: next, store its record. -/
  | redirect
  | done
  deriving DecidableEq, Repr

structure Connect4Call where
  pidTgid : BitVec 64
  cookie : Cookie
  ctx : BpfSockAddr
  pc : Connect4Pc
  deriving DecidableEq, Repr

inductive SockOpsPc
  | start
  /-- The socket has a record: next, store its port. -/
  | known
  | done
  deriving DecidableEq, Repr

structure SockOpsCall where
  cookie : Cookie
  ctx : BpfSockOps
  pc : SockOpsPc
  deriving DecidableEq, Repr

inductive SockOptPc (ρ : Type)
  | start
  /-- The port was found; `cookie` is the slot of its element. -/
  | port (cookie : ρ)
  /-- The record was found too, in the slot `sock`. -/
  | sock (cookie sock : ρ)
  /-- The answer is written: next, delete the port. -/
  | answered (cookie : ρ)
  /-- Next, delete the record. -/
  | portDeleted (cookie : ρ)
  | done
  deriving DecidableEq, Repr

/-- `arg` is the context of the call, `ctx` what became of it. `cookie` is a ghost: what the slot of
the port's element held when the port was looked up. -/
structure SockOptCall (ρ : Type) where
  arg : BpfSockopt
  ctx : BpfSockopt
  cookie : Cookie
  pc : SockOptPc ρ
  deriving DecidableEq, Repr

inductive Invocation (ρ : Type)
  | connect4 (call : Connect4Call)
  | sockOps (call : SockOpsCall)
  | sockOpt (call : SockOptCall ρ)
  deriving DecidableEq, Repr

variable {ρ : Type}

/-- The slot through which the invocation will still read its cookie. -/
def SockOptPc.ref : SockOptPc ρ → Option ρ
  | .start => none
  | .port r => some r
  | .sock r _ => some r
  | .answered r => some r
  | .portDeleted r => some r
  | .done => none

/-- The port was found and is still to be deleted. -/
def SockOptPc.HasPort : SockOptPc ρ → Prop
  | .port _ | .sock _ _ | .answered _ => True
  | .start | .portDeleted _ | .done => False

/-- Nothing has been answered on the way to here. -/
def SockOptPc.Unanswered : SockOptPc ρ → Prop
  | .start | .port _ | .sock _ _ => True
  | .answered _ | .portDeleted _ | .done => False

/-- The next helper call deletes the port. -/
def SockOptPc.DeletesPort : SockOptPc ρ → Prop
  | .answered _ => True
  | _ => False

/-- The next helper call deletes the record. -/
def SockOptPc.DeletesSock : SockOptPc ρ → Prop
  | .portDeleted _ => True
  | _ => False

instance : DecidablePred (SockOptPc.HasPort (ρ := ρ))
  | .port _ | .sock _ _ | .answered _ => isTrue trivial
  | .start | .portDeleted _ | .done => isFalse not_false

namespace Maps

variable [DecidableEq ρ]

/-- `bpf_map_update_elem` on `map_socks`: it fails, or puts the element in a slot that no other
occupies. -/
def putSock (m : Maps ρ) (k : Cookie) (v : Socket) : Option ρ → Option (Maps ρ)
  | none => some m
  | some r => if h : m.socks.Available k r then some
      { m with socks := m.socks.update k v r h } else none

/-- `bpf_map_update_elem` on `map_ports`. -/
def putPort (m : Maps ρ) (p : BitVec 16) (k : Cookie) : Option ρ → Option (Maps ρ)
  | none => some m
  | some r => if h : m.ports.Available p r then some
      { m with ports := m.ports.update p k r h } else none

end Maps

variable (bo : ByteOrder)

/-- One step of `cg_connect4`. What the update returns is not looked at; the configuration is read
through its reference again for the port. -/
def Connect4Call.next [DecidableEq ρ] (m : Maps ρ) (slot : Option ρ) (c : Connect4Call) :
    Option (Maps ρ × Connect4Call) :=
  match c.pc with
  | .start =>
    if c.ctx.userFamily ≠ afInet then some (m, { c with pc := .done })
    else if c.ctx.protocol ≠ ipprotoTcp then some (m, { c with pc := .done })
    else if c.ctx.userPort ≠ (htons bo minioPort).setWidth 32 then some
      (m, { c with pc := .done })
    else match lookupConfig m.config 0 with
      | none => some (m, { c with pc := .done })
      | some conf =>
        if c.pidTgid >>> 32 = conf.proxyPid then some (m, { c with pc := .done })
        else some (m, { c with pc := .redirect })
  | .redirect => (m.putSock c.cookie (recordOf bo c.ctx) slot).map fun m' =>
      (m', { c with ctx := rewritten bo m'.config c.ctx, pc := .done })
  | .done => none

/-- The port `cg_sock_ops` records. -/
def SockOpsCall.srcPort (c : SockOpsCall) : BitVec 16 := c.ctx.localPort.setWidth 16

/-- One step of `cg_sock_ops`. -/
def SockOpsCall.next [DecidableEq ρ] (m : Maps ρ) (slot : Option ρ) (c : SockOpsCall) :
    Option (Maps ρ × SockOpsCall) :=
  match c.pc with
  | .start =>
    if c.ctx.family ≠ afInet then some (m, { c with pc := .done })
    else if c.ctx.op = activeEstablishedCb then
      match m.socks.index c.cookie with
      | some _ => some (m, { c with pc := .known })
      | none => some (m, { c with pc := .done })
    else some (m, { c with pc := .done })
  | .known => (m.putPort c.srcPort c.cookie slot).map fun m' => (m', { c with pc := .done })
  | .done => none

/-- The port `cg_sock_opt` looks up and deletes. -/
def SockOptCall.srcPort (c : SockOptCall ρ) : BitVec 16 := ntohs bo c.arg.skDstPort

/-- One step of `cg_sock_opt`. The key of the last delete is read through the slot of the element
that the delete before it has released. -/
def SockOptCall.next (m : Maps ρ) (c : SockOptCall ρ) : Option (Maps ρ × SockOptCall ρ) :=
  match c.pc with
  | .start =>
    if c.ctx.optname ≠ soOriginalDst then some (m, { c with pc := .done })
    else if c.ctx.skFamily ≠ afInet then some (m, { c with pc := .done })
    else if c.ctx.skProtocol ≠ ipprotoTcp then some (m, { c with pc := .done })
    else match m.ports.index (c.srcPort bo) with
      | none => some (m, { c with pc := .done })
      | some cookie => some (m, { c with cookie := m.ports.load cookie, pc := .port cookie })
  | .port cookie =>
    match m.socks.index (m.ports.load cookie) with
    | none => some (m, { c with pc := .done })
    | some sock =>
      if c.ctx.optvalSize < sizeofSockaddrIn then some (m, { c with pc := .done })
      else some (m, { c with pc := .sock cookie sock })
  | .sock cookie sock =>
    some (m, { c with ctx := answered bo (m.socks.load sock) c.ctx, pc := .answered cookie })
  | .answered cookie =>
    some ({ m with ports := m.ports.delete (c.srcPort bo) }, { c with pc := .portDeleted cookie })
  | .portDeleted cookie =>
    some ({ m with socks := m.socks.delete (m.ports.load cookie) }, { c with pc := .done })
  | .done => none

/-- One step of an invocation. -/
def Invocation.next [DecidableEq ρ] (m : Maps ρ) (slot : Option ρ) :
    Invocation ρ → Option (Maps ρ × Invocation ρ)
  | .connect4 c => (c.next bo m slot).map fun r => (r.1, .connect4 r.2)
  | .sockOps c => (c.next m slot).map fun r => (r.1, .sockOps r.2)
  | .sockOpt c => (c.next bo m).map fun r => (r.1, .sockOpt r.2)

/-! ## The system -/

/-- The maps, and every invocation so far. -/
structure Kernel (ρ : Type) where
  maps : Maps ρ
  calls : List (Invocation ρ)

/-- A step and the choices of the environment in it. -/
inductive KernelAct (ρ : Type)
  /-- The loader writes `map_config`. -/
  | configure (conf : Config)
  | connect4 (pidTgid : BitVec 64) (cookie : Cookie) (ctx : BpfSockAddr)
  | sockOps (cookie : Cookie) (ctx : BpfSockOps)
  | sockOpt (ctx : BpfSockopt)
  /-- Invocation `i` makes its next helper call; `slot` is where an update puts its element. -/
  | advance (i : ℕ) (slot : Option ρ)

namespace Kernel

/-- No element in any map and no invocation. -/
def initial : Kernel ρ where
  maps := { config := .zero, ports := .empty 0, socks := .empty ⟨0, 0, 0, 0⟩ }
  calls := []

/-- A hook is invoked. -/
def invoke (s : Kernel ρ) (inv : Invocation ρ) : Kernel ρ := { s with calls := s.calls ++ [inv] }

def step [DecidableEq ρ] (s : Kernel ρ) : KernelAct ρ → Option (Kernel ρ)
  | .configure conf => some { s with maps := { s.maps with config := conf } }
  | .connect4 pidTgid cookie ctx => some (s.invoke (.connect4 ⟨pidTgid, cookie, ctx, .start⟩))
  | .sockOps cookie ctx => some (s.invoke (.sockOps ⟨cookie, ctx, .start⟩))
  | .sockOpt ctx => some (s.invoke (.sockOpt ⟨ctx, ctx, 0, .start⟩))
  | .advance i slot => s.calls[i]?.bind fun inv => (inv.next bo s.maps slot).map fun r =>
      { maps := r.1, calls := s.calls.set i r.2 }

/-- The concurrently running hooks, as a labelled system. -/
def system (ρ : Type) [DecidableEq ρ] : Runs.System (Kernel ρ) (KernelAct ρ) where
  init := initial
  step := step bo

end Kernel

end AutomaticCache
