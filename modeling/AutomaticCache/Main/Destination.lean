import AutomaticCache.Main.Forward
import AutomaticCache.Main.OriginalTarget
import AutomaticCache.Proxy.Asked

/-!
# Connections without a destination

The two handlers of a connection, from the query of its destination on. When the query is answered
they dial what the answer says and nothing else, and do not return before they have closed the
connection. Any other outcome goes wrong: `getOriginalTargetFromConn` returns an address that nobody
wrote, or `handleConnectionTimed` leaves the connection open.
-/

namespace AutomaticCache

namespace Main

open Runs Proxy Goroutines Clock

/-- The address that the system call wrote, if it was made and succeeded. -/
def Query.answer (q : Query) : Option Addr :=
  match q.syscallConn, q.control with
  | none, some (none, originalDst) => some originalDst.target
  | _, _ => none

/-- What becomes of a connection after the query. A nil address is `none`. -/
inductive Handling
  | handleHttp (targetAddr : Option Addr)
  | handleHttpTimed (targetAddr : Option Addr)
  | forwardConnection (targetAddr : Option Addr)
  /-- The handler returns. -/
  | done

/-- An error is only logged. -/
def Query.handleConnection (q : Query) (bypassHttpHandler : Bool) : Handling :=
  let (targetAddr, _) := getOriginalTargetFromConn q
  if !bypassHttpHandler then .handleHttp targetAddr else .forwardConnection targetAddr

def Query.handleConnectionTimed (q : Query) (bypassHttpHandler : Bool) : Handling :=
  match getOriginalTargetFromConn q with
  | (_, some _) => .done
  | (targetAddr, none) =>
    if !bypassHttpHandler then .handleHttpTimed targetAddr else .forwardConnection targetAddr

/-! ## With an address or without -/

def isDial : ProxyOp → Bool
  | .dial _ => true
  | _ => false

/-- `targetAddr.String()` with a nil address: the deferred close is run, and the process ends. -/
def panics {m : Type → Type} [Monad m] (perform : (i : ProxyOp) → m i.Ans) (α : Type) :
    m (Except Panic α) := do
  perform .close
  return .error .nilDereference

section http

variable {ω χ : Type} (h : (i : ProxyOp) → ω → i.Ans × ω) (tick : χ → ℤ × χ)
    (kind : CacheKind)
  (adapters : List ObjectStorage)

/-- `HandleHttp` of `HttpCachingProxy`, and what it asks of its world. Where its goroutine panics,
the handler goes on waiting for it. -/
def http (w : ω) : Option Addr → System
    (Goroutines.State ProxyOp Chan Retrieval Chan.Val ProxyOp.Ans (Except Panic Unit)
      (ω × List (Σ i : ProxyOp, i.Ans))) Goroutines.Act
  | some targetAddr => Goroutines.system (Prog.recording h) Retrieval.goroutine
      (handleHttpInternal kind adapters targetAddr) (w, [])
  | none =>
    -- no address is looked at before a dial
    let stop : Comm ProxyOp Chan Retrieval Chan.Val → Bool
      | .op i => isDial i
      | _ => false
    Goroutines.system (Prog.recording h) (fun r => r.goroutine.cut stop (.ret ()))
      ((handleHttpInternal kind adapters ⟨0, 0⟩).cut stop (panics perform Unit)) (w, [])

/-- `HandleHttp` of `HttpCachingTimedProxy`. -/
def httpTimed : Option Addr → TimedProxyM (Except Panic ProxyStatsEntry)
  | some targetAddr => handleHttpTimed askTimed now kind adapters targetAddr
  | none =>
    let stop : Timed ProxyOp → Bool
      | .op i => isDial i
      | .now => false
    (handleHttpTimed askTimed now kind adapters ⟨0, 0⟩).cut stop
      (panics askTimed ProxyStatsEntry)

end http

/-- A call of `forwardConnection`, what it has dialed, and whether it has closed the client's
connection. -/
structure Bypass where
  forward : Forward
  dialed : List Addr
  closed : Bool

/-- The deferred close is run wherever it returns. Nothing comes after a panic. -/
def Bypass.step (targetAddr : Option Addr) (s : Bypass) (a : ForwardAct) : Option Bypass := do
  let z ← s.forward.step a
  let closed := s.closed || z.main = .returned
  match a with
  | .dial _ => do
    let targetAddr ← targetAddr
    return ⟨z, s.dialed ++ [targetAddr], closed⟩
  | _ => return ⟨z, s.dialed, closed⟩

def bypassCall (targetAddr : Option Addr) : System Bypass ForwardAct where
  init := ⟨⟨.dial, .absent⟩, [], false⟩
  step := Bypass.step targetAddr

/-- No address was dialed but the one that the query was answered with, and if the handler has
returned, the client's connection is closed. -/
structure Guarded (answer : Option Addr) (dialed : Addr → Prop) (returned closed : Prop) :
    Prop where
  dialed : ∀ a, dialed a → answer = some a
  closed : returned → closed

/-- The same of whatever comes after the query, at every moment. -/
def Handling.Guards (answer : Option Addr) : Handling → Prop
  | .handleHttp targetAddr =>
    ∀ (ω : Type) (h : (i : ProxyOp) → ω → i.Ans × ω) (kind : CacheKind)
      (adapters : List ObjectStorage)
      (w : ω) s, (http h kind adapters w targetAddr).Reachable s →
        Guarded answer (fun a => ∃ e ∈ s.world.2, e.1 = .dial a) (∃ r, s.main = .ret r)
          (∃ e ∈ s.world.2, e.1 = .close)
  | .handleHttpTimed targetAddr =>
    ∀ (ω χ : Type) (h : (i : ProxyOp) → ω → i.Ans × ω) (tick : χ → ℤ × χ)
      (kind : CacheKind) (adapters : List ObjectStorage) (w : ω × χ),
        let trace :=
          ((httpTimed kind adapters targetAddr).exec (Prog.recording (clocked h tick)) (w, [])).2.2
        Guarded answer (fun a => ∃ e ∈ trace, e.1 = .op (.dial a)) True
          (∃ e ∈ trace, e.1 = .op .close)
  | .forwardConnection targetAddr =>
    ∀ s, (bypassCall targetAddr).Reachable s →
      Guarded answer (· ∈ s.dialed) (s.forward.main = .returned) (s.closed = true)
  | .done => Guarded answer (fun _ => False) True False

/-- The query was made and answered. -/
def Query.Succeeds (q : Query) : Prop :=
  q.syscallConn = none ∧ ∃ originalDst, q.control = some (none, originalDst)

/-- An address that is returned without an error is the one that the query was answered with, and
both handlers keep to it. -/
structure Query.Safe (q : Query) : Prop where
  target : (getOriginalTargetFromConn q).2 = none →
    ∃ a, q.answer = some a ∧ (getOriginalTargetFromConn q).1 = some a
  plain : ∀ bypass, (q.handleConnection bypass).Guards q.answer
  timed : ∀ bypass, (q.handleConnectionTimed bypass).Guards q.answer

/-! ## What is dialed -/

theorem handleInline_only (kind : CacheKind) (adapters : List ObjectStorage) (targetAddr : Addr) :
    (handleInline kind adapters targetAddr).Only fun i => ∀ a, i = .dial a →
    a = targetAddr := by
  refine .bind (.bind (ask_only nofun) fun read => ?_) fun _ =>
    .bind (ask_only nofun) fun _ => .ret _
  cases read with
  | error _ => exact .ret _
  | ok request =>
    refine (handleRequest_only adapters targetAddr request kind).mono ?_
    rintro _ hasked a rfl
    cases hasked
    rfl

theorem handleHttpTimed_only (kind : CacheKind) (adapters : List ObjectStorage)
    (targetAddr : Addr) :
    (handleHttpTimed askTimed now kind adapters targetAddr).Only
      (Timed.Lift fun i => ∀ a, i = .dial a → a = targetAddr) := by
  refine .bind ?_ fun _ => .op nofun fun _ => .ret _
  refine .op trivial fun startTime => ?_
  refine .op nofun fun read => ?_
  refine .op trivial fun t => ?_
  refine .bind (p := StateT.run _ _) ?_ fun _ => .ret _
  cases read with
  | error err =>
    refine .op trivial fun t => ?_
    split_ifs
    · exact .op nofun fun _ => .ret _
    · exact .op nofun fun _ => .op trivial fun _ => .ret _
  | ok request =>
    refine ((handleRequestTimed_erases kind adapters targetAddr request).run _).only ?_
    refine (handleRequest_only adapters targetAddr request kind).mono ?_
    rintro _ hasked a rfl
    cases hasked
    rfl

theorem handleHttpTimed_must_close (kind : CacheKind) (adapters : List ObjectStorage)
    (targetAddr : Addr) :
    (handleHttpTimed askTimed now kind adapters targetAddr).Must (· = .op .close) :=
  .bind _ fun _ => .here rfl

section guards

variable (targetAddr : Addr)

theorem guards_handleHttp : (Handling.handleHttp (some targetAddr)).Guards (some targetAddr) := by
  intro ω h kind adapters w s hs
  have hm := handleWith_behavesAs (get_behavesAs kind) adapters targetAddr
  have ht : Prog.Traced (fun i => ∀ a, i = .dial a → a = targetAddr) (· = .close)
      (handleInline kind adapters targetAddr) (w, ([] : List (Σ i : ProxyOp, i.Ans))) :=
    ⟨handleInline_only kind adapters targetAddr, nofun, Or.inl (handleWith_must_close ..)⟩
  obtain ⟨q, hb, ht⟩ := hm.invariant ht (fun _ _ _ ht => ht.op h) hs
  constructor
  · rintro a ⟨e, he, hdial⟩
    rw [ht.asked e he a hdial]
  · rintro ⟨r, hr⟩
    rw [hr] at hb
    cases hb with
    | ret _ _ => exact ht.ended

theorem guards_handleHttpTimed :
    (Handling.handleHttpTimed (some targetAddr)).Guards (some targetAddr) := by
  intro ω χ h tick kind adapters w
  have ht : Prog.Traced (Timed.Lift fun i => ∀ a, i = .dial a → a = targetAddr)
      (· = .op .close) (handleHttpTimed askTimed now kind adapters targetAddr)
      (w, ([] : List (Σ i : Timed ProxyOp, Timed.Ans ProxyOp.Ans i))) :=
    ⟨handleHttpTimed_only kind adapters targetAddr, nofun,
      Or.inl (handleHttpTimed_must_close ..)⟩
  have ht := Prog.exec_invariant (h := Prog.recording (clocked h tick)) (fun _ _ _ ht => ht.op _) ht
  constructor
  · rintro a ⟨e, he, hdial⟩
    have hlift := ht.asked e he
    rw [hdial] at hlift
    rw [hlift a rfl]
  · exact fun _ => ht.ended

theorem guards_forwardConnection :
    (Handling.forwardConnection (some targetAddr)).Guards (some targetAddr) := by
  intro s hs
  refine hs.invariant (I := fun s => Guarded (some targetAddr) (· ∈ s.dialed)
    (s.forward.main = .returned) (s.closed = true)) ⟨nofun, nofun⟩ fun s a s' hI hs => ?_
  obtain ⟨z, -, hs⟩ := Option.bind_eq_some_iff.1 hs
  have hclosed (hz : z.main = .returned) : (s.closed || decide (z.main = .returned)) = true := by
    rw [Bool.or_eq_true, decide_eq_true_eq]
    exact Or.inr hz
  cases a with
  | dial fails =>
    obtain rfl := Option.some.inj hs
    refine ⟨fun b hb => ?_, hclosed⟩
    rcases List.mem_append.1 hb with hb | hb
    · exact hI.dialed b hb
    · exact (congrArg some (List.mem_singleton.1 hb)).symm
  | copied fails | sent fails | ready =>
    obtain rfl := Option.some.inj hs
    exact ⟨hI.dialed, hclosed⟩

end guards

/-- **No dial without a destination.** -/
theorem no_dial_without_destination_iff (q : Query) : q.Safe ↔ q.Succeeds := by
  obtain ⟨syscallConn, control⟩ := q
  constructor
  · intro h
    cases syscallConn with
    | some err => exact absurd trivial (h.timed false).closed
    | none =>
      obtain ⟨a, ha, -⟩ := h.target rfl
      match control, ha with
      | some (none, originalDst), _ => exact ⟨rfl, originalDst, rfl⟩
  · rintro ⟨rfl, originalDst, rfl⟩
    refine ⟨fun _ => ⟨_, rfl, rfl⟩, fun bypass => ?_, fun bypass => ?_⟩
    · cases bypass with
      | false => exact guards_handleHttp _
      | true => exact guards_forwardConnection _
    · cases bypass with
      | false => exact guards_handleHttpTimed _
      | true => exact guards_forwardConnection _

/-- The option is not answered, and the proxy takes `0.0.0.0:0` for the destination. -/
theorem unanswered_query_dialed :
    ¬Query.Safe ⟨none, some (some (.new "protocol not available"), .zero)⟩ := by
  intro h
  obtain ⟨a, ha, -⟩ := h.target rfl
  cases ha

end Main

end AutomaticCache
