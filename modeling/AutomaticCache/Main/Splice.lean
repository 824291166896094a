import AutomaticCache.Lib.Bytes
import AutomaticCache.Lib.Copy
import AutomaticCache.Main.Forward

/-!
# The bytes of bypass mode

`forwardConnection` together with its two copies and what the client and the target send. Nothing of
the connection is closed before `forwardConnection` returns: the end of what the client sends is not
passed on to the target, nor the target's to the client. What it leaves out of the bytes is
`Forward`, which the pool of bypass mode is about.
-/

namespace AutomaticCache

namespace Main

open Runs Copy

/-- Where `io.Copy(conn, targetConn)` leaves `forwardConnection`. -/
def forwardingAt : Stage UInt8 GoError → Forwarding
  | .reading | .writing _ => .copying
  | .ended none => .awaiting
  | .ended (some _) => .returned

/-- Where `io.Copy(targetConn, conn)` leaves the goroutine. -/
def copierAt : Stage UInt8 GoError → Copier
  | .reading | .writing _ => .copying
  | .ended none => .signalling
  | .ended (some _) => .ended

structure Splice where
  main : Forwarding
  copier : Copier
  /-- From the target to the client. -/
  down : Flow UInt8 GoError
  /-- From the client to the target. -/
  up : Flow UInt8 GoError

inductive SpliceAct
  | dial (fails : Bool)
  /-- The target, or the copy of what it sends. -/
  | down (a : Copy.Act UInt8 GoError)
  | up (a : Copy.Act UInt8 GoError)
  /-- The two meet on `ready`. -/
  | ready

/-- A step of the client or of the target. -/
def SpliceAct.OfPeer : SpliceAct → Bool
  | .down a | .up a => a.OfSource
  | .dial _ | .ready => false

def SpliceAct.Fails : SpliceAct → Bool
  | .dial fails => fails
  | .down a | .up a => a.Fails
  | .ready => false

namespace Splice

def initial : Splice := ⟨.dial, .absent, .initial, .initial⟩

def step (z : Splice) : SpliceAct → Option Splice
  | .dial fails =>
    match z.main with
    | .dial =>
      some (if fails then { z with main := .returned } else
        { z with main := .copying, copier := .copying })
    | _ => none
  | .down a =>
    if a.OfSource then
      -- there is no target before the dial
      if z.copier = .absent then none else (z.down.step a).map fun down => { z with down := down }
    else if z.main = .copying then
      (z.down.step a).map fun down => { z with down := down, main := forwardingAt down.stage }
    else none
  | .up a =>
    if a.OfSource then (z.up.step a).map fun up => { z with up := up }
    -- once `forwardConnection` has returned, both connections are closed
    else if z.copier = .copying ∧ (z.main = .returned → a.Fails = true) then
      (z.up.step a).map fun up => { z with up := up, copier := copierAt up.stage }
    else none
  | .ready =>
    match z.main, z.copier with
    | .awaiting, .signalling => some { z with main := .returned, copier := .ended }
    | _, _ => none

/-- What a step can do. -/
inductive Step (z : Splice) : SpliceAct → Splice → Prop
  | dialFails (h : z.main = .dial) : Step z (.dial true) { z with main := .returned }
  | dial (h : z.main = .dial) : Step z (.dial false) { z with main := .copying, copier := .copying }
  | target (a : Copy.Act UInt8 GoError) (down : Flow UInt8 GoError) (ha : a.OfSource = true)
    (hc : z.copier ≠ .absent) (hdown : z.down.step a = some down) :
    Step z (.down a) { z with down := down }
  | down (a : Copy.Act UInt8 GoError) (down : Flow UInt8 GoError) (ha : a.OfSource = false)
    (hm : z.main = .copying) (hdown : z.down.step a = some down) :
    Step z (.down a) { z with down := down, main := forwardingAt down.stage }
  | client (a : Copy.Act UInt8 GoError) (up : Flow UInt8 GoError) (ha : a.OfSource = true)
    (hup : z.up.step a = some up) : Step z (.up a) { z with up := up }
  | up (a : Copy.Act UInt8 GoError) (up : Flow UInt8 GoError) (ha : a.OfSource = false)
    (hc : z.copier = .copying) (hm : z.main = .returned → a.Fails = true)
    (hup : z.up.step a = some up) :
    Step z (.up a) { z with up := up, copier := copierAt up.stage }
  | ready (hm : z.main = .awaiting) (hc : z.copier = .signalling) :
    Step z .ready { z with main := .returned, copier := .ended }

variable {z z' : Splice} {a : SpliceAct}

theorem step_of_step (h : z.step a = some z') : z.Step a z' := by
  cases a with
  | dial fails =>
    simp only [step] at h
    split at h
    · cases h
      cases fails
      · exact .dial ‹_›
      · exact .dialFails ‹_›
    · cases h
  | down a =>
    simp only [step] at h
    split at h
    · split at h
      · cases h
      · obtain ⟨down, hdown, rfl⟩ := Option.map_eq_some_iff.1 h
        exact .target a down ‹_› ‹_› hdown
    · split at h
      · obtain ⟨down, hdown, rfl⟩ := Option.map_eq_some_iff.1 h
        exact .down a down (Bool.eq_false_iff.2 ‹_›) ‹_› hdown
      · cases h
  | up a =>
    simp only [step] at h
    split at h
    · obtain ⟨up, hup, rfl⟩ := Option.map_eq_some_iff.1 h
      exact .client a up ‹_› hup
    · split at h
      · rename_i ha hc
        obtain ⟨up, hup, rfl⟩ := Option.map_eq_some_iff.1 h
        exact .up a up (Bool.eq_false_iff.2 ha) hc.1 hc.2 hup
      · cases h
  | ready =>
    simp only [step] at h
    split at h
    · cases h
      exact .ready ‹_› ‹_›
    · cases h

/-! ## Where the copies are -/

/-- Before the dial, or after a dial that failed; while at least one copy goes on, or one waits for
the other; after the two have met. -/
inductive Phase (z : Splice) : Prop
  | undialed (hc : z.copier = .absent) (hm : z.main = .dial ∨ z.main = .returned)
    (hdown : z.down = .initial) (hup : z.up.delivered = []) (hstage : z.up.stage = .reading)
  | dialed (hm : z.main = forwardingAt z.down.stage) (hc : z.copier = copierAt z.up.stage)
  | met (hm : z.main = .returned) (hc : z.copier = .ended) (hdown : z.down.stage = .ended none)
    (hup : z.up.stage = .ended none)

structure Sound (z : Splice) : Prop where
  down : z.down.Sound
  up : z.up.Sound
  phase : z.Phase

theorem sound_initial : initial.Sound :=
  ⟨Flow.sound_initial, Flow.sound_initial, .undialed rfl (Or.inl rfl) rfl rfl rfl⟩

theorem copierAt_ne_absent (s : Stage UInt8 GoError) : copierAt s ≠ .absent := by
  rcases s with _ | _ | (_ | _) <;> nofun

theorem copierAt_of_ne {s : Stage UInt8 GoError} (h : ∀ err, s ≠ .ended err) :
    copierAt s = .copying := by
  rcases s with _ | _ | err
  · rfl
  · rfl
  · exact absurd rfl (h err)

theorem copierAt_signalling {s : Stage UInt8 GoError} (h : copierAt s = .signalling) :
    s = .ended none := by
  rcases s with _ | _ | (_ | _) <;> cases h
  rfl

theorem forwardingAt_ne_dial (s : Stage UInt8 GoError) : forwardingAt s ≠ .dial := by
  rcases s with _ | _ | (_ | _) <;> nofun

theorem forwardingAt_of_ne {s : Stage UInt8 GoError} (h : ∀ err, s ≠ .ended err) :
    forwardingAt s = .copying := by
  rcases s with _ | _ | err
  · rfl
  · rfl
  · exact absurd rfl (h err)

theorem forwardingAt_awaiting {s : Stage UInt8 GoError} (h : forwardingAt s = .awaiting) :
    s = .ended none := by
  rcases s with _ | _ | (_ | _) <;> cases h
  rfl

theorem forwardingAt_returned {s : Stage UInt8 GoError} (h : forwardingAt s = .returned) :
    ∃ err, s = .ended (some err) := by
  rcases s with _ | _ | (_ | err) <;> cases h
  exact ⟨err, rfl⟩

theorem Sound.undialed (h : z.Sound) (hm : z.main = .dial) :
    z.copier = .absent ∧ z.down = .initial ∧ z.up.delivered = [] ∧ z.up.stage = .reading := by
  cases h.phase with
  | undialed hc _ hdown hup hstage => exact ⟨hc, hdown, hup, hstage⟩
  | dialed hm' => exact absurd (hm'.symm.trans hm) (forwardingAt_ne_dial _)
  | met hm' => cases hm'.symm.trans hm

theorem Sound.step (h : z.Sound) (hstep : z.step a = some z') : z'.Sound := by
  cases step_of_step hstep with
  | dialFails hm =>
    obtain ⟨hc, hdown, hup, hstage⟩ := h.undialed hm
    exact ⟨h.down, h.up, .undialed hc (Or.inr rfl) hdown hup hstage⟩
  | dial hm =>
    obtain ⟨-, hdown, -, hstage⟩ := h.undialed hm
    refine ⟨h.down, h.up, .dialed ?_ ?_⟩
    · show Forwarding.copying = forwardingAt z.down.stage
      rw [hdown]
      rfl
    · show Copier.copying = copierAt z.up.stage
      rw [hstage]
      rfl
  | target b down ha hc hdown =>
    have hstage := (Flow.of_source ha hdown).1
    refine ⟨h.down.step hdown, h.up, ?_⟩
    cases h.phase with
    | undialed hc' => exact absurd hc' hc
    | dialed hm hc => exact .dialed (by rw [hm, hstage]) hc
    | met hm hc hd hu => exact .met hm hc (hstage.trans hd) hu
  | down b down ha hm hdown =>
    refine ⟨h.down.step hdown, h.up, ?_⟩
    cases h.phase with
    | undialed _ hm' => cases hm.symm.trans (hm'.resolve_left fun hd => by cases hm.symm.trans hd)
    | dialed _ hc => exact .dialed rfl hc
    | met hm' => cases hm.symm.trans hm'
  | client b up ha hup =>
    obtain ⟨hstage, hdelivered⟩ := Flow.of_source ha hup
    refine ⟨h.down, h.up.step hup, ?_⟩
    cases h.phase with
    | undialed hc hm hd hu hs => exact .undialed hc hm hd (hdelivered.trans hu) (hstage.trans hs)
    | dialed hm hc => exact .dialed hm (by rw [hc, hstage])
    | met hm hc hd hu => exact .met hm hc hd (hstage.trans hu)
  | up b up ha hc hm hup =>
    refine ⟨h.down, h.up.step hup, ?_⟩
    cases h.phase with
    | undialed hc' => cases hc.symm.trans hc'
    | dialed hm' _ => exact .dialed hm' rfl
    | met _ hc' => cases hc.symm.trans hc'
  | ready hm hc =>
    refine ⟨h.down, h.up, ?_⟩
    cases h.phase with
    | undialed hc' => cases hc.symm.trans hc'
    | met hm' => cases hm.symm.trans hm'
    | dialed hm' hc' =>
      exact .met rfl rfl (forwardingAt_awaiting (hm'.symm.trans hm))
        (copierAt_signalling (hc'.symm.trans hc))

/-! ## What the pool sees of it -/

/-- Without the bytes. -/
def forward (z : Splice) : Forward := ⟨z.main, z.copier⟩

/-- How the copy from the target ends is what `forwardConnection` learns of it. -/
theorem forward_down {s : Stage UInt8 GoError} {c : Copier} :
    forwardingAt s = .copying ∨
      ∃ fails, Forward.step ⟨.copying, c⟩ (.copied fails) = some ⟨forwardingAt s, c⟩ := by
  rcases s with _ | _ | (_ | _)
  · exact Or.inl rfl
  · exact Or.inl rfl
  · exact Or.inr ⟨false, rfl⟩
  · exact Or.inr ⟨true, rfl⟩

theorem forward_up {s : Stage UInt8 GoError} {m : Forwarding} :
    copierAt s = .copying ∨
      ∃ fails, Forward.step ⟨m, .copying⟩ (.sent fails) = some ⟨m, copierAt s⟩ := by
  rcases s with _ | _ | (_ | _)
  · exact Or.inl rfl
  · exact Or.inl rfl
  · exact Or.inr ⟨false, rfl⟩
  · exact Or.inr ⟨true, rfl⟩

/-- **Step.** A step is one of `forwardConnection` and its goroutine, or none of theirs. -/
theorem forward_of_step (hstep : z.step a = some z') :
    z'.forward = z.forward ∨ ∃ b, z.forward.step b = some z'.forward := by
  cases step_of_step hstep with
  | dialFails hm => exact Or.inr ⟨.dial true, by simp only [forward, Forward.step, hm, if_true]⟩
  | dial hm => exact Or.inr ⟨.dial false, by simp only [forward, Forward.step, hm]; rfl⟩
  | target | client => exact Or.inl rfl
  | down b down ha hm hdown =>
    rcases forward_down (s := down.stage) (c := z.copier) with hs | ⟨fails, hs⟩
    · refine Or.inl ?_
      simp only [forward, hm, hs]
    · refine Or.inr ⟨.copied fails, ?_⟩
      simp only [forward, hm]
      exact hs
  | up b up ha hc hm hup =>
    rcases forward_up (s := up.stage) (m := z.main) with hs | ⟨fails, hs⟩
    · refine Or.inl ?_
      simp only [forward, hc, hs]
    · refine Or.inr ⟨.sent fails, ?_⟩
      simp only [forward, hc]
      exact hs
  | ready hm hc => exact Or.inr ⟨.ready, by simp only [forward, Forward.step, hm, hc]⟩

/-! ## Whole connections -/

def connection : System Splice SpliceAct := ⟨initial, step⟩

theorem sound_of_reachable (h : connection.Reachable z) : z.Sound :=
  h.invariant sound_initial fun _ _ _ hI hs => hI.step hs

/-- What `forwardConnection` has made of the bytes. -/
structure Forwarded (z : Splice) : Prop where
  down : z.down.delivered <+: z.down.sent
  up : z.up.delivered <+: z.up.sent
  /-- It returns when the dial has failed, when the copy from the target has, or when all was passed
  on in both directions. -/
  returned : z.main = .returned →
    (z.copier = .absent ∧ z.down.delivered = [] ∧ z.up.delivered = []) ∨ z.down.Failed ∨
      (z.copier = .ended ∧ z.down.Complete ∧ z.up.Complete)

theorem Sound.forwarded (h : z.Sound) : z.Forwarded := by
  refine ⟨h.down.delivered_prefix, h.up.delivered_prefix, fun hm => ?_⟩
  cases h.phase with
  | undialed hc _ hdown hup => exact Or.inl ⟨hc, by rw [hdown]; rfl, hup⟩
  | dialed hm' => exact Or.inr (Or.inl (forwardingAt_returned (hm'.symm.trans hm)))
  | met _ hc hdown hup => exact Or.inr (Or.inr ⟨hc, h.down.complete hdown, h.up.complete hup⟩)

theorem forward_run {ρ : Type} (r : ρ) (task : ProxyTask) {as : List SpliceAct}
    (h : connection.run connection.init as = some z) :
    ((forwardConnection r).call task).Reachable z.forward := by
  have hstep (z : Splice) (a : SpliceAct) (z' : Splice) (f : Forward) (hf : z.forward = f)
      (_ : ((forwardConnection r).call task).Reachable f) (hs : connection.step z a = some z') :
      ∃ bs f', ((forwardConnection r).call task).run f bs = some f' ∧ z'.forward = f' := by
    subst hf
    rcases forward_of_step hs with heq | ⟨b, hb⟩
    · exact ⟨[], z.forward, rfl, heq⟩
    · have hcall : ((forwardConnection r).call task).step z.forward b = some z'.forward := hb
      exact ⟨[b], z'.forward, by rw [System.run_cons_eq hcall, System.run_nil], rfl⟩
  obtain ⟨bs, f, hrun, rfl⟩ := System.run_simulated hstep rfl .initial h
  exact ⟨bs, hrun⟩

/-- **Bypass mode.** Whatever is sent, read and written in whatever pieces, and wherever it fails:
each side gets the beginning of what the other sent, in its order, and when `forwardConnection`
returns, it is all of it, or the dial or the copy from the target has failed. Without the bytes, it
is the handler of the pool. -/
theorem forwarded_bytes {ρ : Type} (r : ρ) (task : ProxyTask) (as : List SpliceAct) (z : Splice)
    (h : connection.run connection.init as = some z) :
    z.Forwarded ∧ ((forwardConnection r).call task).Reachable z.forward :=
  ⟨(sound_of_reachable ⟨as, h⟩).forwarded, forward_run r task h⟩

/-! ## Until all is passed on -/

/-- No peer sends or closes any more, and nothing fails. -/
def quiet : System Splice SpliceAct :=
  connection.restrict fun _ a => a.OfPeer = false ∧ a.Fails = false

/-- Both peers have closed, and no copy has failed. -/
structure Closed (z : Splice) : Prop where
  sound : z.Sound
  dialed : z.copier ≠ .absent
  down : z.down.closed = true ∧ ¬z.down.Failed
  up : z.up.closed = true ∧ ¬z.up.Failed

/-- How many steps there are left at most. -/
def left (z : Splice) : ℕ := z.down.left + z.up.left + z.forward.left

theorem forward_left_le (hstep : z.step a = some z') : z'.forward.left ≤ z.forward.left := by
  rcases forward_of_step hstep with h | ⟨b, h⟩
  · rw [h]
  · exact Nat.le_of_lt (Forward.left_lt h)

theorem left_lt (ha : a.OfPeer = false) (hstep : z.step a = some z') : z'.left < z.left := by
  have hle := forward_left_le hstep
  simp only [left]
  cases step_of_step hstep with
  | dialFails hm | dial hm =>
    simp only [forward, Forward.left, hm] at hle ⊢
    omega
  | target b down hb | client b up hb => cases ha.symm.trans hb
  | down b down hb hm hdown =>
    have hlt := Flow.left_lt hb hdown
    dsimp only at hlt hle ⊢
    omega
  | up b up hb hc hm hup =>
    have hlt := Flow.left_lt hb hup
    dsimp only at hlt hle ⊢
    omega
  | ready hm hc =>
    simp only [forward, Forward.left, hm, hc]
    omega

theorem Closed.step (h : z.Closed) (ha : a.OfPeer = false) (hfails : a.Fails = false)
    (hstep : z.step a = some z') : z'.Closed ∧ z'.down.sent = z.down.sent ∧
    z'.up.sent = z.up.sent := by
  have hsound := h.sound.step hstep
  cases step_of_step hstep with
  | dialFails hm | dial hm => exact absurd (h.sound.undialed hm).1 h.dialed
  | target b down hb | client b up hb => cases ha.symm.trans hb
  | down b down hb hm hdown =>
    obtain ⟨hsent, hclosed⟩ := Flow.of_copy hb hdown
    exact ⟨⟨hsound, h.dialed,
      ⟨hclosed.trans h.down.1, Flow.not_failed_step hfails h.down.2 hdown⟩, h.up⟩,
      hsent, rfl⟩
  | up b up hb hc hm hup =>
    obtain ⟨hsent, hclosed⟩ := Flow.of_copy hb hup
    exact ⟨⟨hsound, copierAt_ne_absent _, h.down,
      ⟨hclosed.trans h.up.1, Flow.not_failed_step hfails h.up.2 hup⟩⟩, rfl, hsent⟩
  | ready hm hc => exact ⟨⟨hsound, nofun, h.down, h.up⟩, rfl, rfl⟩

/-- Nothing is left to do only when the two have met. -/
theorem Closed.met (h : z.Closed) (hstuck : ∀ a, quiet.step z a = none) :
    z.main = .returned ∧ z.copier = .ended ∧ z.down.Complete ∧ z.up.Complete := by
  have hnone {a : SpliceAct} (ha : a.OfPeer = false) (hfails : a.Fails = false) : z.step a = none :=
    System.restrict_stuck hstuck ⟨ha, hfails⟩
  cases h.sound.phase with
  | undialed hc => exact absurd hc h.dialed
  | met hm hc hdown hup => exact ⟨hm, hc, h.sound.down.complete hdown, h.sound.up.complete hup⟩
  | dialed hm hc =>
    have hdown : z.down.stage = .ended none := by
      by_contra hne
      have hend := Flow.ne_ended h.down.2 hne
      obtain ⟨b, down, hb, hfails, hstep⟩ := Flow.exists_step h.down.1 hend
      have hnone := hnone (a := .down b) hb hfails
      simp only [Splice.step, hb, hm, forwardingAt_of_ne hend, hstep, Bool.false_eq_true,
        if_false, if_true,
        Option.map_some] at hnone
      cases hnone
    have hup : z.up.stage = .ended none := by
      by_contra hne
      have hend := Flow.ne_ended h.up.2 hne
      obtain ⟨b, up, hb, hfails, hstep⟩ := Flow.exists_step h.up.1 hend
      have hnone := hnone (a := .up b) hb hfails
      simp only [Splice.step, hb, hc, copierAt_of_ne hend, hm, hdown, forwardingAt, hstep,
        Bool.false_eq_true,
        if_false, reduceCtorEq, false_implies, and_self, if_true, Option.map_some] at hnone
    rw [hdown] at hm
    rw [hup] at hc
    have hready := hnone (a := .ready) rfl rfl
    simp only [Splice.step, hm, hc, forwardingAt, copierAt] at hready
    cases hready

/-- What a run of steps that do not fail keeps, when both peers have closed in the end. -/
theorem not_failed_run {as : List SpliceAct} {z₀ : Splice} (hdown : ¬z₀.down.Failed)
    (hup : ¬z₀.up.Failed) (hfails : connection.Steps (fun _ a => a.Fails = false) z₀ as)
    (h : connection.run z₀ as = some z) :
    ¬z.down.Failed ∧ ¬z.up.Failed := by
  refine System.run_invariant (I := fun z => ¬z.down.Failed ∧ ¬z.up.Failed)
    (fun z a z' hI ha hs => ?_) ⟨hdown, hup⟩ hfails h
  cases step_of_step hs with
  | dialFails | dial | ready => exact hI
  | target b down _ _ hstep | down b down _ _ hstep =>
    exact ⟨Flow.not_failed_step ha hI.1 hstep, hI.2⟩
  | client b up _ hstep | up b up _ _ _ hstep =>
    exact ⟨hI.1, Flow.not_failed_step ha hI.2 hstep⟩

theorem Sound.closed (h : z.Sound) (hdown : z.down.closed = true) (hup : z.up.closed = true)
    (hfailed : ¬z.down.Failed ∧ ¬z.up.Failed) : z.Closed := by
  refine ⟨h, fun hc => ?_, ⟨hdown, hfailed.1⟩, hup, hfailed.2⟩
  cases h.phase with
  | undialed _ _ hd =>
    rw [hd] at hdown
    cases hdown
  | dialed _ hc' => exact copierAt_ne_absent _ (hc'.symm.trans hc)
  | met _ hc' => cases hc.symm.trans hc'

/-- **Both peers close.** After a run in which nothing failed, at the end of which the client and
the target have both closed, all that either of them sent is delivered to the other and both
connections are closed, in whatever pieces and order it is copied. -/
theorem forwarded_all (as : List SpliceAct) (z : Splice)
    (h : connection.run connection.init as = some z)
    (hfails : connection.Steps (fun _ a => a.Fails = false) connection.init as)
    (hdown : z.down.closed = true) (hup : z.up.closed = true) :
    quiet.Completes z fun t => t.main = .returned ∧ t.copier = .ended ∧
      t.down.delivered = z.down.sent ∧ t.up.delivered = z.up.sent := by
  have hfailed : ¬z.down.Failed ∧ ¬z.up.Failed :=
    not_failed_run (by rintro ⟨err, hend⟩; cases hend)
      (by rintro ⟨err, hend⟩; cases hend) hfails h
  have hclosed := (sound_of_reachable ⟨as, h⟩).closed hdown hup hfailed
  refine .of_measure (I := fun t => t.Closed ∧ t.down.sent = z.down.sent ∧
    t.up.sent = z.up.sent) left
    (fun t a t' hI hs => ?_) (fun t hI hstuck => ?_) ⟨hclosed, rfl, rfl⟩
  · obtain ⟨⟨ha, hfails⟩, hs⟩ := System.restrict_step.1 hs
    obtain ⟨hclosed, hd, hu⟩ := hI.1.step ha hfails hs
    exact ⟨⟨hclosed, hd.trans hI.2.1, hu.trans hI.2.2⟩, left_lt ha hs⟩
  · obtain ⟨hm, hc, hd, hu⟩ := hI.1.met hstuck
    exact ⟨hm, hc, hd.2.trans hI.2.1, hu.2.trans hI.2.2⟩

/-- The client sends three bytes before the target is dialed, the target two. -/
def bothClose : List SpliceAct :=
  [.up (.send [1, 2, 3]), .dial false, .up (.read 2), .down (.send [4]), .up .close,
    .down (.read 1),
    .up .write, .down (.send [5]), .down .close]

/-- Then all is copied, but the client's last byte is read only after the target's end. -/
def bothCopied : List SpliceAct :=
  [.down .write, .down (.read 1), .down .write, .down .readEnds, .up (.read 1),
    .up .write, .up .readEnds,
    .ready]

theorem forwarded_bytes_bothCopied :
    ∃ z, connection.run connection.init (bothClose ++ bothCopied) = some z ∧
      z.down.delivered = [4, 5] ∧ z.Forwarded ∧
      (handleConnection.call ⟨0, 0⟩).Reachable z.forward :=
  ⟨_, rfl, rfl, forwarded_bytes () ⟨0, 0⟩ (bothClose ++ bothCopied) _ rfl⟩

theorem forwarded_all_bothClose :
    ∃ z, connection.run connection.init bothClose = some z ∧
      quiet.Completes z fun t => t.main = .returned ∧ t.copier = .ended ∧
        t.down.delivered = [4, 5] ∧ t.up.delivered = [1, 2, 3] :=
  ⟨_, rfl, forwarded_all bothClose _ rfl (by decide) rfl rfl⟩

end Splice

end Main

end AutomaticCache
