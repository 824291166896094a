import Mathlib.Data.List.Infix

/-!
# Copying from one end to another

`io.Copy` between two ends that it does not own. The source sends as long as it has not closed, the
copy reads what has come in, as much as it gets at once, and writes that before it reads again. It
ends without an error when there is nothing left of a source that has closed.

Nothing is lost, repeated or turned around (`Flow.Sound`): what was sent is what was delivered, what
the copy holds and what it has not read.
-/

namespace Copy

/-- Where the copy stands. -/
inductive Stage (β ε : Type)
  | reading
  /-- With what was read. -/
  | writing (buf : List β)
  | ended (err : Option ε)

/-- A source, the copy and where it writes. `sent` is all that the source has sent, and `delivered`
all that was written. -/
structure Flow (β ε : Type) where
  sent : List β
  closed : Bool
  unread : List β
  delivered : List β
  stage : Stage β ε

/-- How much comes and goes at once, and what fails, is the environment's choice. -/
inductive Act (β ε : Type)
  /-- The source sends more. -/
  | send (b : List β)
  /-- The source sends nothing more. -/
  | close
  | read (n : ℕ)
  /-- The end of what was sent is read. -/
  | readEnds
  | readFails (err : ε)
  | write
  /-- After `n` of what was read. -/
  | writeFails (n : ℕ) (err : ε)

variable {β ε : Type}

/-- A step of the source. -/
def Act.OfSource : Act β ε → Bool
  | .send _ | .close => true
  | _ => false

def Act.Fails : Act β ε → Bool
  | .readFails _ | .writeFails _ _ => true
  | _ => false

namespace Flow

def initial : Flow β ε := ⟨[], false, [], [], .reading⟩

def step (f : Flow β ε) : Act β ε → Option (Flow β ε)
  | .send b => if f.closed then none else some
      { f with sent := f.sent ++ b, unread := f.unread ++ b }
  | .close => if f.closed then none else some { f with closed := true }
  | .read n =>
    match f.stage with
    | .reading =>
      if 0 < n ∧ n ≤ f.unread.length then
        some { f with unread := f.unread.drop n, stage := .writing (f.unread.take n) }
      else none
    | _ => none
  | .readEnds =>
    match f.stage with
    | .reading => if f.closed ∧ f.unread.isEmpty then some
        { f with stage := .ended none } else none
    | _ => none
  | .readFails err =>
    match f.stage with
    | .reading => some { f with stage := .ended (some err) }
    | _ => none
  | .write =>
    match f.stage with
    | .writing buf => some { f with delivered := f.delivered ++ buf, stage := .reading }
    | _ => none
  | .writeFails n err =>
    match f.stage with
    | .writing buf =>
      some { f with delivered := f.delivered ++ buf.take n, stage := .ended (some err) }
    | _ => none

/-- What a step can do. -/
inductive Step (f : Flow β ε) : Act β ε → Flow β ε → Prop
  | send (b : List β) (h : f.closed = false) :
    Step f (.send b) { f with sent := f.sent ++ b, unread := f.unread ++ b }
  | close (h : f.closed = false) : Step f .close { f with closed := true }
  | read (n : ℕ) (h : f.stage = .reading) (hn : 0 < n) (hle : n ≤ f.unread.length) :
    Step f (.read n) { f with unread := f.unread.drop n, stage := .writing (f.unread.take n) }
  | readEnds (h : f.stage = .reading) (hc : f.closed = true) (hu : f.unread = []) :
    Step f .readEnds { f with stage := .ended none }
  | readFails (err : ε) (h : f.stage = .reading) :
    Step f (.readFails err) { f with stage := .ended (some err) }
  | write (buf : List β) (h : f.stage = .writing buf) :
    Step f .write { f with delivered := f.delivered ++ buf, stage := .reading }
  | writeFails (n : ℕ) (err : ε) (buf : List β) (h : f.stage = .writing buf) :
    Step f (.writeFails n err)
      { f with delivered := f.delivered ++ buf.take n, stage := .ended (some err) }

variable {f f' : Flow β ε} {a : Act β ε}

theorem step_of_step (h : f.step a = some f') : f.Step a f' := by
  cases a with
  | send b =>
    simp only [step] at h
    split at h
    · cases h
    · cases h
      exact .send b (Bool.eq_false_iff.2 ‹_›)
  | close =>
    simp only [step] at h
    split at h
    · cases h
    · cases h
      exact .close (Bool.eq_false_iff.2 ‹_›)
  | read n =>
    simp only [step] at h
    split at h
    · split at h
      · rename_i hread hn
        cases h
        exact .read n hread hn.1 hn.2
      · cases h
    · cases h
  | readEnds =>
    simp only [step] at h
    split at h
    · split at h
      · rename_i hread hc
        cases h
        exact .readEnds hread hc.1 (List.isEmpty_iff.1 hc.2)
      · cases h
    · cases h
  | readFails err =>
    simp only [step] at h
    split at h
    · cases h
      exact .readFails err ‹_›
    · cases h
  | write =>
    simp only [step] at h
    split at h
    · cases h
      exact .write _ ‹_›
    · cases h
  | writeFails n err =>
    simp only [step] at h
    split at h
    · cases h
      exact .writeFails n err _ ‹_›
    · cases h

/-! ## What was sent and what was delivered -/

/-- What was sent is what was delivered, what is held and what is unread, or the copy has failed. -/
structure Sound (f : Flow β ε) : Prop where
  reading : f.stage = .reading → f.sent = f.delivered ++ f.unread
  writing : ∀ buf, f.stage = .writing buf → f.sent = f.delivered ++ (buf ++ f.unread)
  ended : f.stage = .ended none → f.closed = true ∧ f.unread = [] ∧ f.sent = f.delivered
  failed : ∀ err, f.stage = .ended (some err) → f.delivered <+: f.sent

theorem sound_initial : (initial : Flow β ε).Sound :=
  ⟨fun _ => rfl, fun _ h => (nomatch h), fun h => (nomatch h), fun _ h => nomatch h⟩

/-- What was delivered is the beginning of what was sent. -/
theorem Sound.delivered_prefix (h : f.Sound) : f.delivered <+: f.sent := by
  cases hs : f.stage with
  | reading => exact ⟨_, (h.reading hs).symm⟩
  | writing buf => exact ⟨_, (h.writing buf hs).symm⟩
  | ended err =>
    cases err with
    | none => rw [(h.ended hs).2.2]
    | some err => exact h.failed err hs

theorem Sound.step (h : f.Sound) (hstep : f.step a = some f') : f'.Sound := by
  cases step_of_step hstep with
  | send b hc =>
    refine ⟨fun hs => ?_, fun buf hs => ?_, fun hs => ?_, fun err hs => ?_⟩
    · have hsent := h.reading hs
      simp only [hsent, List.append_assoc]
    · have hsent := h.writing buf hs
      simp only [hsent, List.append_assoc]
    · cases hc.symm.trans (h.ended hs).1
    · exact (h.failed err hs).trans (List.prefix_append _ _)
  | close hc => exact ⟨h.reading, h.writing, fun hs => ⟨rfl, (h.ended hs).2⟩, h.failed⟩
  | read n hs hn hle =>
    refine ⟨nofun, fun buf hbuf => ?_, nofun, nofun⟩
    cases hbuf
    rw [List.take_append_drop]
    exact h.reading hs
  | readEnds hs hc hu =>
    refine ⟨nofun, nofun, fun _ => ⟨hc, hu, ?_⟩, nofun⟩
    have hsent := h.reading hs
    rwa [hu, List.append_nil] at hsent
  | readFails err hs => exact ⟨nofun, nofun, nofun, fun _ _ => h.delivered_prefix⟩
  | write buf hs =>
    refine ⟨fun _ => ?_, nofun, nofun, nofun⟩
    rw [List.append_assoc]
    exact h.writing buf hs
  | writeFails n err buf hs =>
    refine ⟨nofun, nofun, nofun, fun _ _ => ?_⟩
    have hsent := h.writing buf hs
    rw [hsent]
    exact (List.prefix_append_right_inj _).2
      ((List.take_prefix n buf).trans (List.prefix_append _ _))

/-- The copy has failed. -/
def Failed (f : Flow β ε) : Prop := ∃ err, f.stage = .ended (some err)

/-- The source has closed, and all that it sent was delivered. -/
def Complete (f : Flow β ε) : Prop := f.closed = true ∧ f.delivered = f.sent

theorem Sound.complete (h : f.Sound) (hend : f.stage = .ended none) : f.Complete :=
  ⟨(h.ended hend).1, (h.ended hend).2.2.symm⟩

theorem ne_ended (h : ¬f.Failed) (hend : f.stage ≠ .ended none) (err : Option ε) :
    f.stage ≠ .ended err := by
  cases err with
  | none => exact hend
  | some err => exact fun hfailed => h ⟨err, hfailed⟩

/-- The source leaves the copy where it is. -/
theorem of_source (ha : a.OfSource = true) (hstep : f.step a = some f') :
    f'.stage = f.stage ∧ f'.delivered = f.delivered := by
  cases step_of_step hstep with
  | send | close => exact ⟨rfl, rfl⟩
  | read | readEnds | readFails | write | writeFails => cases ha

/-- The copy leaves the source where it is. -/
theorem of_copy (ha : a.OfSource = false) (hstep : f.step a = some f') :
    f'.sent = f.sent ∧ f'.closed = f.closed := by
  cases step_of_step hstep with
  | send | close => cases ha
  | read | readEnds | readFails | write | writeFails => exact ⟨rfl, rfl⟩

theorem not_failed_step (ha : a.Fails = false) (h : ¬f.Failed) (hstep : f.step a = some f') :
    ¬f'.Failed := by
  cases step_of_step hstep with
  | send | close => exact h
  | read | readEnds | write => rintro ⟨err, hend⟩; cases hend
  | readFails | writeFails => cases ha

/-! ## How much is left -/

/-- How many steps the copy has left at most, when nothing more is sent. -/
def left (f : Flow β ε) : ℕ :=
  2 * f.unread.length + match f.stage with | .reading => 1 | .writing _ => 2 | .ended _ => 0

theorem left_lt (ha : a.OfSource = false) (hstep : f.step a = some f') :
    f'.left < f.left := by
  cases step_of_step hstep with
  | send | close => cases ha
  | read n hs hn hle =>
    simp only [left, hs, List.length_drop]
    omega
  | readEnds hs | readFails err hs | write buf hs | writeFails n err buf hs =>
    simp only [left, hs]
    omega

/-- The copy of a source that has closed can go on without an error until it has ended. -/
theorem exists_step (hclosed : f.closed = true) (hend : ∀ err, f.stage ≠ .ended err) :
    ∃ a f', a.OfSource = false ∧ a.Fails = false ∧ f.step a = some f' := by
  cases hstage : f.stage with
  | reading =>
    by_cases hu : f.unread = []
    · refine ⟨.readEnds, { f with stage := .ended none }, rfl, rfl, ?_⟩
      simp only [step, hstage, hclosed, hu, List.isEmpty_nil, and_self, if_true]
    · have hlt := List.length_pos_iff.2 hu
      have hn : 0 < 1 ∧ 1 ≤ f.unread.length := ⟨Nat.one_pos, hlt⟩
      refine ⟨.read 1, { f with unread := f.unread.drop 1, stage := .writing (f.unread.take 1) },
        rfl, rfl, ?_⟩
      simp only [step, hstage, if_pos hn]
  | writing buf =>
    refine ⟨.write, { f with delivered := f.delivered ++ buf, stage := .reading }, rfl, rfl, ?_⟩
    simp only [step, hstage]
  | ended err => exact absurd hstage (hend err)

end Flow

end Copy
