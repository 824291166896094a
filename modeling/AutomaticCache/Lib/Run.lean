import Mathlib.Logic.Basic
import Mathlib.Data.Nat.Notation
import Mathlib.Data.Option.Basic

/-!
# Runs of a labelled system

A `System` has an initial state and a partial step function. The label of a step carries every
choice that is not the program's own (which party moves, what the environment answers), so that
a run is the list of its labels and a finite run can be evaluated.

* `run_invariant`: what every step allowed by `ok` preserves holds after every run whose steps
  are all allowed.
* `run_traced`: the same of a property that speaks of the steps taken, too.
* `States Q` and `Steps P`: a property of all states a run visits after its first one, and of all
  steps it takes. `states_iff_steps` turns one into the other when `Q` after a step is decided
  before it.
* `run_simulated`: a relation of the states of two systems that steps keep is kept by runs.
* `run_map`: a map of states that commutes with the steps commutes with runs.

The parties of a system are often a list, of which a step changes one or adds one.
-/

namespace Runs

/-- A deterministic labelled system: `step s a` is `none` where `a` is not enabled. -/
structure System (σ α : Type*) where
  init : σ
  step : σ → α → Option σ

namespace System

variable {σ α : Type*} (S : System σ α)

/-- The state after the steps `as` from `s`, if they are enabled one after the other. -/
def run : σ → List α → Option σ
  | s, [] => some s
  | s, a :: as => (S.step s a).bind fun s' => run s' as

/-- `s` is the end of some run. -/
def Reachable (s : σ) : Prop := ∃ as, S.run S.init as = some s

/-- `P` holds of every step of the run `as` from `s`: of the state before it and of its label. -/
def Steps (P : σ → α → Prop) : σ → List α → Prop
  | _, [] => True
  | s, a :: as => P s a ∧ ∀ s', S.step s a = some s' → Steps P s' as

/-- `Q` holds in every state that the run `as` from `s` visits after `s`. -/
def States (Q : σ → Prop) : σ → List α → Prop
  | _, [] => True
  | s, a :: as => ∀ s', S.step s a = some s' → Q s' ∧ States Q s' as

/-- A step property that can be decided can be decided along a run. -/
instance decidableSteps {P : σ → α → Prop} [∀ s a, Decidable (P s a)] :
    ∀ s as, Decidable (S.Steps P s as)
  | _, [] => isTrue trivial
  | s, a :: as =>
    match h : S.step s a with
    | none => decidable_of_iff (P s a)
        ⟨fun hp => ⟨hp, fun s' hs => by rw [h] at hs; cases hs⟩, And.left⟩
    | some t =>
      have := decidableSteps (P := P) t as
      decidable_of_iff (P s a ∧ S.Steps P t as)
        ⟨fun hp => ⟨hp.1, fun s' hs => by rw [h] at hs; cases hs; exact hp.2⟩,
          fun hp => ⟨hp.1, hp.2 t h⟩⟩

variable {S}

@[simp] theorem run_nil (s : σ) : S.run s [] = some s := rfl

theorem run_cons (s : σ) (a : α) (as : List α) :
    S.run s (a :: as) = (S.step s a).bind fun s' => S.run s' as := rfl

theorem run_cons_eq {s s' : σ} {a : α} {as : List α} (h : S.step s a = some s') :
    S.run s (a :: as) = S.run s' as := by
  rw [run_cons, h, Option.bind_some]

theorem run_cons_some {s t : σ} {a : α} {as : List α} :
    S.run s (a :: as) = some t ↔ ∃ s', S.step s a = some s' ∧ S.run s' as = some t := by
  rw [run_cons, Option.bind_eq_some_iff]

theorem run_append (s : σ) (as bs : List α) :
    S.run s (as ++ bs) = (S.run s as).bind fun s' => S.run s' bs := by
  induction as generalizing s with
  | nil => rfl
  | cons a as ih =>
    rw [List.cons_append, run_cons, run_cons]
    cases S.step s a with
    | none => rfl
    | some s' => exact ih s'

theorem run_append_eq {s s' : σ} {as : List α} (bs : List α) (h : S.run s as = some s') :
    S.run s (as ++ bs) = S.run s' bs := by
  rw [run_append, h, Option.bind_some]

/-- What the steps of a run show, one after the other. -/
def shown {β : Type*} (S : System σ α) (f : σ → α → List β) : σ → List α → List β
  | _, [] => []
  | s, a :: as => f s a ++ match S.step s a with
    | some s' => S.shown f s' as
    | none => []

theorem shown_concat {β : Type*} {f : σ → α → List β} {s t : σ} {as : List α} (a : α)
    (hr : S.run s as = some t) : S.shown f s (as ++ [a]) = S.shown f s as ++ f t a := by
  induction as generalizing s with
  | nil =>
    obtain rfl := Option.some.inj hr
    show f s a ++ (match S.step s a with | some _ => [] | none => []) = f s a
    cases S.step s a <;> exact List.append_nil _
  | cons b bs ih =>
    obtain ⟨s', hs, hr⟩ := run_cons_some.1 hr
    show f s b ++ (match S.step s b with | some s' => S.shown f s' (bs ++ [a]) | none => []) =
      f s b ++ (match S.step s b with | some s' => S.shown f s' bs | none => []) ++ f t a
    rw [hs]
    dsimp only
    rw [ih hr, List.append_assoc]

/-! ## Reachable states -/

theorem Reachable.initial : S.Reachable S.init := ⟨[], rfl⟩

theorem Reachable.of_run {s t : σ} {as : List α} (h : S.Reachable s) (hr : S.run s as = some t) :
    S.Reachable t := by
  obtain ⟨bs, hb⟩ := h
  exact ⟨bs ++ as, by rw [run_append_eq _ hb, hr]⟩

theorem Reachable.step {s s' : σ} {a : α} (h : S.Reachable s) (hs : S.step s a = some s') :
    S.Reachable s' := by
  have hr : S.run s [a] = some s' := by rw [run_cons_eq hs, run_nil]
  exact h.of_run hr

/-- **Invariant rule.** What holds first and is kept by every step `ok` allows holds at the end of
every run whose steps are all allowed. -/
theorem run_invariant {I : σ → Prop} {ok : σ → α → Prop}
    (hstep : ∀ s a s', I s → ok s a → S.step s a = some s' → I s') :
    ∀ {as : List α} {s t : σ}, I s → S.Steps ok s as → S.run s as = some t → I t := by
  intro as
  induction as with
  | nil =>
    intro s t hI _ hr
    rw [run_nil, Option.some.injEq] at hr
    exact hr ▸ hI
  | cons a as ih =>
    intro s t hI hok hr
    obtain ⟨s', hs, hr⟩ := run_cons_some.1 hr
    exact ih (hstep s a s' hI hok.1 hs) (hok.2 s' hs) hr

/-- The invariant rule where every step is allowed. -/
theorem run_keeps {I : σ → Prop} (hstep : ∀ s a s', I s → S.step s a = some s' → I s') :
    ∀ {as : List α} {s t : σ}, I s → S.run s as = some t → I t := by
  intro as
  induction as with
  | nil =>
    intro s t hI hr
    rw [run_nil, Option.some.injEq] at hr
    exact hr ▸ hI
  | cons a as ih =>
    intro s t hI hr
    obtain ⟨s', hs, hr⟩ := run_cons_some.1 hr
    exact ih (hstep s a s' hI hs) hr

/-- The invariant rule for what is said of a state and of the steps that led there. -/
theorem run_traced {I : List α → σ → Prop} {ok : σ → α → Prop} (h0 : I [] S.init)
    (hstep : ∀ as s a s', S.run S.init as = some s → I as s → ok s a →
      S.step s a = some s' →
      I (as ++ [a]) s') {as : List α} {t : σ} (hok : S.Steps ok S.init as)
    (hr : S.run S.init as = some t) : I as t := by
  have hrest (bs : List α) : ∀ (as : List α) (s : σ), S.run S.init as = some s → I as s →
      S.Steps ok s bs → S.run s bs = some t → I (as ++ bs) t := by
    induction bs with
    | nil =>
      intro as s _ hI _ hr
      obtain rfl := Option.some.inj hr
      rwa [List.append_nil]
    | cons b bs ih =>
      intro as s has hI hok hr
      obtain ⟨s', hs, hr⟩ := run_cons_some.1 hr
      have has' : S.run S.init (as ++ [b]) = some s' := by
        rw [run_append_eq _ has, run_cons_eq hs, run_nil]
      have hI' := ih (as ++ [b]) s' has' (hstep as s b s' has hI hok.1 hs) (hok.2 s' hs) hr
      rwa [List.append_assoc] at hI'
  exact hrest as [] S.init rfl h0 hok hr

theorem Reachable.invariant {I : σ → Prop} {s : σ} (h : S.Reachable s) (h0 : I S.init)
    (hstep : ∀ s a s', I s → S.step s a = some s' → I s') : I s := by
  obtain ⟨as, hr⟩ := h
  exact run_keeps hstep h0 hr

/-- **Simulation rule.** Where every step from a state that `R` relates to a reachable one is
answered there by a run, so is every run. -/
theorem run_simulated {τ β : Type*} {T : System τ β} {R : σ → τ → Prop}
    (hstep : ∀ s a s' t, R s t → T.Reachable t → S.step s a = some s' →
      ∃ bs t', T.run t bs = some t' ∧ R s' t') {as : List α} {s s' : σ} {t : τ} (hR : R s t)
    (ht : T.Reachable t) (hr : S.run s as = some s') :
      ∃ bs t', T.run t bs = some t' ∧ R s' t' := by
  induction as generalizing s t with
  | nil =>
    obtain rfl := Option.some.inj hr
    exact ⟨[], t, rfl, hR⟩
  | cons a as ih =>
    obtain ⟨s₁, hs, hr⟩ := run_cons_some.1 hr
    obtain ⟨bs, t₁, hrun, hR₁⟩ := hstep s a s₁ t hR ht hs
    obtain ⟨bs', t', hrun', hR'⟩ := ih hR₁ (ht.of_run hrun) hr
    exact ⟨bs ++ bs', t', by rw [run_append_eq _ hrun, hrun'], hR'⟩

/-! ## Properties of all steps -/

theorem Steps.mono {P P' : σ → α → Prop} (h : ∀ s a, P s a → P' s a) :
    ∀ {as : List α} {s : σ}, S.Steps P s as → S.Steps P' s as := by
  intro as
  induction as with
  | nil => intro _ _; trivial
  | cons a as ih => intro s hs; exact ⟨h s a hs.1, fun s' hs' => ih (hs.2 s' hs')⟩

theorem steps_true (as : List α) (s : σ) : S.Steps (fun _ _ => True) s as := by
  induction as generalizing s with
  | nil => trivial
  | cons a as ih => exact ⟨trivial, fun s' _ => ih s'⟩

theorem steps_and {P P' : σ → α → Prop} :
    ∀ {as : List α} {s : σ}, S.Steps P s as → S.Steps P' s as →
      S.Steps (fun s a => P s a ∧ P' s a) s as := by
  intro as
  induction as with
  | nil => intro _ _ _; trivial
  | cons a as ih =>
    intro s h h'
    exact ⟨⟨h.1, h'.1⟩, fun s' hs' => ih (h.2 s' hs') (h'.2 s' hs')⟩

/-- Along a run whose steps are all allowed, a step property holds that holds of every step from a
state with `I`. -/
theorem steps_of_invariant {I : σ → Prop} {ok P : σ → α → Prop}
    (hkeep : ∀ s a s', I s → ok s a → S.step s a = some s' → I s')
    (hP : ∀ s a, I s → P s a) : ∀ {as : List α} {s : σ}, I s → S.Steps ok s as →
    S.Steps P s as := by
  intro as
  induction as with
  | nil => intro _ _ _; trivial
  | cons a as ih =>
    intro s hI hok
    exact ⟨hP s a hI, fun s' hs => ih (hkeep s a s' hI hok.1 hs) (hok.2 s' hs)⟩

theorem Steps.of_append {P : σ → α → Prop} {as bs : List α} :
    ∀ {s t : σ}, S.Steps P s (as ++ bs) → S.run s as = some t → S.Steps P t bs := by
  induction as with
  | nil =>
    intro s t h hr
    rw [run_nil, Option.some.injEq] at hr
    exact hr ▸ h
  | cons a as ih =>
    intro s t h hr
    obtain ⟨s', hs, hr⟩ := run_cons_some.1 hr
    exact ih (h.2 s' hs) hr

theorem Steps.append {P : σ → α → Prop} {as bs : List α} :
    ∀ {s t : σ}, S.Steps P s as → S.run s as = some t → S.Steps P t bs →
      S.Steps P s (as ++ bs) := by
  induction as with
  | nil =>
    intro s t _ hr h
    rw [run_nil, Option.some.injEq] at hr
    exact hr ▸ h
  | cons a as ih =>
    intro s t hs hr h
    obtain ⟨s', hs', hr⟩ := run_cons_some.1 hr
    refine ⟨hs.1, fun s'' hs'' => ?_⟩
    obtain rfl : s' = s'' := Option.some.inj (hs'.symm.trans hs'')
    exact ih (hs.2 s' hs') hr h

/-- Two step properties that agree in every reachable state hold along the same runs. -/
theorem steps_congr {P P' : σ → α → Prop}
    (h : ∀ s a, S.Reachable s → (P s a ↔ P' s a)) :
    ∀ {as : List α} {s : σ}, S.Reachable s → (S.Steps P s as ↔ S.Steps P' s as) := by
  intro as
  induction as with
  | nil => intro s _; exact Iff.rfl
  | cons a as ih =>
    intro s hs
    exact and_congr (h s a hs) (forall₂_congr fun s' hs' => ih (hs.step hs'))

/-- Along a run that keeps `I` as long as its steps are allowed, "every state visited satisfies
`Q`" and "every step taken is allowed" are the same, when they are the same for one step. -/
theorem states_iff_steps {I Q : σ → Prop} {ok : σ → α → Prop}
    (hkeep : ∀ s a s', I s → ok s a → S.step s a = some s' → I s')
    (hiff : ∀ s a s', I s → S.step s a = some s' → (Q s' ↔ ok s a)) :
    ∀ {as : List α} {s t : σ}, I s → S.run s as = some t →
      (S.States Q s as ↔ S.Steps ok s as) := by
  intro as
  induction as with
  | nil => intro s t _ _; exact Iff.rfl
  | cons a as ih =>
    intro s t hI hr
    obtain ⟨s', hs, hr⟩ := run_cons_some.1 hr
    constructor
    · intro h
      have hok := (hiff s a s' hI hs).1 (h s' hs).1
      refine ⟨hok, fun s'' hs'' => ?_⟩
      obtain rfl : s' = s'' := Option.some.inj (hs.symm.trans hs'')
      exact (ih (hkeep s a s' hI hok hs) hr).1 (h s' hs).2
    · rintro ⟨hok, h⟩ s'' hs''
      obtain rfl : s' = s'' := Option.some.inj (hs.symm.trans hs'')
      exact ⟨(hiff s a s' hI hs).2 hok, (ih (hkeep s a s' hI hok hs) hr).2 (h s' hs)⟩

/-! ## Runs that end -/

/-- Every run from `s` ends, and where it cannot go on `Q` holds. -/
def Completes (S : System σ α) (s : σ) (Q : σ → Prop) : Prop :=
  ∃ n, ∀ as t, S.run s as = some t → as.length ≤ n ∧ ((∀ a, S.step t a = none) → Q t)

theorem Completes.mono {s : σ} {Q Q' : σ → Prop} (h : S.Completes s Q)
    (hq : ∀ t, Q t → Q' t) :
    S.Completes s Q' := by
  obtain ⟨n, hn⟩ := h
  exact ⟨n, fun as t hr => ⟨(hn as t hr).1, fun hstuck => hq t ((hn as t hr).2 hstuck)⟩⟩

theorem Completes.and {s : σ} {Q Q' : σ → Prop} (h : S.Completes s Q) (h' : S.Completes s Q') :
    S.Completes s fun t => Q t ∧ Q' t := by
  obtain ⟨n, hn⟩ := h
  obtain ⟨_, hn'⟩ := h'
  exact ⟨n, fun as t hr => ⟨(hn as t hr).1,
    fun hstuck => ⟨(hn as t hr).2 hstuck, (hn' as t hr).2 hstuck⟩⟩⟩

/-- One step more. -/
theorem Completes.of_step {s : σ} {Q : σ → Prop} {n : ℕ}
    (hq : (∀ a, S.step s a = none) → Q s)
    (h : ∀ a s', S.step s a = some s' → ∀ as t, S.run s' as = some t →
      as.length ≤ n ∧ ((∀ a, S.step t a = none) → Q t)) : S.Completes s Q := by
  refine ⟨n + 1, fun as t hr => ?_⟩
  cases as with
  | nil =>
    rw [run_nil, Option.some.injEq] at hr
    exact ⟨Nat.zero_le _, hr ▸ hq⟩
  | cons a as =>
    obtain ⟨s', hs, hr⟩ := run_cons_some.1 hr
    obtain ⟨hlen, ht⟩ := h a s' hs as t hr
    exact ⟨Nat.succ_le_succ hlen, ht⟩

/-- Where the steps that count make `μ` smaller and the others do not make it larger, a run has no
more than `μ` of them. -/
theorem run_countP_le {I : σ → Prop} {μ : σ → ℕ} {counts : α → Bool}
    (hstep : ∀ s a s', I s → S.step s a = some s' → I s' ∧
      μ s' + (counts a).toNat ≤ μ s) :
    ∀ {as : List α} {s t : σ}, I s → S.run s as = some t → I t ∧
      μ t + as.countP counts ≤ μ s := by
  intro as
  induction as with
  | nil =>
    intro s t hI hr
    rw [run_nil, Option.some.injEq] at hr
    exact ⟨hr ▸ hI, hr ▸ Nat.le_refl _⟩
  | cons a as ih =>
    intro s t hI hr
    obtain ⟨s', hs, hr⟩ := run_cons_some.1 hr
    obtain ⟨hI', hle⟩ := hstep s a s' hI hs
    obtain ⟨hIt, hle'⟩ := ih hI' hr
    refine ⟨hIt, ?_⟩
    rw [List.countP_cons]
    cases ha : counts a <;> rw [ha] at hle <;> simp at hle ⊢ <;> omega

/-- Where only one state can come next, it completes if that one does. -/
theorem Completes.of_next {s s' : σ} {Q : σ → Prop} {a : α} (hs : S.step s a = some s')
    (hnext : ∀ b t, S.step s b = some t → t = s') (h : S.Completes s' Q) : S.Completes s Q := by
  obtain ⟨n, hn⟩ := h
  refine .of_step (n := n) (fun hstuck => ?_) fun b t ht => ?_
  · cases (hstuck a).symm.trans hs
  · rw [hnext b t ht]
    exact hn

/-- Where every step makes `μ` smaller, every run ends. -/
theorem Completes.of_measure {I Q : σ → Prop} (μ : σ → ℕ)
    (hstep : ∀ s a s', I s → S.step s a = some s' → I s' ∧ μ s' < μ s)
    (hq : ∀ s, I s → (∀ a, S.step s a = none) → Q s) {s : σ} (hI : I s) :
    S.Completes s Q := by
  refine ⟨μ s, fun as => ?_⟩
  induction as generalizing s with
  | nil =>
    intro t hr
    rw [run_nil, Option.some.injEq] at hr
    exact ⟨Nat.zero_le _, hr ▸ hq s hI⟩
  | cons a as ih =>
    intro t hr
    obtain ⟨s', hs, hr⟩ := run_cons_some.1 hr
    obtain ⟨hI', hlt⟩ := hstep s a s' hI hs
    obtain ⟨hlen, ht⟩ := ih hI' t hr
    refine ⟨?_, ht⟩
    rw [List.length_cons]
    exact Nat.succ_le_of_lt (Nat.lt_of_le_of_lt hlen hlt)

/-- Where every run ends, some run does. -/
theorem Completes.exists_end {s : σ} {Q : σ → Prop} (h : S.Completes s Q) :
    ∃ as t, S.run s as = some t ∧ Q t := by
  obtain ⟨n, hn⟩ := h
  have hrun (k : ℕ) (as : List α) (t : σ) (hr : S.run s as = some t)
      (hk : n - as.length ≤ k) :
      ∃ as t, S.run s as = some t ∧ Q t := by
    induction k generalizing as t with
    | zero =>
      refine ⟨as, t, hr, (hn as t hr).2 fun a => ?_⟩
      by_contra hne
      obtain ⟨t', ht⟩ := Option.ne_none_iff_exists'.1 hne
      have hlen := (hn (as ++ [a]) t' (by rw [run_append_eq _ hr, run_cons_eq ht, run_nil])).1
      rw [List.length_append, List.length_singleton] at hlen
      omega
    | succ k ih =>
      by_cases hstuck : ∀ a, S.step t a = none
      · exact ⟨as, t, hr, (hn as t hr).2 hstuck⟩
      · obtain ⟨a, hne⟩ := not_forall.1 hstuck
        obtain ⟨t', ht⟩ := Option.ne_none_iff_exists'.1 hne
        refine ih (as ++ [a]) t' (by rw [run_append_eq _ hr, run_cons_eq ht, run_nil]) ?_
        rw [List.length_append, List.length_singleton]
        omega
  exact hrun n [] s rfl (Nat.sub_le _ _)

/-! ## Some of the steps -/

/-- The system with only the steps that `ok` allows. -/
def restrict (S : System σ α) (ok : σ → α → Prop) [∀ s a, Decidable (ok s a)] :
    System σ α :=
  ⟨S.init, fun s a => if ok s a then S.step s a else none⟩

theorem restrict_step {ok : σ → α → Prop} [∀ s a, Decidable (ok s a)] {s s' : σ} {a : α} :
    (S.restrict ok).step s a = some s' ↔ ok s a ∧ S.step s a = some s' := by
  show (if ok s a then S.step s a else none) = some s' ↔ _
  by_cases h : ok s a
  · rw [if_pos h, and_iff_right h]
  · rw [if_neg h]
    exact ⟨nofun, fun hs => absurd hs.1 h⟩

theorem restrict_stuck {ok : σ → α → Prop} [∀ s a, Decidable (ok s a)] {s : σ}
    (h : ∀ a, (S.restrict ok).step s a = none) {a : α} (hok : ok s a) : S.step s a = none := by
  have ha : (if ok s a then S.step s a else none) = none := h a
  rwa [if_pos hok] at ha

/-! ## From one system to another -/

section map

variable {τ : Type*} {T : System τ α} {f : σ → τ}

/-- Where `f` takes steps to steps, it takes runs to runs. -/
theorem run_map (h : ∀ s a, T.step (f s) a = (S.step s a).map f) :
    ∀ (as : List α) (s : σ), T.run (f s) as = (S.run s as).map f := by
  intro as
  induction as with
  | nil => intro s; rfl
  | cons a as ih =>
    intro s
    rw [run_cons, run_cons, h s a]
    cases S.step s a with
    | none => rfl
    | some s' => exact ih s'

theorem steps_map (h : ∀ s a, T.step (f s) a = (S.step s a).map f) {P : τ → α → Prop} :
    ∀ (as : List α) (s : σ), T.Steps P (f s) as ↔ S.Steps (fun s a => P (f s) a) s as := by
  intro as
  induction as with
  | nil => intro s; exact Iff.rfl
  | cons a as ih =>
    intro s
    refine and_congr_right fun _ => ?_
    rw [h s a]
    constructor
    · intro hs s' hs'
      exact (ih s').1 (hs (f s') (by rw [hs', Option.map_some]))
    · intro hs t ht
      obtain ⟨s', hs', rfl⟩ := Option.map_eq_some_iff.1 ht
      exact (ih s').2 (hs s' hs')

theorem states_map (h : ∀ s a, T.step (f s) a = (S.step s a).map f) {Q : τ → Prop} :
    ∀ (as : List α) (s : σ), T.States Q (f s) as ↔ S.States (fun s => Q (f s)) s as := by
  intro as
  induction as with
  | nil => intro s; exact Iff.rfl
  | cons a as ih =>
    intro s
    show (∀ t, T.step (f s) a = some t → _) ↔ ∀ s', S.step s a = some s' → _
    rw [h s a]
    constructor
    · intro hs s' hs'
      obtain ⟨hq, hs⟩ := hs (f s') (by rw [hs', Option.map_some])
      exact ⟨hq, (ih s').1 hs⟩
    · intro hs t ht
      obtain ⟨s', hs', rfl⟩ := Option.map_eq_some_iff.1 ht
      exact ⟨(hs s' hs').1, (ih s').2 (hs s' hs').2⟩

end map

end System

/-! ## The parties of a system -/

theorem getElem?_concat_cases {α : Type*} {l : List α} {x y : α} {k : ℕ}
    (h : (l ++ [x])[k]? = some y) : l[k]? = some y ∨ k = l.length ∧ y = x := by
  rcases Nat.lt_or_ge k l.length with hk | hk
  · exact Or.inl ((List.getElem?_append_left hk).symm.trans h)
  · rw [List.getElem?_append_right hk] at h
    have hlt := (List.getElem?_eq_some_iff.1 h).1
    rw [List.length_singleton] at hlt
    have hzero : k - l.length = 0 := by omega
    rw [hzero] at h
    exact Or.inr ⟨by omega, (Option.some.inj h).symm⟩

/-- One that was set, or that was there before. -/
theorem getElem?_set_cases {α : Type*} {l : List α} {x y : α} {i j : ℕ}
    (h : (l.set i x)[j]? = some y) : j = i ∧ y = x ∨ j ≠ i ∧ l[j]? = some y := by
  by_cases hij : j = i
  · subst hij
    have hlt := (List.getElem?_eq_some_iff.1 h).1
    rw [List.length_set] at hlt
    rw [List.getElem?_set_self hlt] at h
    exact Or.inl ⟨rfl, (Option.some.inj h).symm⟩
  · exact Or.inr ⟨hij, (List.getElem?_set_ne (Ne.symm hij)).symm.trans h⟩

end Runs
