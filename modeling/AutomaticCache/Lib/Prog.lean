import Mathlib.Logic.Basic
import Mathlib.Data.List.Basic
import Mathlib.Order.Lattice.Nat

/-!
# Programs over operations

A `Prog ι ρ α` asks for operations `i : ι`, each answered with a `ρ i`, and ends with an `α`.
Nothing is said of what an operation does: `exec` runs a program in a world of its own, and a system
may run many of them against each other, one operation at a time. `exec_bind` takes a program apart
in a world.

What a program asks for in any world is read off it: `Only` bounds its operations, `Must` names one
that it does not end without, `Returns` bounds what it ends with, and `Within` how many operations
there are. `Traced` says the same of a program and of what is recorded of it so far, which every
operation keeps.
-/

/-- A program that ends with an `α`, and until then asks for operations. -/
inductive Prog (ι : Type) (ρ : ι → Type) (α : Type)
  | ret (a : α)
  | op (i : ι) (next : ρ i → Prog ι ρ α)

namespace Prog

variable {ι : Type} {ρ : ι → Type} {α β : Type}

def bind : Prog ι ρ α → (α → Prog ι ρ β) → Prog ι ρ β
  | ret a, f => f a
  | op i next, f => op i fun r => (next r).bind f

instance : Monad (Prog ι ρ) where
  pure := ret
  bind := bind

/-- One operation. -/
def perform (i : ι) : Prog ι ρ (ρ i) := op i ret

@[simp] theorem pure_eq (a : α) : (pure a : Prog ι ρ α) = ret a := rfl

@[simp] theorem ret_bind (a : α) (f : α → Prog ι ρ β) : ret a >>= f = f a := rfl

@[simp] theorem op_bind (i : ι) (next : ρ i → Prog ι ρ α) (f : α → Prog ι ρ β) :
    op i next >>= f = op i fun r => next r >>= f := rfl

@[simp] theorem perform_bind (i : ι) (f : ρ i → Prog ι ρ β) : perform i >>= f = op i f := rfl

theorem bind_ret (p : Prog ι ρ α) : p >>= ret = p := by
  induction p with
  | ret a => rfl
  | op i next ih => rw [op_bind]; congr 1; funext r; exact ih r

theorem bind_assoc {γ : Type} (p : Prog ι ρ α) (f : α → Prog ι ρ β)
    (g : β → Prog ι ρ γ) :
    p >>= f >>= g = p >>= fun a => f a >>= g := by
  induction p with
  | ret a => rfl
  | op i next ih => simp only [op_bind, ih]

/-! ## One world -/

/-- The program in a world of type `ω` that answers every operation and is changed by it. -/
def exec {ω : Type} (h : (i : ι) → ω → ρ i × ω) : Prog ι ρ α → ω → α × ω
  | ret a, w => (a, w)
  | op i next, w => exec h (next (h i w).1) (h i w).2

section exec

variable {ω : Type} (h : (i : ι) → ω → ρ i × ω) (w : ω)

@[simp] theorem exec_ret (a : α) : exec h (ret a : Prog ι ρ α) w = (a, w) := rfl

theorem exec_op (i : ι) (next : ρ i → Prog ι ρ α) :
    exec h (op i next) w = exec h (next (h i w).1) (h i w).2 := rfl

theorem exec_bind (p : Prog ι ρ α) (f : α → Prog ι ρ β) :
    exec h (p >>= f) w = exec h (f (exec h p w).1) (exec h p w).2 := by
  induction p generalizing w with
  | ret a => rfl
  | op i next ih => rw [op_bind, exec_op, exec_op, ih]

/-- The world with a record of what was asked and answered. -/
def recording (h : (i : ι) → ω → ρ i × ω) :
    (i : ι) → ω × List (Σ i, ρ i) → ρ i × (ω × List (Σ i, ρ i)) :=
  fun i w => ((h i w.1).1, (h i w.1).2, w.2 ++ [⟨i, (h i w.1).1⟩])

/-- What every operation keeps holds at the end. -/
theorem exec_invariant {I : Prog ι ρ α → ω → Prop}
    (hstep : ∀ i next w, I (.op i next) w → I (next (h i w).1) (h i w).2)
    {p : Prog ι ρ α} {w : ω} (hI : I p w) : I (.ret (p.exec h w).1) (p.exec h w).2 := by
  induction p generalizing w with
  | ret a => exact hI
  | op i next ih => exact ih _ (hstep i next w hI)

/-- What was recorded stays. -/
theorem exec_recording_prefix (p : Prog ι ρ α) (w : ω × List (Σ i, ρ i)) :
    w.2 <+: (p.exec (recording h) w).2.2 := by
  induction p generalizing w with
  | ret a => exact List.prefix_rfl
  | op i next ih =>
    exact (List.prefix_append w.2 [⟨i, (h i w.1).1⟩]).trans (ih (h i w.1).1 (recording h i w).2)

end exec

/-! ## What a program asks for -/

/-- It asks for operations with `P` only. -/
inductive Only (P : ι → Prop) : Prog ι ρ α → Prop
  | ret (a : α) : Only P (.ret a)
  | op {i : ι} {next : ρ i → Prog ι ρ α} (hi : P i) (hnext : ∀ r, Only P (next r)) :
    Only P (.op i next)

theorem Only.bind {P : ι → Prop} {p : Prog ι ρ α} {f : α → Prog ι ρ β} (hp : p.Only P)
    (hf : ∀ a, (f a).Only P) : (p >>= f).Only P := by
  induction hp with
  | ret a => exact hf a
  | op hi _ ih => exact .op hi ih

/-- Two worlds that answer the same operations alike, as long as `R` relates them, are alike to a
program that asks for no others. -/
theorem Only.exec {ω τ : Type} {P : ι → Prop} {p : Prog ι ρ α} (hp : p.Only P)
    {h : (i : ι) → ω → ρ i × ω} {g : (i : ι) → τ → ρ i × τ}
    {R : ω → τ → Prop} (hR : ∀ i w w', P i → R w w' → (h i w).1 = (g i w').1 ∧
      R (h i w).2 (g i w').2) {w : ω} {w' : τ}
    (hw : R w w') : (p.exec h w).1 = (p.exec g w').1 ∧ R (p.exec h w).2 (p.exec g w').2 := by
  induction hp generalizing w w' with
  | ret a => exact ⟨rfl, hw⟩
  | @op i next hi _ ih =>
    obtain ⟨hans, hw⟩ := hR i w w' hi hw
    rw [exec_op, exec_op, hans]
    exact ih _ hw

theorem Only.mono {P P' : ι → Prop} (hP : ∀ i, P i → P' i) {p : Prog ι ρ α}
    (hp : p.Only P) :
    p.Only P' := by
  induction hp with
  | ret a => exact .ret a
  | op hi _ ih => exact .op (hP _ hi) ih

/-- It does not end without an operation with `P`. -/
inductive Must (P : ι → Prop) : Prog ι ρ α → Prop
  | here {i : ι} {next : ρ i → Prog ι ρ α} (hi : P i) : Must P (.op i next)
  | later {i : ι} {next : ρ i → Prog ι ρ α} (hnext : ∀ r, Must P (next r)) :
    Must P (.op i next)

theorem Must.bind {P : ι → Prop} (p : Prog ι ρ α) {f : α → Prog ι ρ β}
    (hf : ∀ a, (f a).Must P) :
    (p >>= f).Must P := by
  induction p with
  | ret a => exact hf a
  | op i next ih => exact .later ih

/-- It asks for an operation with `P` once at most. -/
inductive AtMostOnce (P : ι → Prop) : Prog ι ρ α → Prop
  | never {p : Prog ι ρ α} (hp : p.Only fun i => ¬P i) : AtMostOnce P p
  | later {i : ι} {next : ρ i → Prog ι ρ α} (hi : ¬P i)
    (hnext : ∀ r, AtMostOnce P (next r)) :
    AtMostOnce P (.op i next)
  | once {i : ι} {next : ρ i → Prog ι ρ α} (hi : P i)
    (hnext : ∀ r, (next r).Only fun i => ¬P i) :
    AtMostOnce P (.op i next)

/-- Once in the first part of a program, and then no more. -/
theorem AtMostOnce.bind {P : ι → Prop} {p : Prog ι ρ α} {f : α → Prog ι ρ β}
    (hp : p.AtMostOnce P) (hf : ∀ a, (f a).Only fun i => ¬P i) : (p >>= f).AtMostOnce P := by
  induction hp with
  | never hp => exact .never (hp.bind hf)
  | later hi _ ih => exact .later hi ih
  | once hi hnext => exact .once hi fun r => (hnext r).bind hf

/-- Not in the first part of a program, and then once. -/
theorem AtMostOnce.after {P : ι → Prop} {p : Prog ι ρ α} {f : α → Prog ι ρ β}
    (hp : p.Only fun i => ¬P i) (hf : ∀ a, (f a).AtMostOnce P) : (p >>= f).AtMostOnce P := by
  induction hp with
  | ret a => exact hf a
  | op hi _ ih => exact .later hi ih

/-- It ends with a value with `Q` only. -/
inductive Returns (Q : α → Prop) : Prog ι ρ α → Prop
  | ret {a : α} (ha : Q a) : Returns Q (.ret a)
  | op {i : ι} {next : ρ i → Prog ι ρ α} (hnext : ∀ r, Returns Q (next r)) :
    Returns Q (.op i next)

theorem Returns.of_forall {Q : α → Prop} (hQ : ∀ a, Q a) (p : Prog ι ρ α) :
    p.Returns Q := by
  induction p with
  | ret a => exact .ret (hQ a)
  | op i next ih => exact .op ih

theorem Returns.bind {Q : α → Prop} {R : β → Prop} {p : Prog ι ρ α}
    {f : α → Prog ι ρ β} (hp : p.Returns Q) (hf : ∀ a, Q a → (f a).Returns R) :
    (p >>= f).Returns R := by
  induction hp with
  | ret ha => exact hf _ ha
  | op _ ih => exact .op ih

theorem Returns.mono {Q R : α → Prop} (hQ : ∀ a, Q a → R a) {p : Prog ι ρ α}
    (hp : p.Returns Q) :
    p.Returns R := by
  induction hp with
  | ret ha => exact .ret (hQ _ ha)
  | op _ ih => exact .op ih

theorem Returns.exec {ω : Type} {Q : α → Prop} {p : Prog ι ρ α} (hp : p.Returns Q)
    (h : (i : ι) → ω → ρ i × ω) (w : ω) : Q (p.exec h w).1 := by
  induction hp generalizing w with
  | ret ha => exact ha
  | op _ ih => exact ih _ _

/-- What the rest of a program asks for may depend on how the first part can end. -/
theorem Only.bind_of_returns {P : ι → Prop} {Q : α → Prop} {p : Prog ι ρ α}
    {f : α → Prog ι ρ β} (hp : p.Only P) (hret : p.Returns Q)
    (hf : ∀ a, Q a → (f a).Only P) : (p >>= f).Only P := by
  induction hp with
  | ret a =>
    cases hret with
    | ret ha => exact hf a ha
  | op hi _ ih =>
    cases hret with
    | op hnext => exact .op hi fun r => ih r (hnext r)

/-- A program and a world that records it: all it asked for and will ask for is with `P`, and with
`C` is something that it asked for or must ask for. -/
structure Traced {ω : Type} (P C : ι → Prop) (p : Prog ι ρ α) (w : ω × List (Σ i, ρ i)) :
    Prop where
  only : p.Only P
  asked : ∀ e ∈ w.2, P e.1
  must : p.Must C ∨ ∃ e ∈ w.2, C e.1

theorem Traced.op {ω : Type} {P C : ι → Prop} (h : (i : ι) → ω → ρ i × ω) {i : ι}
    {next : ρ i → Prog ι ρ α} {w : ω × List (Σ i, ρ i)} (ht : Traced P C (.op i next) w) :
    Traced P C (next (recording h i w).1) (recording h i w).2 := by
  obtain ⟨honly, hasked, hmust⟩ := ht
  cases honly with
  | op hi hnext =>
    refine ⟨hnext _, fun e he => ?_, ?_⟩
    · rcases List.mem_append.1 he with he | he
      · exact hasked e he
      · obtain rfl := List.mem_singleton.1 he
        exact hi
    · rcases hmust with hmust | ⟨e, he, hC⟩
      · cases hmust with
        | here hC => exact Or.inr ⟨_, List.mem_append_right _ List.mem_cons_self, hC⟩
        | later hmust => exact Or.inl (hmust _)
      · exact Or.inr ⟨e, List.mem_append_left _ he, hC⟩

/-- Once it has ended, it has asked for what it must. -/
theorem Traced.ended {ω : Type} {P C : ι → Prop} {a : α} {w : ω × List (Σ i, ρ i)}
    (ht : Traced P C (.ret a : Prog ι ρ α) w) : ∃ e ∈ w.2, C e.1 := by
  rcases ht.must with hmust | h
  · cases hmust
  · exact h

/-! ## How long a program is -/

/-- It ends after `n` operations at most, whatever they are answered. -/
inductive Within : ℕ → Prog ι ρ α → Prop
  | ret (n : ℕ) (a : α) : Within n (.ret a)
  | op {n : ℕ} {i : ι} {next : ρ i → Prog ι ρ α} (hnext : ∀ r, Within n (next r)) :
    Within (n + 1) (.op i next)

theorem Within.mono {m n : ℕ} (hmn : m ≤ n) {p : Prog ι ρ α} (hp : p.Within m) :
    p.Within n := by
  induction hp generalizing n with
  | ret m a => exact .ret n a
  | @op m i next _ ih =>
    obtain ⟨k, rfl⟩ : ∃ k, n = k + 1 := ⟨n - 1, by omega⟩
    exact .op fun r => ih r (by omega)

theorem Within.bind {m n : ℕ} {p : Prog ι ρ α} {f : α → Prog ι ρ β} (hp : p.Within m)
    (hf : ∀ a, (f a).Within n) : (p >>= f).Within (m + n) := by
  induction hp with
  | ret m a => exact (hf a).mono (Nat.le_add_left n m)
  | @op m i next _ ih =>
    have heq : m + 1 + n = m + n + 1 := by omega
    rw [heq]
    exact .op ih

theorem within_op {n : ℕ} {i : ι} {next : ρ i → Prog ι ρ α} (h : (op i next).Within n) :
    ∃ m, n = m + 1 ∧ ∀ r, (next r).Within m := by
  cases h with
  | op hnext => exact ⟨_, rfl, hnext⟩

/-- How many operations it asks for at most, where there is a bound. -/
noncomputable def depth (p : Prog ι ρ α) : ℕ := sInf {n | p.Within n}

/-- Each operation leaves fewer. -/
theorem depth_lt {n : ℕ} {i : ι} {next : ρ i → Prog ι ρ α}
    (h : (op i next).Within n) (r : ρ i) :
    (next r).depth < (op i next).depth := by
  have hmem : (op i next).Within (op i next).depth :=
    Nat.sInf_mem (s := {n | (op i next).Within n}) ⟨n, h⟩
  obtain ⟨m, hm, hnext⟩ := within_op hmem
  rw [hm]
  exact Nat.lt_succ_of_le (Nat.sInf_le (hnext r))

theorem Within.depth_le {n : ℕ} {p : Prog ι ρ α} (h : p.Within n) : p.depth ≤ n :=
  Nat.sInf_le h

/-! ## With an end of its own -/

/-- The program, with `rest` for what it does from the first operation on that `stop` picks. -/
def cut (stop : ι → Bool) (rest : Prog ι ρ α) : Prog ι ρ α → Prog ι ρ α
  | ret a => ret a
  | op i next => if stop i then rest else op i fun r => cut stop rest (next r)

/-! ## Machines -/

/-- What comes next: the end, or an operation and the state after its answer. -/
inductive Next (ι : Type) (ρ : ι → Type) (α ς : Type)
  | ret (a : α)
  | op (i : ι) (next : ρ i → ς)

/-- The first step of a program. -/
def next : Prog ι ρ α → Next ι ρ α (Prog ι ρ α)
  | ret a => .ret a
  | op i k => .op i k

variable {ς τ : Type}

def Next.map (f : ς → τ) : Next ι ρ α ς → Next ι ρ α τ
  | .ret a => .ret a
  | .op i k => .op i fun r => f (k r)

end Prog
