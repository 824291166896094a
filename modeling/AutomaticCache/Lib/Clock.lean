import AutomaticCache.Lib.Prog
import Mathlib.Data.Int.Notation

/-!
# Programs that read a clock

A program may read a clock between its operations. `Erases` relates it to a program without a clock
that asks for the same operations: in every world, whatever the clock shows, both leave the world
the same (`Erases.exec`).

`Ends` is what can be said of a program of which only that is known, that its clock does not go
back: `Ends.exec` says it of every such clock.
-/

namespace Clock

variable {ι : Type} {ρ : ι → Type} {α α' β β' ω χ : Type}

inductive Timed (ι : Type)
  | op (i : ι)
  | now

abbrev Timed.Ans (ρ : ι → Type) : Timed ι → Type
  | .op i => ρ i
  | .now => ℤ

abbrev TimedM (ι : Type) (ρ : ι → Type) := Prog (Timed ι) (Timed.Ans ρ)

def operation (i : ι) : TimedM ι ρ (ρ i) := .op (.op i) .ret

def now : TimedM ι ρ ℤ := .op .now .ret

/-- The world with a clock of its own. -/
def clocked (h : (i : ι) → ω → ρ i × ω) (tick : χ → ℤ × χ) :
    (i : Timed ι) → ω × χ → Timed.Ans ρ i × (ω × χ)
  | .op i, (w, clock) => ((h i w).1, (h i w).2, clock)
  | .now, (w, clock) => ((tick clock).1, w, (tick clock).2)

/-- The clock after `n` looks. -/
def after (tick : χ → ℤ × χ) : ℕ → χ → χ
  | 0, clock => clock
  | n + 1, clock => after tick n (tick clock).2

/-- What look number `n` shows. -/
def reading (tick : χ → ℤ × χ) (clock : χ) (n : ℕ) : ℤ := (tick (after tick n clock)).1

theorem after_add (tick : χ → ℤ × χ) (m n : ℕ) (clock : χ) :
    after tick (n + m) clock = after tick n (after tick m clock) := by
  induction m generalizing clock with
  | zero => rfl
  | succ m ih => exact ih (tick clock).2

/-- The programs ask for the same operations, but for the clock, and end with what `R` relates. -/
inductive Erases (R : α → β → Prop) : TimedM ι ρ α → Prog ι ρ β → Prop
  | ret {a : α} {b : β} (h : R a b) : Erases R (.ret a) (.ret b)
  | op (i : ι) {next : ρ i → TimedM ι ρ α} {next' : ρ i → Prog ι ρ β}
    (h : ∀ r, Erases R (next r) (next' r)) : Erases R (.op (.op i) next) (.op i next')
  | now {next : ℤ → TimedM ι ρ α} {p : Prog ι ρ β} (h : ∀ t, Erases R (next t) p) :
    Erases R (.op .now next) p

variable {R : α → β → Prop} {R' : α' → β' → Prop}

theorem Erases.bind {p : TimedM ι ρ α} {q : Prog ι ρ β} (h : Erases R p q)
    {f : α → TimedM ι ρ α'} {g : β → Prog ι ρ β'}
    (hf : ∀ a b, R a b → Erases R' (f a) (g b)) :
    Erases R' (p >>= f) (q >>= g) := by
  induction h with
  | ret h => exact hf _ _ h
  | op i h ih => exact .op i ih
  | now h ih => exact .now ih

theorem Erases.mono {S : α → β → Prop} (hR : ∀ a b, R a b → S a b) {p : TimedM ι ρ α}
    {q : Prog ι ρ β} (h : Erases R p q) : Erases S p q := by
  induction h with
  | ret h => exact .ret (hR _ _ h)
  | op i h ih => exact .op i ih
  | now h ih => exact .now ih

/-- **Clocks change nothing.** -/
theorem Erases.exec {p : TimedM ι ρ α} {q : Prog ι ρ β} (he : Erases R p q)
    (h : (i : ι) → ω → ρ i × ω) (tick : χ → ℤ × χ) (w : ω) (clock : χ) :
    R (p.exec (clocked h tick) (w, clock)).1 (q.exec h w).1 ∧
      (p.exec (clocked h tick) (w, clock)).2.1 = (q.exec h w).2 := by
  induction he generalizing w clock with
  | ret hr => exact ⟨hr, rfl⟩
  | op i _ ih => exact ih _ _ _
  | now _ ih => exact ih _ _ _

/-- Any look at the clock, and operations with `P`. -/
def Timed.Lift (P : ι → Prop) : Timed ι → Prop
  | .op i => P i
  | .now => True

theorem Erases.only {P : ι → Prop} {p : TimedM ι ρ α} {q : Prog ι ρ β} (he : Erases R p q)
    (hq : q.Only P) : p.Only (Timed.Lift P) := by
  induction he with
  | ret h => exact .ret _
  | op i _ ih =>
    cases hq with
    | op hi hnext => exact .op hi fun r => ih r (hnext r)
  | now _ ih => exact .op trivial fun t => ih t hq

/-! ## With a variable -/

section StateT

variable {σ : Type}

section exec

variable (h : (i : ι) → ω → ρ i × ω) (tick : χ → ℤ × χ) (s : σ)
    (w : ω) (clock : χ)

theorem exec_op (i : ι) (f : ρ i → StateT σ (TimedM ι ρ) α) :
    ((liftM (operation i : TimedM ι ρ (ρ i)) >>= f).run s).exec (clocked h tick) (w, clock) =
      ((f (h i w).1).run s).exec (clocked h tick) ((h i w).2, clock) := rfl

theorem exec_now (f : ℤ → StateT σ (TimedM ι ρ) α) :
    ((liftM (now : TimedM ι ρ ℤ) >>= f).run s).exec (clocked h tick) (w, clock) =
      ((f (tick clock).1).run s).exec (clocked h tick) (w, (tick clock).2) := rfl

end exec

/-- The same of a program with a variable, whatever it holds at first. -/
structure ErasesState (R : α → β → Prop) (x : StateT σ (TimedM ι ρ) α)
    (p : Prog ι ρ β) : Prop where
  run : ∀ s, Erases (fun r b => R r.1 b) (x.run s) p

namespace ErasesState

variable {f : α → StateT σ (TimedM ι ρ) α'} {p : Prog ι ρ β} {q : Prog ι ρ β'}

theorem ret {a : α} {b : β} (h : R a b) :
    ErasesState R (pure a : StateT σ (TimedM ι ρ) α) (.ret b) := ⟨fun _ => .ret h⟩

theorem bind {x : StateT σ (TimedM ι ρ) α} {g : β → Prog ι ρ β'} (h : ErasesState R x p)
    (hf : ∀ a b, R a b → ErasesState R' (f a) (g b)) : ErasesState R' (x >>= f) (p >>= g) :=
  ⟨fun s => (h.run s).bind fun r b hr => (hf r.1 b hr).run r.2⟩

theorem now {f : ℤ → StateT σ (TimedM ι ρ) α'} (h : ∀ t, ErasesState R' (f t) q) :
    ErasesState R' (liftM (Clock.now : TimedM ι ρ ℤ) >>= f) q :=
      ⟨fun s => .now fun t => (h t).run s⟩

theorem op {i : ι} {f : ρ i → StateT σ (TimedM ι ρ) α'} {g : ρ i → Prog ι ρ β'}
    (h : ∀ r, ErasesState R' (f r) (g r)) :
    ErasesState R' (liftM (operation i : TimedM ι ρ (ρ i)) >>= f) (.op i .ret >>= g) :=
  ⟨fun s => .op i fun r => (h r).run s⟩

theorem update {u : σ → σ} {f : PUnit → StateT σ (TimedM ι ρ) α'}
    (h : ErasesState R' (f ()) q) :
    ErasesState R' (modify u >>= f) q := ⟨fun s => h.run (u s)⟩

end ErasesState

end StateT

/-! ## A clock that does not go back -/

/-- Whatever the operations are answered: where the clock has shown `t` last, and never shows less
than before, the program ends with `Q` of what the clock has shown last and of its value. -/
inductive Ends (Q : ℤ → α → Prop) : ℤ → TimedM ι ρ α → Prop
  | ret {t : ℤ} {a : α} (h : Q t a) : Ends Q t (.ret a)
  | op {t : ℤ} {i : ι} {next : ρ i → TimedM ι ρ α} (h : ∀ r, Ends Q t (next r)) :
    Ends Q t (.op (.op i) next)
  | now {t : ℤ} {next : ℤ → TimedM ι ρ α} (h : ∀ t', t ≤ t' → Ends Q t' (next t')) :
    Ends Q t (.op .now next)

/-- From its state `clock` on, where it has shown `t` last. -/
structure Forward (tick : χ → ℤ × χ) (clock : χ) (t : ℤ) : Prop where
  first : t ≤ reading tick clock 0
  next : ∀ n, reading tick clock n ≤ reading tick clock (n + 1)

theorem Forward.tail {tick : χ → ℤ × χ} {clock : χ} {t : ℤ} (h : Forward tick clock t) :
    Forward tick (tick clock).2 (tick clock).1 := ⟨h.next 0, fun n => h.next (n + 1)⟩

/-- What a clock has shown last after `n` looks. -/
def shown (tick : χ → ℤ × χ) (clock : χ) (t : ℤ) : ℕ → ℤ
  | 0 => t
  | n + 1 => reading tick clock n

theorem shown_succ (tick : χ → ℤ × χ) (clock : χ) (t : ℤ) (n : ℕ) :
    shown tick (tick clock).2 (tick clock).1 n = shown tick clock t (n + 1) := by
  cases n <;> rfl

namespace Ends

variable {Q : ℤ → α → Prop} {Q' : ℤ → β → Prop} {t : ℤ}

theorem mono {S : ℤ → α → Prop} (hQ : ∀ t a, Q t a → S t a) {p : TimedM ι ρ α}
    (h : Ends Q t p) :
    Ends S t p := by
  induction h with
  | ret h => exact .ret (hQ _ _ h)
  | op _ ih => exact .op ih
  | now _ ih => exact .now ih

theorem bind {p : TimedM ι ρ α} {f : α → TimedM ι ρ β} (h : Ends Q t p)
    (hf : ∀ t' a, Q t' a → Ends Q' t' (f a)) : Ends Q' t (p >>= f) := by
  induction h with
  | ret h => exact hf _ _ h
  | op _ ih => exact .op ih
  | now _ ih => exact .now ih

/-- **Clocks that do not go back.** -/
theorem exec {p : TimedM ι ρ α} (he : Ends Q t p) (h : (i : ι) → ω → ρ i × ω)
    {tick : χ → ℤ × χ} (w : ω) {clock : χ} (hclock : Forward tick clock t) :
    ∃ n, (p.exec (clocked h tick) (w, clock)).2.2 = after tick n clock ∧
      Q (shown tick clock t n) (p.exec (clocked h tick) (w, clock)).1 := by
  induction he generalizing w clock with
  | ret h => exact ⟨0, rfl, h⟩
  | op _ ih => exact ih _ _ hclock
  | now _ ih =>
    obtain ⟨n, hafter, hQ⟩ := ih _ hclock.first w hclock.tail
    exact ⟨n + 1, hafter, shown_succ tick clock _ n ▸ hQ⟩

/-! With a variable: -/

variable {σ : Type} {s : σ} {R : ℤ → β × σ → Prop}

end Ends

end Clock
