import AutomaticCache.Lib.Prog

/-!
# Programs that mark what they call

A program with a variable that also keeps marks, which it never looks at. `Unmarks` relates it to
the program without them: both ask for the same and end with the same (`Unmarks.exec`).
-/

namespace Marks

variable {ι : Type} {ρ : ι → Type} {σ μ α β : Type}

/-- With a variable in `σ` and marks in `μ`. -/
abbrev MarkedT (μ σ : Type) (ι : Type) (ρ : ι → Type) := StateT σ (StateT μ (Prog ι ρ))

/-- A program that makes no marks. -/
def unmarked (y : StateT σ (Prog ι ρ) α) : MarkedT μ σ ι ρ α := fun s => liftM (y.run s)

def mark (u : μ → μ) : MarkedT μ σ ι ρ PUnit :=
  liftM (modify u : StateT μ (Prog ι ρ) PUnit)

section exec

variable {ω : Type} (h : (i : ι) → ω → ρ i × ω) (s : σ) (c : μ) (w : ω)

/-- It leaves the marks as they are. -/
theorem exec_unmarked (y : StateT σ (Prog ι ρ) α) :
    ((((unmarked y : MarkedT μ σ ι ρ α).run s).run c).exec h w) =
      ((((y.run s).exec h w).1, c), ((y.run s).exec h w).2) := by
  have hrun : ((unmarked y : MarkedT μ σ ι ρ α).run s).run c =
    (y.run s >>= fun r => .ret (r, c)) := rfl
  rw [hrun, Prog.exec_bind]
  rfl

theorem exec_bind (x : MarkedT μ σ ι ρ α) (f : α → MarkedT μ σ ι ρ β) :
    (((x >>= f).run s).run c).exec h w =
      (((f (((x.run s).run c).exec h w).1.1.1).run (((x.run s).run c).exec h w).1.1.2).run
        (((x.run s).run c).exec h w).1.2).exec h (((x.run s).run c).exec h w).2 :=
  Prog.exec_bind h w ((x.run s).run c) fun r => ((f r.1.1).run r.1.2).run r.2

/-- The first part ends with `Q`, and whatever the rest does after that, it ends with `R`. -/
theorem exec_bind_of_returns {Q : (α × σ) × μ → Prop} {R : (β × σ) × μ → Prop}
    {x : MarkedT μ σ ι ρ α} {f : α → MarkedT μ σ ι ρ β}
    (hx : Q (((x.run s).run c).exec h w).1) (hf : ∀ a s c, Q ((a, s), c) →
      (((f a).run s).run c).Returns R) :
    R ((((x >>= f).run s).run c).exec h w).1 := by
  rw [exec_bind]
  exact (hf _ _ _ hx).exec h _

omit h w in
theorem returns_update {R : (β × σ) × μ → Prop} {u : σ → σ}
    {f : PUnit → MarkedT μ σ ι ρ β} (hf : (((f ()).run (u s)).run c).Returns R) :
    (((modify u >>= f).run s).run c).Returns R := hf

theorem exec_op (i : ι) (f : ρ i → MarkedT μ σ ι ρ β) :
    (((liftM (liftM (.op i .ret : Prog ι ρ (ρ i)) : StateT μ (Prog ι ρ) (ρ i)) >>= f).run
      s).run c).exec h w =
      (((f (h i w).1).run s).run c).exec h (h i w).2 := rfl

theorem exec_update (u : σ → σ) (f : PUnit → MarkedT μ σ ι ρ β) :
    (((modify u >>= f).run s).run c).exec h w = (((f ()).run (u s)).run c).exec h w := rfl

end exec

/-- The one is the other with marks. -/
structure Unmarks (x : MarkedT μ σ ι ρ α) (y : StateT σ (Prog ι ρ) α) : Prop where
  run : ∀ s c, ((x.run s).run c >>= fun r => .ret r.1) = y.run s

namespace Unmarks

theorem ret (a : α) : Unmarks (pure a : MarkedT μ σ ι ρ α) (pure a) := ⟨fun _ _ => rfl⟩

theorem of_unmarked (y : StateT σ (Prog ι ρ) α) :
    Unmarks (unmarked y : MarkedT μ σ ι ρ α) y := by
  refine ⟨fun s c => ?_⟩
  have hrun : ((unmarked y : MarkedT μ σ ι ρ α).run s).run c =
    (y.run s >>= fun r => .ret (r, c)) := rfl
  rw [hrun, Prog.bind_assoc]
  exact Prog.bind_ret _

theorem bind {x : MarkedT μ σ ι ρ α} {y : StateT σ (Prog ι ρ) α}
    {f : α → MarkedT μ σ ι ρ β} {g : α → StateT σ (Prog ι ρ) β} (h : Unmarks x y)
    (hf : ∀ a, Unmarks (f a) (g a)) :
    Unmarks (x >>= f) (y >>= g) := by
  refine ⟨fun s c => ?_⟩
  have hrun : ((x >>= f).run s).run c =
      ((x.run s).run c >>= fun r => ((f r.1.1).run r.1.2).run r.2) := rfl
  have hrun' : (y >>= g).run s = (y.run s >>= fun r => (g r.1).run r.2) := rfl
  rw [hrun, hrun', ← h.run s c, Prog.bind_assoc, Prog.bind_assoc]
  congr 1
  funext r
  exact (hf r.1.1).run r.1.2 r.2

theorem op {i : ι} {f : ρ i → MarkedT μ σ ι ρ β} {g : ρ i → StateT σ (Prog ι ρ) β}
    (h : ∀ r, Unmarks (f r) (g r)) :
    Unmarks (liftM (liftM (.op i .ret : Prog ι ρ (ρ i)) : StateT μ (Prog ι ρ) (ρ i)) >>= f)
      (liftM (.op i .ret : Prog ι ρ (ρ i)) >>= g) :=
  ⟨fun s c => congrArg (Prog.op i) (funext fun r => (h r).run s c)⟩

theorem mark {u : μ → μ} {f : PUnit → MarkedT μ σ ι ρ β} {y : StateT σ (Prog ι ρ) β}
    (h : Unmarks (f ()) y) : Unmarks (Marks.mark u >>= f) y := ⟨fun s c => h.run s (u c)⟩

theorem update {u : σ → σ} {f : PUnit → MarkedT μ σ ι ρ β}
    {g : PUnit → StateT σ (Prog ι ρ) β} (h : Unmarks (f ()) (g ())) :
    Unmarks (modify u >>= f) (modify u >>= g) :=
  ⟨fun s c => h.run (u s) c⟩

/-- **Marks change nothing.** -/
theorem exec {ω : Type} {x : MarkedT μ σ ι ρ α} {y : StateT σ (Prog ι ρ) α}
    (hx : Unmarks x y) (h : (i : ι) → ω → ρ i × ω) (s : σ) (c : μ) (w : ω) :
    (((x.run s).run c).exec h w).1.1 = ((y.run s).exec h w).1 ∧
      (((x.run s).run c).exec h w).2 = ((y.run s).exec h w).2 := by
  rw [← hx.run s c, Prog.exec_bind]
  exact ⟨rfl, rfl⟩

end Unmarks

end Marks
