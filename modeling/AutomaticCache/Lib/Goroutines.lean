import AutomaticCache.Lib.Prog
import AutomaticCache.Lib.Run
import Mathlib.Algebra.GroupWithZero.Nat

/-!
# Goroutines that meet on unbuffered channels

A main goroutine and the ones it starts are programs in one world that may also send and receive. A
send and its receive are one step; who moves next is in the label of a step, so that a run is a
schedule.

`BehavesAs` says of a main goroutine that it waits for what it starts, and that together they do
what one program does. Then every schedule comes to the same end (`BehavesAs.completes`).
-/

namespace Goroutines

open Runs

variable {ι χ γ : Type} {V : χ → Type} {ρ : ι → Type} {α β ω : Type}

/-- What a goroutine asks for. -/
inductive Comm (ι χ γ : Type) (V : χ → Type)
  | op (i : ι)
  | send (c : χ) (v : V c)
  | recv (c : χ)
  /-- Another goroutine, which runs the body of `g`. -/
  | go (g : γ)

abbrev Comm.Ans (ρ : ι → Type) : Comm ι χ γ V → Type
  | .op i => ρ i
  | .send _ _ => Unit
  | .recv c => V c
  | .go _ => Unit

/-- What a goroutine runs. -/
abbrev GoM (ι χ γ : Type) (V : χ → Type) (ρ : ι → Type) :=
  Prog (Comm ι χ γ V) (Comm.Ans ρ)

structure State (ι χ γ : Type) (V : χ → Type) (ρ : ι → Type) (α ω : Type) where
  main : GoM ι χ γ V ρ α
  goroutines : List (GoM ι χ γ V ρ Unit)
  world : ω

inductive Act
  | main
  | goroutine (n : ℕ)
  /-- The main goroutine receives what goroutine `n` sends. -/
  | recv (n : ℕ)
  /-- Goroutine `n` receives what the main goroutine sends. -/
  | send (n : ℕ)

section system

variable [DecidableEq χ] (h : (i : ι) → ω → ρ i × ω)
    (body : γ → GoM ι χ γ V ρ Unit)

def step (s : State ι χ γ V ρ α ω) : Act → Option (State ι χ γ V ρ α ω)
  | .main =>
    match s.main with
    | .op (.op i) next => some { s with main := next (h i s.world).1, world := (h i s.world).2 }
    | .op (.go g) next => some { s with main := next (), goroutines := s.goroutines ++ [body g] }
    | _ => none
  | .goroutine n =>
    match s.goroutines[n]? with
    | some (.op (.op i) next) => some { s with
        goroutines := s.goroutines.set n (next (h i s.world).1)
        world := (h i s.world).2 }
    | some (.op (.go g) next) =>
      some { s with goroutines := s.goroutines.set n (next ()) ++ [body g] }
    | _ => none
  | .recv n =>
    match s.main, s.goroutines[n]? with
    | .op (.recv c) next, some (.op (.send c' v) next') =>
      if hc : c' = c then
        some { s with main := next (hc ▸ v), goroutines := s.goroutines.set n (next' ()) }
      else none
    | _, _ => none
  | .send n =>
    match s.main, s.goroutines[n]? with
    | .op (.send c v) next, some (.op (.recv c') next') =>
      if hc : c = c' then
        some { s with main := next (), goroutines := s.goroutines.set n (next' (hc ▸ v)) }
      else none
    | _, _ => none

/-- A main goroutine on its own at first. -/
def system (main : GoM ι χ γ V ρ α) (w : ω) : System (State ι χ γ V ρ α ω) Act where
  init := ⟨main, [], w⟩
  step := step h body

end system

/-- Every goroutine has returned. -/
def Ended (gs : List (GoM ι χ γ V ρ Unit)) : Prop := ∀ g ∈ gs, g = .ret ()

theorem ended_nil : Ended ([] : List (GoM ι χ γ V ρ Unit)) :=
  fun _ h => absurd h List.not_mem_nil

theorem Ended.concat {gs : List (GoM ι χ γ V ρ Unit)} (h : Ended gs) :
    Ended (gs ++ [.ret ()]) := by
  intro g hg
  rcases List.mem_append.1 hg with hg | hg
  · exact h g hg
  · exact List.mem_singleton.1 hg

/-! ## One at a time -/

variable (body : γ → GoM ι χ γ V ρ Unit)

/-- The main goroutine `main` with the others does what the program does: only one of them can go on
at any time, which is the main one or the one that it started last and waits for. -/
inductive Behaves : GoM ι χ γ V ρ α → List (GoM ι χ γ V ρ Unit) →
    Prog ι ρ α → Prop
  | ret (a : α) {gs : List (GoM ι χ γ V ρ Unit)} (hgs : Ended gs) :
    Behaves (.ret a) gs (.ret a)
  | op (i : ι) {next : ρ i → GoM ι χ γ V ρ α} {gs : List (GoM ι χ γ V ρ Unit)}
    {p : ρ i → Prog ι ρ α} (hgs : Ended gs) (hp : ∀ r, Behaves (next r) gs (p r)) :
    Behaves (.op (.op i) next) gs (.op i p)
  | go (g : γ) {next : Unit → GoM ι χ γ V ρ α} {gs : List (GoM ι χ γ V ρ Unit)}
    {p : Prog ι ρ α} (hgs : Ended gs) (hp : Behaves (next ()) (gs ++ [body g]) p) :
    Behaves (.op (.go g) next) gs p
  | wait (c : χ) (i : ι) {next : V c → GoM ι χ γ V ρ α}
    {gs : List (GoM ι χ γ V ρ Unit)} {next' : ρ i → GoM ι χ γ V ρ Unit}
    {p : ρ i → Prog ι ρ α} (hgs : Ended gs)
    (hp : ∀ r, Behaves (.op (.recv c) next) (gs ++ [next' r]) (p r)) :
    Behaves (.op (.recv c) next) (gs ++ [.op (.op i) next']) (.op i p)
  | recv (c : χ) (v : V c) {next : V c → GoM ι χ γ V ρ α}
    {gs : List (GoM ι χ γ V ρ Unit)} {next' : Unit → GoM ι χ γ V ρ Unit}
    {p : Prog ι ρ α} (hgs : Ended gs) (hp : Behaves (next v) (gs ++ [next' ()]) p) :
    Behaves (.op (.recv c) next) (gs ++ [.op (.send c v) next']) p

section schedules

variable [DecidableEq χ] {h : (i : ι) → ω → ρ i × ω} {body}
    {s s' : State ι χ γ V ρ α ω} {p : Prog ι ρ α}
  {gs : List (GoM ι χ γ V ρ Unit)}

/-- A goroutine that is not there or has returned makes no step. -/
theorem step_idle {n : ℕ} (hn : s.goroutines[n]? = none ∨ s.goroutines[n]? = some (.ret ())) :
    step h body s (.goroutine n) = none ∧ step h body s (.recv n) = none ∧
      step h body s (.send n) = none := by
  rcases hn with hn | hn <;> simp only [step, hn, true_and] <;> constructor <;> split <;> simp_all

omit [DecidableEq χ] in
theorem Ended.get (hgs : Ended gs) (n : ℕ) : gs[n]? = none ∨ gs[n]? = some (.ret ()) := by
  cases hg : gs[n]? with
  | none => exact Or.inl rfl
  | some g => exact Or.inr (congrArg some (hgs g (List.mem_of_getElem? hg)))

omit [DecidableEq χ] in
/-- Of the ended goroutines and another one, only the other one may go on. -/
theorem Ended.get_concat (hgs : Ended gs) (g : GoM ι χ γ V ρ Unit) (n : ℕ) :
    n = gs.length ∨ (gs ++ [g])[n]? = none ∨ (gs ++ [g])[n]? = some (.ret ()) := by
  rcases Nat.lt_trichotomy n gs.length with hn | hn | hn
  · rw [List.getElem?_append_left hn]
    exact Or.inr (hgs.get n)
  · exact Or.inl hn
  · rw [List.getElem?_eq_none (by simp; omega)]
    exact Or.inr (Or.inl rfl)

/-- When all others have returned, only the main goroutine makes steps. -/
theorem step_of_ended {a : Act} {main : GoM ι χ γ V ρ α} {w : ω} (hgs : Ended gs)
    (hs : step h body ⟨main, gs, w⟩ a = some s') : a = .main := by
  cases a with
  | main => rfl
  | goroutine n => cases (step_idle (hgs.get n)).1.symm.trans hs
  | recv n => cases (step_idle (hgs.get n)).2.1.symm.trans hs
  | send n => cases (step_idle (hgs.get n)).2.2.symm.trans hs

/-- When the main goroutine waits and all but the last have returned, the last one goes on. -/
theorem step_of_waiting {a : Act} {c : χ} {next : V c → GoM ι χ γ V ρ α}
    {g : GoM ι χ γ V ρ Unit} (hgs : Ended gs) {w : ω}
    (hs : step h body ⟨.op (.recv c) next, gs ++ [g], w⟩ a = some s') :
    a = .goroutine gs.length ∨ a = .recv gs.length := by
  cases a with
  | main => cases hs
  | goroutine n =>
    rcases hgs.get_concat g n with rfl | hn
    · exact Or.inl rfl
    · cases (step_idle hn).1.symm.trans hs
  | recv n =>
    rcases hgs.get_concat g n with rfl | hn
    · exact Or.inr rfl
    · cases (step_idle hn).2.1.symm.trans hs
  | send n =>
    simp only [step] at hs
    cases hs

omit [DecidableEq χ] in
theorem set_concat_length (gs : List (GoM ι χ γ V ρ Unit)) (g g' : GoM ι χ γ V ρ Unit) :
    (gs ++ [g]).set gs.length g' = gs ++ [g'] := by simp

variable (body h) in
theorem step_wait (main : GoM ι χ γ V ρ α) (gs : List (GoM ι χ γ V ρ Unit))
    (w : ω) (i : ι) (next : ρ i → GoM ι χ γ V ρ Unit) :
    step h body ⟨main, gs ++ [.op (.op i) next], w⟩ (.goroutine gs.length) =
      some ⟨main, gs ++ [next (h i w).1], (h i w).2⟩ := by
  simp only [step, List.getElem?_concat_length, set_concat_length]

variable (body h) in
theorem step_recv (gs : List (GoM ι χ γ V ρ Unit)) (w : ω) (c : χ) (v : V c)
    (next : V c → GoM ι χ γ V ρ α) (next' : Unit → GoM ι χ γ V ρ Unit) :
    step h body ⟨.op (.recv c) next, gs ++ [.op (.send c v) next'], w⟩ (.recv gs.length) =
      some ⟨next v, gs ++ [next' ()], w⟩ := by
  simp only [step, List.getElem?_concat_length, set_concat_length, dif_pos]

theorem system_step (main : GoM ι χ γ V ρ α) (w : ω) :
    (system h body main w).step = step h body := rfl

/-- Every schedule comes to the end of the program. -/
theorem Behaves.completes {main₀ : GoM ι χ γ V ρ α} {w₀ w : ω}
    {main : GoM ι χ γ V ρ α} (hb : Behaves body main gs p) :
    (system h body main₀ w₀).Completes ⟨main, gs, w⟩ fun t =>
      t.main = .ret (p.exec h w).1 ∧ Ended t.goroutines ∧ t.world = (p.exec h w).2 := by
  induction hb generalizing w with
  | ret a hgs =>
    refine .of_step (n := 0) (fun _ => ⟨rfl, hgs, rfl⟩) fun a s' hs => ?_
    rw [system_step] at hs
    obtain rfl := step_of_ended hgs hs
    cases hs
  | op i hgs hp ih =>
    refine .of_next (a := .main) rfl (fun b t hs => ?_) (ih _)
    rw [system_step] at hs
    obtain rfl := step_of_ended hgs hs
    exact (Option.some.inj hs).symm
  | go g hgs hp ih =>
    refine .of_next (a := .main) rfl (fun b t hs => ?_) ih
    rw [system_step] at hs
    obtain rfl := step_of_ended hgs hs
    exact (Option.some.inj hs).symm
  | @wait c i next gs next' p hgs hp ih =>
    have hnext := step_wait body h (.op (.recv c) next) gs w i next'
    refine .of_next ((system_step main₀ w₀).symm ▸ hnext) (fun b t hs => ?_) (ih _)
    rw [system_step] at hs
    rcases step_of_waiting hgs hs with rfl | rfl
    · exact Option.some.inj (hs.symm.trans hnext)
    · simp only [step, List.getElem?_concat_length] at hs
      cases hs
  | @recv c v next gs next' p hgs hp ih =>
    have hnext := step_recv body h gs w c v next next'
    refine .of_next ((system_step main₀ w₀).symm ▸ hnext) (fun b t hs => ?_) ih
    rw [system_step] at hs
    rcases step_of_waiting hgs hs with rfl | rfl
    · simp only [step, List.getElem?_concat_length] at hs
      cases hs
    · exact Option.some.inj (hs.symm.trans hnext)

/-- A step of the goroutines is a step of the program, or one of them waited for another. -/
theorem Behaves.step {a : Act} (hb : Behaves body s.main s.goroutines p)
    (hs : step h body s a = some s') :
    (Behaves body s'.main s'.goroutines p ∧ s'.world = s.world) ∨
      ∃ i next, p = .op i next ∧ Behaves body s'.main s'.goroutines (next (h i s.world).1) ∧
        s'.world = (h i s.world).2 := by
  obtain ⟨main, gs, w⟩ := s
  cases hb with
  | ret r hgs =>
    obtain rfl := step_of_ended hgs hs
    cases hs
  | op i hgs hp =>
    obtain rfl := step_of_ended hgs hs
    cases hs
    exact Or.inr ⟨i, _, rfl, hp _, rfl⟩
  | go g hgs hp =>
    obtain rfl := step_of_ended hgs hs
    cases hs
    exact Or.inl ⟨hp, rfl⟩
  | @wait c i next gs next' p hgs hp =>
    change Goroutines.step h body ⟨.op (.recv c) next, gs ++ [.op (.op i) next'], w⟩
      a = some s' at hs
    rcases step_of_waiting hgs hs with rfl | rfl
    · rw [step_wait] at hs
      cases hs
      exact Or.inr ⟨i, p, rfl, hp _, rfl⟩
    · simp only [Goroutines.step, List.getElem?_concat_length] at hs
      cases hs
  | @recv c v next gs next' p hgs hp =>
    change Goroutines.step h body ⟨.op (.recv c) next, gs ++ [.op (.send c v) next'], w⟩
      a = some s' at hs
    rcases step_of_waiting hgs hs with rfl | rfl
    · simp only [Goroutines.step, List.getElem?_concat_length] at hs
      cases hs
    · rw [step_recv] at hs
      cases hs
      exact Or.inl ⟨hp, rfl⟩

/-- No one is left waiting: where nothing can go on, all have returned. -/
theorem Behaves.ended (hb : Behaves body s.main s.goroutines p)
    (hstuck : ∀ a, Goroutines.step h body s a = none) :
    ∃ a, s.main = .ret a ∧ p = .ret a ∧ Ended s.goroutines := by
  obtain ⟨main, gs, w⟩ := s
  cases hb with
  | ret a hgs => exact ⟨a, rfl, rfl, hgs⟩
  | op i hgs hp => cases hstuck .main
  | go g hgs hp => cases hstuck .main
  | @wait c i next gs next' p hgs hp =>
    cases (step_wait body h (.op (.recv c) next) gs w i next').symm.trans
      (hstuck (.goroutine gs.length))
  | @recv c v next gs next' p hgs hp =>
    cases (step_recv body h gs w c v next next').symm.trans (hstuck (.recv gs.length))

end schedules

/-! ## How long they take -/

def Comm.isGo : Comm ι χ γ V → Bool
  | .go _ => true
  | .op _ | .send _ _ | .recv _ => false

/-- It ends after some operations whatever they are answered, and starts no goroutine. -/
structure Leaf (g : GoM ι χ γ V ρ Unit) (n : ℕ) : Prop where
  within : g.Within n
  only : g.Only fun c => c.isGo = false

/-- The main goroutine ends after some operations, and so do those that it starts. -/
structure Bounded (main : GoM ι χ γ V ρ α) (gs : List (GoM ι χ γ V ρ Unit)) : Prop where
  main : ∃ n, main.Within n
  goroutines : ∀ g ∈ gs, ∃ n, Leaf g n

/-- How many steps are left at most, where a goroutine takes `n`. -/
noncomputable def work (n : ℕ) (main : GoM ι χ γ V ρ α)
    (gs : List (GoM ι χ γ V ρ Unit)) : ℕ :=
  (n + 1) * main.depth + (gs.map Prog.depth).sum

theorem Leaf.next {c : Comm ι χ γ V} {next : c.Ans ρ → GoM ι χ γ V ρ Unit} {n : ℕ}
    (h : Leaf (.op c next) n) (r : c.Ans ρ) : ∃ m, Leaf (next r) m := by
  obtain ⟨m, -, hnext⟩ := Prog.within_op h.within
  cases h.only with
  | op _ honly => exact ⟨m, hnext r, honly r⟩

theorem depth_set_lt {gs : List (GoM ι χ γ V ρ Unit)} {n k : ℕ} {c : Comm ι χ γ V}
    {next : c.Ans ρ → GoM ι χ γ V ρ Unit} (hn : gs[n]? = some (.op c next))
    (h : Leaf (.op c next) k) (r : c.Ans ρ) :
    ((gs.set n (next r)).map Prog.depth).sum < (gs.map Prog.depth).sum := by
  have hlt := Prog.depth_lt h.within r
  induction gs generalizing n with
  | nil => cases hn
  | cons g gs ih =>
    cases n with
    | zero =>
      obtain rfl := Option.some.inj hn
      exact Nat.add_lt_add_right hlt _
    | succ n => exact Nat.add_lt_add_left (ih hn) _

theorem mul_depth_lt {main : GoM ι χ γ V ρ α} {c : Comm ι χ γ V}
    {next : c.Ans ρ → GoM ι χ γ V ρ α} (hb : ∃ k, main.Within k)
    (hmain : main = .op c next) (r : c.Ans ρ) (n : ℕ) :
    (∃ k, (next r).Within k) ∧ (n + 1) * (next r).depth + n < (n + 1) * main.depth := by
  subst hmain
  obtain ⟨k, hk⟩ := hb
  obtain ⟨m, -, hnext⟩ := Prog.within_op hk
  have hle := Nat.mul_le_mul_left (n + 1) (Nat.succ_le_of_lt (Prog.depth_lt hk r))
  rw [Nat.mul_succ] at hle
  exact ⟨⟨m, hnext r⟩, by omega⟩

theorem Bounded.set {main : GoM ι χ γ V ρ α} {gs : List (GoM ι χ γ V ρ Unit)}
    (hb : Bounded main gs) {k : ℕ} {c : Comm ι χ γ V}
    {next : c.Ans ρ → GoM ι χ γ V ρ Unit} (hk : gs[k]? = some (.op c next)) (r : c.Ans ρ) :
    ∀ g ∈ gs.set k (next r), ∃ n, Leaf g n := by
  intro g hg
  rcases List.mem_or_eq_of_mem_set hg with hg | rfl
  · exact hb.goroutines g hg
  · obtain ⟨m, hleaf⟩ := hb.goroutines _ (List.mem_of_getElem? hk)
    exact hleaf.next r

section bounded

variable [DecidableEq χ] {h : (i : ι) → ω → ρ i × ω} {body}
    {s s' : State ι χ γ V ρ α ω} {n : ℕ}

/-- There is one step less to make. -/
theorem Bounded.step {a : Act} (hbody : ∀ g, Leaf (body g) n) (hb : Bounded s.main s.goroutines)
    (hs : Goroutines.step h body s a = some s') :
    Bounded s'.main s'.goroutines ∧ work n s'.main s'.goroutines <
    work n s.main s.goroutines := by
  unfold work
  cases a with
  | main =>
    simp only [Goroutines.step] at hs
    split at hs
    · rename_i i next hmain
      cases hs
      obtain ⟨hnext, hlt⟩ := mul_depth_lt hb.main hmain (h i s.world).1 n
      exact ⟨⟨hnext, hb.goroutines⟩, by dsimp only; omega⟩
    · rename_i g next hmain
      cases hs
      obtain ⟨hnext, hlt⟩ := mul_depth_lt hb.main hmain () n
      have hbodyDepth := (hbody g).within.depth_le
      refine ⟨⟨hnext, fun g' hg' => ?_⟩, ?_⟩
      · rcases List.mem_append.1 hg' with hg' | hg'
        · exact hb.goroutines g' hg'
        · obtain rfl := List.mem_singleton.1 hg'
          exact ⟨n, hbody g⟩
      · dsimp only
        rw [List.map_append, List.sum_append, List.map_singleton, List.sum_singleton]
        omega
    · cases hs
  | goroutine k =>
    simp only [Goroutines.step] at hs
    split at hs
    · rename_i i next hk
      cases hs
      obtain ⟨m, hleaf⟩ := hb.goroutines _ (List.mem_of_getElem? hk)
      have hlt := depth_set_lt hk hleaf (h i s.world).1
      exact ⟨⟨hb.main, hb.set hk _⟩, by dsimp only; omega⟩
    · rename_i g next hk
      obtain ⟨m, hleaf⟩ := hb.goroutines _ (List.mem_of_getElem? hk)
      cases hleaf.only with
      | op hgo _ => cases hgo
    · cases hs
  | recv k =>
    simp only [Goroutines.step] at hs
    split at hs
    · rename_i c next c' v next' hmain hk
      split at hs
      · rename_i hc
        subst hc
        cases hs
        obtain ⟨m, hleaf⟩ := hb.goroutines _ (List.mem_of_getElem? hk)
        have hlt := depth_set_lt hk hleaf ()
        obtain ⟨hnext, hlt'⟩ := mul_depth_lt hb.main hmain v n
        exact ⟨⟨hnext, hb.set hk ()⟩, by dsimp only; omega⟩
      · cases hs
    · cases hs
  | send k =>
    simp only [Goroutines.step] at hs
    split at hs
    · rename_i c v next c' next' hmain hk
      split at hs
      · rename_i hc
        subst hc
        cases hs
        obtain ⟨m, hleaf⟩ := hb.goroutines _ (List.mem_of_getElem? hk)
        have hlt := depth_set_lt hk hleaf v
        obtain ⟨hnext, hlt'⟩ := mul_depth_lt hb.main hmain () n
        exact ⟨⟨hnext, hb.set hk v⟩, by dsimp only; omega⟩
      · cases hs
    · cases hs

end bounded

/-! ## Parts of a program -/

/-- As a part of a main goroutine, `m` does what the program `p` does, and what it starts
returns. -/
structure BehavesAs (m : GoM ι χ γ V ρ α) (p : Prog ι ρ α) : Prop where
  behaves : ∀ {β : Type} (f : α → GoM ι χ γ V ρ β) (q : α → Prog ι ρ β),
    (∀ a gs, Ended gs → Behaves body (f a) gs (q a)) →
    ∀ gs, Ended gs → Behaves body (m >>= f) gs (p >>= q)

/-- An operation of the world. -/
def operation (i : ι) : GoM ι χ γ V ρ (ρ i) := .op (.op i) .ret

def send (c : χ) (v : V c) : GoM ι χ γ V ρ Unit := .op (.send c v) .ret

def recv (c : χ) : GoM ι χ γ V ρ (V c) := .op (.recv c) .ret

def go (g : γ) : GoM ι χ γ V ρ Unit := .op (.go g) .ret

variable {body}

theorem BehavesAs.ret (a : α) : BehavesAs body (.ret a : GoM ι χ γ V ρ α) (.ret a) :=
  ⟨fun _ _ h gs hgs => h a gs hgs⟩

theorem BehavesAs.operation (i : ι) :
    BehavesAs body (Goroutines.operation i : GoM ι χ γ V ρ (ρ i)) (.op i .ret) :=
  ⟨fun _ _ h _ hgs => Behaves.op i hgs fun r => h r _ hgs⟩

theorem BehavesAs.bind {m : GoM ι χ γ V ρ α} {p : Prog ι ρ α} (hm : BehavesAs body m p)
    {f : α → GoM ι χ γ V ρ β} {q : α → Prog ι ρ β}
    (hf : ∀ a, BehavesAs body (f a) (q a)) :
    BehavesAs body (m >>= f) (p >>= q) := by
  constructor
  intro _ f' q' h gs hgs
  rw [Prog.bind_assoc, Prog.bind_assoc]
  exact hm.behaves _ _ (fun a gs hgs => (hf a).behaves _ _ h gs hgs) gs hgs

/-- **Schedules.** A main goroutine that waits for what it starts comes to the same end in every
schedule, with nobody left waiting. -/
theorem BehavesAs.completes [DecidableEq χ] {h : (i : ι) → ω → ρ i × ω}
    {m : GoM ι χ γ V ρ α} {p : Prog ι ρ α} (hm : BehavesAs body m p) (w : ω) :
    (system h body m w).Completes (system h body m w).init fun t =>
      t.main = .ret (p.exec h w).1 ∧ Ended t.goroutines ∧ t.world = (p.exec h w).2 := by
  have hb := hm.behaves .ret .ret (fun a gs hgs => .ret a hgs) [] ended_nil
  rw [Prog.bind_ret, Prog.bind_ret] at hb
  exact hb.completes

/-- **Every moment.** What each operation of the program keeps holds in every state of every
schedule, of what is left of the program there. -/
theorem BehavesAs.invariant [DecidableEq χ] {h : (i : ι) → ω → ρ i × ω}
    {m : GoM ι χ γ V ρ α} {p : Prog ι ρ α} (hm : BehavesAs body m p)
    {I : Prog ι ρ α → ω → Prop} {w : ω} (hI : I p w)
    (hstep : ∀ i next w, I (.op i next) w → I (next (h i w).1) (h i w).2)
    {s : State ι χ γ V ρ α ω} (hs : (system h body m w).Reachable s) :
    ∃ q, Behaves body s.main s.goroutines q ∧ I q s.world := by
  have hb := hm.behaves .ret .ret (fun a gs hgs => .ret a hgs) [] ended_nil
  rw [Prog.bind_ret, Prog.bind_ret] at hb
  refine hs.invariant (I := fun s => ∃ q, Behaves body s.main s.goroutines q ∧ I q s.world)
    ⟨p, hb, hI⟩ fun s a s' ⟨q, hb, hI⟩ hs => ?_
  rcases hb.step hs with ⟨hb, hw⟩ | ⟨i, next, rfl, hb, hw⟩
  · exact ⟨q, hb, hw ▸ hI⟩
  · exact ⟨_, hb, hw ▸ hstep i next s.world hI⟩

end Goroutines
