import AutomaticCache.Lib.Prog
import AutomaticCache.Lib.Run

/-!
# Callers of a cache

A cache in front of something slow: a caller asks for a key, and what the cache does not have it
gets from an initializer of the caller's and stores. `system` is any number of callers, each running
a program over the four operations `Op` against one store, and the stores that were left to run in
the background. The steps of different callers interleave freely.

The programs are a machine `m` on any type of program points, so that the same system serves for the
programs of an implementation (`Prog.next`) and for an abstract design of them; `step_map` carries
runs from one to the other.

Time is the number of steps taken. Beside what the programs see, a caller has ghosts for when its
call began, entered its initializer, was stored and returned, and the store has the write that each
key was last given by.
-/

namespace CacheAside

open Runs

/-- What a program does besides computing. -/
inductive Op (κ ο : Type)
  | lookup (key : κ)
  /-- The initializer runs until this is answered. -/
  | initializer
  | store (o : ο)
  /-- A store that is left to another goroutine. -/
  | spawn (o : ο)

/-- A lookup fails with a `δ`, a store with an `ε`. -/
abbrev Op.Ans (δ ε : Type) {κ ο : Type} : Op κ ο → Type
  | .lookup _ => Except δ ο
  | .initializer => Unit
  | .store _ => Except ε Unit
  | .spawn _ => Unit

/-- What a call returns: an object, or none when it was to put one. -/
abbrev Result (ο ε : Type) := Except ε (Option ο)

/-- What a caller does next. -/
abbrev Machine (κ ο δ ε ς : Type) :=
  ς → Prog.Next (Op κ ο) (Op.Ans δ ε) (Result ο ε) ς

/-- The store: one lookup and one put are a step each, and a put that fails changes nothing. -/
structure Store (σ κ ο δ ε : Type) where
  keyOf : ο → κ
  lookup : σ → κ → Except δ ο
  put : σ → ο → Except ε σ

/-- A put that took effect. -/
structure Write (ο : Type) where
  object : ο
  caller : ℕ
  time : ℕ

/-- A call of kind `γ`, its program at the point `point`, and its ghosts. `source` is the write
that the last lookup has found. -/
structure Caller (ο γ ς : Type) where
  call : γ
  point : ς
  lookups : ℕ
  called : ℕ
  invoked : Option ℕ
  stored : Option ℕ
  returned : Option ℕ
  source : Option (Write ο)

/-- A store that has not run yet. -/
structure Pending (ο : Type) where
  object : ο
  caller : ℕ

structure State (σ κ ο γ ς : Type) where
  store : σ
  writes : κ → Option (Write ο)
  pending : List (Pending ο)
  callers : List (Caller ο γ ς)
  clock : ℕ

inductive Act (γ : Type)
  | call (c : γ)
  | run (i : ℕ)
  /-- The `n`-th pending store runs. -/
  | put (n : ℕ)

variable {σ κ ο δ ε γ ς τ : Type}

/-- The caller's program goes on to `p` at time `t`: it is now in its initializer, it has returned,
or neither. -/
def Caller.arrive (m : Machine κ ο δ ε ς) (t : ℕ) (c : Caller ο γ ς) (p : ς) :
    Caller ο γ ς :=
  match m p with
  | .ret _ => { c with point := p, returned := some t }
  | .op .initializer _ => { c with point := p, invoked := some t }
  | .op _ _ => { c with point := p }

/-- What the caller has returned. -/
def Caller.result (m : Machine κ ο δ ε ς) (c : Caller ο γ ς) : Option (Result ο ε) :=
  match m c.point with
  | .ret r => some r
  | .op _ _ => none

/-- A call that begins at `p`. -/
def Caller.begin (m : Machine κ ο δ ε ς) (t : ℕ) (call : γ) (p : ς) : Caller ο γ ς :=
  Caller.arrive m t ⟨call, p, 0, t, none, none, none, none⟩ p

/-- Caller `i` goes on as `c`. -/
def State.move (s : State σ κ ο γ ς) (i : ℕ) (c : Caller ο γ ς) : State σ κ ο γ ς :=
  { s with callers := s.callers.set i c, clock := s.clock + 1 }

/-- Caller `i` leaves the store of `o` to another goroutine. -/
def State.spawn (s : State σ κ ο γ ς) (i : ℕ) (o : ο) : State σ κ ο γ ς :=
  { s with pending := s.pending ++ [⟨o, i⟩] }

/-- What caller `i` had left to run is stored. -/
def State.mark (s : State σ κ ο γ ς) (i : ℕ) : State σ κ ο γ ς :=
  { s with
    callers := s.callers.modify i fun c => { c with stored := some s.clock }
    clock := s.clock + 1 }

section system

variable [DecidableEq κ] (S : Store σ κ ο δ ε) (m : Machine κ ο δ ε ς)
    (start : γ → ς)

/-- The write of which a lookup finds the object. -/
def State.found (s : State σ κ ο γ ς) (key : κ) : Option (Write ο) :=
  match S.lookup s.store key with
  | .ok _ => s.writes key
  | .error _ => none

/-- The put of `o` by caller `i` takes effect. -/
def State.write (s : State σ κ ο γ ς) (i : ℕ) (o : ο) (store : σ) : State σ κ ο γ ς :=
  { s with
    store := store
    writes := Function.update s.writes (S.keyOf o) (some ⟨o, i, s.clock⟩) }

theorem State.writes_write_self (s : State σ κ ο γ ς) (i : ℕ) (o : ο) (store : σ) :
    (s.write S i o store).writes (S.keyOf o) = some ⟨o, i, s.clock⟩ := Function.update_self ..

theorem State.writes_write_of_ne (s : State σ κ ο γ ς) (i : ℕ) {o : ο}
    (store : σ) {key : κ} (h : key ≠ S.keyOf o) :
    (s.write S i o store).writes key = s.writes key :=
  Function.update_of_ne h ..

def step (s : State σ κ ο γ ς) : Act γ → Option (State σ κ ο γ ς)
  | .call call => some { s with
      callers := s.callers ++ [Caller.begin m s.clock call (start call)]
      clock := s.clock + 1 }
  | .run i => s.callers[i]?.bind fun c =>
      match m c.point with
      | .ret _ => none
      | .op (.lookup key) next => some (s.move i
          (Caller.arrive m s.clock { c with lookups := c.lookups + 1, source := s.found S key }
            (next (S.lookup s.store key))))
      | .op .initializer next => some (s.move i (Caller.arrive m s.clock c (next ())))
      | .op (.store o) next =>
        match S.put s.store o with
        | .ok store => some ((s.write S i o store).move i
            (Caller.arrive m s.clock { c with stored := some s.clock } (next (.ok ()))))
        | .error e => some (s.move i (Caller.arrive m s.clock c (next (.error e))))
      | .op (.spawn o) next => some ((s.spawn i o).move i (Caller.arrive m s.clock c (next ())))
  | .put n => s.pending[n]?.map fun p =>
      let s := { s with pending := s.pending.eraseIdx n }
      match S.put s.store p.object with
      | .ok store => (s.write S p.caller p.object store).mark p.caller
      | .error _ => { s with clock := s.clock + 1 }

/-- Callers whose calls of kind `γ` begin at `start`, with a store that is `store` at first. -/
def system (store : σ) : System (State σ κ ο γ ς) (Act γ) where
  init := ⟨store, fun _ => none, [], [], 0⟩
  step := step S m start

end system

theorem State.found_of_ok {S : Store σ κ ο δ ε} {s : State σ κ ο γ ς} {key : κ} {o : ο}
    (hl : S.lookup s.store key = .ok o) : s.found S key = s.writes key := by
  unfold State.found; rw [hl]

theorem State.found_of_error {S : Store σ κ ο δ ε} {s : State σ κ ο γ ς}
    {key : κ} {e : δ} (hl : S.lookup s.store key = .error e) : s.found S key = none := by
  unfold State.found; rw [hl]

/-- A caller whose store has run goes on where it is. -/
theorem State.mark_eq_move {s : State σ κ ο γ ς} {i : ℕ} {c : Caller ο γ ς}
    (hc : s.callers[i]? = some c) : s.mark i = s.move i { c with stored := some s.clock } := by
  unfold State.mark State.move
  congr 1
  refine List.ext_getElem? fun j => ?_
  rw [List.getElem?_modify]
  by_cases hij : i = j
  · subst hij
    rw [List.getElem?_set_self (List.getElem?_eq_some_iff.1 hc).1, hc]
    simp
  · rw [List.getElem?_set_ne hij]
    cases s.callers[j]? <;> simp [hij]

/-! ## From one machine to another -/

/-- The same caller, with its program point seen through `f`. -/
def Caller.map (f : ς → τ) (c : Caller ο γ ς) : Caller ο γ τ :=
  ⟨c.call, f c.point, c.lookups, c.called, c.invoked, c.stored, c.returned, c.source⟩

def State.map (f : ς → τ) (s : State σ κ ο γ ς) : State σ κ ο γ τ :=
  ⟨s.store, s.writes, s.pending, s.callers.map (Caller.map f), s.clock⟩

/-- `f` takes the steps of `m` to those of `m'`. -/
def Maps (m : Machine κ ο δ ε ς) (m' : Machine κ ο δ ε τ) (f : ς → τ) : Prop :=
  ∀ p, m' (f p) = (m p).map f

variable {m : Machine κ ο δ ε ς} {m' : Machine κ ο δ ε τ} {f : ς → τ}

theorem Maps.arrive (h : Maps m m' f) (t : ℕ) (c : Caller ο γ ς) (p : ς) :
    (c.map f).arrive m' t (f p) = (c.arrive m t p).map f := by
  unfold Caller.arrive
  rw [h p]
  cases m p with
  | ret r => rfl
  | op o next => cases o <;> rfl

theorem Maps.result (h : Maps m m' f) (c : Caller ο γ ς) :
    (c.map f).result m' = c.result m := by
  unfold Caller.result
  rw [show (c.map f).point = f c.point from rfl, h c.point]
  cases m c.point <;> rfl

theorem State.map_move (s : State σ κ ο γ ς) (i : ℕ) (c : Caller ο γ ς) :
    (s.map f).move i (c.map f) = (s.move i c).map f := by
  unfold State.move State.map
  rw [List.map_set]

theorem State.map_mark (s : State σ κ ο γ ς) (i : ℕ) :
    (s.map f).mark i = (s.mark i).map f := by
  unfold State.mark State.map
  congr 1
  refine List.ext_getElem? fun j => ?_
  simp only [List.getElem?_map, List.getElem?_modify]
  cases s.callers[j]? with
  | none => rfl
  | some c => by_cases hij : i = j <;> simp [hij, Caller.map]

variable [DecidableEq κ] {S : Store σ κ ο δ ε} {start : γ → ς}

variable (start) in
/-- A step of the mapped state is the step of the state, mapped. -/
theorem step_map (h : Maps m m' f) (s : State σ κ ο γ ς) (a : Act γ) :
    step S m' (f ∘ start) (s.map f) a = (step S m start s a).map (State.map f) := by
  cases a with
  | call call =>
    have hbegin :=
      h.arrive s.clock ⟨call, start call, 0, s.clock, none, none, none, none⟩ (start call)
    simp only [step, Option.map_some, State.map, List.map_append, List.map_cons, List.map_nil]
    unfold Caller.begin
    rw [← hbegin]
    rfl
  | run i =>
    have hget : (s.map f).callers[i]? = s.callers[i]?.map (Caller.map f) := List.getElem?_map ..
    simp only [step, hget]
    cases s.callers[i]? with
    | none => rfl
    | some c =>
      simp only [Option.map_some, Option.bind_some]
      rw [show (c.map f).point = f c.point from rfl, h c.point]
      cases m c.point with
      | ret r => rfl
      | op o next =>
        cases o with
        | lookup key =>
          have harrive := h.arrive s.clock
            { c with lookups := c.lookups + 1, source := s.found S key }
            (next (S.lookup s.store key))
          simp only [Prog.Next.map, Option.map_some, ← State.map_move, ← harrive]
          rfl
        | initializer =>
          simp only [Prog.Next.map, Option.map_some, ← State.map_move, ← h.arrive]
          rfl
        | store o =>
          simp only [Prog.Next.map]
          rw [show (s.map f).store = s.store from rfl]
          cases S.put s.store o with
          | error e =>
            simp only [Option.map_some, ← State.map_move, ← h.arrive]
            rfl
          | ok store =>
            have harrive := h.arrive s.clock { c with stored := some s.clock } (next (.ok ()))
            simp only [Option.map_some, ← State.map_move, ← harrive]
            rfl
        | spawn o =>
          simp only [Prog.Next.map, Option.map_some, ← State.map_move, ← h.arrive]
          rfl
  | put n =>
    simp only [step]
    rw [show (s.map f).pending = s.pending from rfl]
    cases s.pending[n]? with
    | none => rfl
    | some p =>
      simp only [Option.map_some]
      rw [show (s.map f).store = s.store from rfl]
      cases S.put s.store p.object with
      | error e => rfl
      | ok store =>
        simp only [← State.map_mark]
        rfl

/-- A run of programs that `m` takes the steps of is a run of `m`. -/
theorem run_program {f : ς → Prog (Op κ ο) (Op.Ans δ ε) (Result ο ε)}
    (h : Maps m Prog.next f) (store : σ) (as : List (Act γ)) :
    (system S Prog.next (f ∘ start) store).run (system S Prog.next (f ∘ start) store).init as =
      ((system S m start store).run (system S m start store).init as).map (State.map f) :=
  System.run_map (S := system S m start store) (T := system S Prog.next (f ∘ start) store)
    (step_map start h) as (system S m start store).init

theorem reachable_program {f : ς → Prog (Op κ ο) (Op.Ans δ ε) (Result ο ε)}
    (h : Maps m Prog.next f) {store : σ}
    {t : State σ κ ο γ (Prog (Op κ ο) (Op.Ans δ ε) (Result ο ε))}
    (ht : (system S Prog.next (f ∘ start) store).Reachable t) :
    ∃ s, (system S m start store).Reachable s ∧ t = s.map f := by
  obtain ⟨as, hrun⟩ := ht
  rw [run_program h] at hrun
  obtain ⟨s, hs, rfl⟩ := Option.map_eq_some_iff.1 hrun
  exact ⟨s, ⟨as, hs⟩, rfl⟩

/-! ## Returning -/

/-- Caller `i` returns after some more steps of its own. -/
def State.CanReturn (s : State σ κ ο γ ς) (S : Store σ κ ο δ ε)
    (m : Machine κ ο δ ε ς) (start : γ → ς) (store : σ) (i : ℕ) : Prop :=
  ∃ n t c r, (system S m start store).run s (List.replicate n (.run i)) = some t ∧
    t.callers[i]? = some c ∧ c.result m = some r

omit [DecidableEq κ] in
@[simp] theorem Caller.arrive_point (t : ℕ) (c : Caller ο γ ς) (p : ς) :
    (c.arrive m t p).point = p := by
  unfold Caller.arrive
  split <;> rfl

omit [DecidableEq κ] in
theorem State.get_move (s : State σ κ ο γ ς) {i : ℕ} {c : Caller ο γ ς}
    (hc : s.callers[i]? = some c) (c' : Caller ο γ ς) : (s.move i c').callers[i]? = some c' :=
  List.getElem?_set_self (List.getElem?_eq_some_iff.1 hc).1

variable (start) in
/-- A caller that has not returned can make a step, and goes on with an answer. -/
theorem step_op {s : State σ κ ο γ ς} {i : ℕ} {c : Caller ο γ ς}
    (hc : s.callers[i]? = some c) {o : Op κ ο} {next : Op.Ans δ ε o → ς}
    (hp : m c.point = .op o next) :
    ∃ s' c' r, step S m start s (.run i) = some s' ∧ s'.callers[i]? = some c' ∧
      c'.point = next r := by
  cases o with
  | lookup key =>
    have hs : step S m start s (.run i) = some (s.move i (Caller.arrive m s.clock
        { c with lookups := c.lookups + 1, source := s.found S key }
        (next (S.lookup s.store key)))) := by
      simp only [step, hc, Option.bind_some, hp]
    exact ⟨_, _, _, hs, s.get_move hc _, Caller.arrive_point ..⟩
  | initializer =>
    have hs : step S m start s (.run i) = some
        (s.move i (Caller.arrive m s.clock c (next ()))) := by
      simp only [step, hc, Option.bind_some, hp]
    exact ⟨_, _, _, hs, s.get_move hc _, Caller.arrive_point ..⟩
  | store o =>
    cases hput : S.put s.store o with
    | ok store =>
      have hs : step S m start s (.run i) = some ((s.write S i o store).move i
          (Caller.arrive m s.clock { c with stored := some s.clock } (next (.ok ())))) := by
        simp only [step, hc, Option.bind_some, hp, hput]
      exact ⟨_, _, _, hs, (s.write S i o store).get_move hc _, Caller.arrive_point ..⟩
    | error e =>
      have hs : step S m start s (.run i) =
          some (s.move i (Caller.arrive m s.clock c (next (.error e)))) := by
        simp only [step, hc, Option.bind_some, hp, hput]
      exact ⟨_, _, _, hs, s.get_move hc _, Caller.arrive_point ..⟩
  | spawn o =>
    have hs : step S m start s (.run i) =
        some ((s.spawn i o).move i (Caller.arrive m s.clock c (next ()))) := by
      simp only [step, hc, Option.bind_some, hp]
    exact ⟨_, _, _, hs, (s.spawn i o).get_move hc _, Caller.arrive_point ..⟩

/-- A program that keeps running returns. -/
theorem canReturn {program : γ → Prog (Op κ ο) (Op.Ans δ ε) (Result ο ε)} {store : σ} :
    ∀ (p : Prog (Op κ ο) (Op.Ans δ ε) (Result ο ε))
      {s : State σ κ ο γ (Prog (Op κ ο) (Op.Ans δ ε) (Result ο ε))} {i : ℕ}
      {c : Caller ο γ (Prog (Op κ ο) (Op.Ans δ ε) (Result ο ε))},
      s.callers[i]? = some c → c.point = p → s.CanReturn S Prog.next program store i := by
  intro p
  induction p with
  | ret r =>
    intro s i c hc hp
    refine ⟨0, s, c, r, rfl, hc, ?_⟩
    unfold Caller.result
    rw [hp]
    rfl
  | op o next ih =>
    intro s i c hc hp
    obtain ⟨s', c', r, hs, hc', hp'⟩ := step_op (S := S) program hc (congrArg Prog.next hp)
    obtain ⟨n, t, ct, r, hrun, ht⟩ := ih _ hc' hp'
    exact ⟨n + 1, t, ct, r, (System.run_cons_eq hs).trans hrun, ht⟩

end CacheAside
