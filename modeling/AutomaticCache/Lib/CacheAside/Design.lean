import AutomaticCache.Lib.CacheAside.Callers

/-!
# Double-checked filling

The design that a cache-aside implementation follows: look the key up, look it up again, run the
initializer, store what it gives. A `Design` is what is left open: when a missing initializer is
noticed, whether the store is left to another goroutine, and what errors become. `step_cases` says
once what a step of such callers can do.
-/

namespace CacheAside

open Runs

/-- The calls of a cache, each initializer with what it will return. -/
inductive Call (κ ο ε : Type)
  | get (key : κ) (init : Option (Except ε ο))
  | put (o : ο)

structure Design (κ ο ε : Type) where
  /-- A missing initializer is noticed before the second lookup. -/
  nilFirst : Bool
  nilError : κ → ε
  initError : ε → ε
  /-- A fill is stored by another goroutine. -/
  background : Bool
  /-- What a call returns whose fill could not be stored. -/
  unstored : ο → ε → Except ε ο
  /-- What a put returns that could not be stored. -/
  notPut : ε → Result ο ε

/-- The points of a call. -/
inductive Stage (κ ο ε : Type)
  | first (key : κ) (init : Option (Except ε ο))
  | second (key : κ) (init : Option (Except ε ο))
  /-- In the initializer, which will return `r`. -/
  | running (key : κ) (r : Except ε ο)
  | storing (o : ο)
  | put (o : ο)
  | returned (r : Result ο ε)

variable {σ κ ο δ ε γ : Type}

/-- Where a call begins. -/
def Stage.start : Call κ ο ε → Stage κ ο ε
  | .get key init => .first key init
  | .put o => .put o

namespace Design

variable (d : Design κ ο ε)

def machine (δ : Type) : Machine κ ο δ ε (Stage κ ο ε)
  | .first key init => .op (.lookup key) fun
    | .ok o => .returned (.ok (some o))
    | .error _ =>
      if d.nilFirst ∧ init.isNone then .returned (.error (d.nilError key)) else .second key init
  | .second key init => .op (.lookup key) fun
    | .ok o => .returned (.ok (some o))
    | .error _ =>
      match init with
      | none => .returned (.error (d.nilError key))
      | some r => .running key r
  | .running _ r => .op .initializer fun _ =>
    match r with
    | .error e => .returned (.error (d.initError e))
    | .ok o => .storing o
  | .storing o =>
    if d.background then .op (.spawn o) fun _ => .returned (.ok (some o))
    else .op (.store o) fun
      | .ok _ => .returned (.ok (some o))
      | .error e => .returned ((d.unstored o e).map some)
  | .put o => .op (.store o) fun
    | .ok _ => .returned (.ok none)
    | .error e => .returned (d.notPut e)
  | .returned r => .ret r

theorem arrive_storing (time : ℕ) (c : Caller ο γ (Stage κ ο ε)) (o : ο) :
    c.arrive (d.machine δ) time (.storing o) = { c with point := .storing o } := by
  unfold Caller.arrive machine
  dsimp only
  cases d.background <;> rfl

theorem begin_start (time : ℕ) (x : γ) (call : Call κ ο ε) :
    Caller.begin (d.machine δ) time x (.start call) =
      (⟨x, .start call, 0, time, none, none, none, none⟩ : Caller ο _ _) := by
  cases call <;> rfl

theorem point_of_result {d : Design κ ο ε} {c : Caller ο γ (Stage κ ο ε)}
    {r : Result ο ε} (h : c.result (d.machine δ) = some r) :
    c.point = .returned r := by
  unfold Caller.result machine at h
  cases hp : c.point with
  | returned r' => rw [hp] at h; exact congrArg _ (Option.some.inj h)
  | storing o => rw [hp] at h; cases hb : d.background <;> simp [hb] at h
  | _ => rw [hp] at h; cases h

/-! ## As a program -/

/-- From each point on, the design as a program. -/
def storing (δ : Type) (o : ο) : Prog (Op κ ο) (Op.Ans δ ε) (Result ο ε) :=
  if d.background then .op (.spawn o) fun _ => .ret (.ok (some o))
  else .op (.store o) fun
    | .ok _ => .ret (.ok (some o))
    | .error e => .ret ((d.unstored o e).map some)

def running (δ : Type) (r : Except ε ο) : Prog (Op κ ο) (Op.Ans δ ε) (Result ο ε) :=
  .op .initializer fun _ =>
    match r with
    | .error e => .ret (.error (d.initError e))
    | .ok o => d.storing δ o

def second (δ : Type) (key : κ) (init : Option (Except ε ο)) :
    Prog (Op κ ο) (Op.Ans δ ε) (Result ο ε) :=
  .op (.lookup key) fun
    | .ok o => .ret (.ok (some o))
    | .error _ =>
      match init with
      | none => .ret (.error (d.nilError key))
      | some r => d.running δ r

def program (δ : Type) : Stage κ ο ε → Prog (Op κ ο) (Op.Ans δ ε) (Result ο ε)
  | .first key init => .op (.lookup key) fun
    | .ok o => .ret (.ok (some o))
    | .error _ =>
      if d.nilFirst ∧ init.isNone then .ret (.error (d.nilError key)) else d.second δ key init
  | .second key init => d.second δ key init
  | .running _ r => d.running δ r
  | .storing o => d.storing δ o
  | .put o => .op (.store o) fun
    | .ok _ => .ret (.ok none)
    | .error e => .ret (d.notPut e)
  | .returned r => .ret r

/-- The machine takes the steps of the program. -/
theorem maps_program : Maps (d.machine δ) Prog.next (d.program δ) := by
  intro p
  cases p with
  | first key init =>
    refine congrArg (Prog.Next.op (Op.lookup key)) (funext fun r => ?_)
    cases r with
    | ok o => rfl
    | error e =>
      dsimp only
      split_ifs <;> rfl
  | second key init =>
    refine congrArg (Prog.Next.op (Op.lookup key)) (funext fun r => ?_)
    cases r with
    | ok o => rfl
    | error e => cases init <;> rfl
  | running key r =>
    refine congrArg (Prog.Next.op Op.initializer) (funext fun _ => ?_)
    cases r <;> rfl
  | storing o =>
    show (d.storing δ o).next = (d.machine δ (.storing o)).map (d.program δ)
    unfold storing machine
    dsimp only
    cases d.background with
    | true => rfl
    | false => exact congrArg (Prog.Next.op (Op.store o)) (funext fun r => by cases r <;> rfl)
  | put o => exact congrArg (Prog.Next.op (Op.store o)) (funext fun r => by cases r <;> rfl)
  | returned r => rfl

/-! ## What a step can do -/

variable [DecidableEq κ] (S : Store σ κ ο δ ε)

/-- A step of caller `i`, which is at `c`. -/
inductive Moves (s : State σ κ ο γ (Stage κ ο ε)) (i : ℕ)
    (c : Caller ο γ (Stage κ ο ε)) :
    State σ κ ο γ (Stage κ ο ε) → Prop
  | hit (key : κ) (init : Option (Except ε ο)) (o : ο)
    (hp : c.point = .first key init ∨ c.point = .second key init)
    (hl : S.lookup s.store key = .ok o) :
    Moves s i c (s.move i { c with
      point := .returned (.ok (some o))
      lookups := c.lookups + 1
      source := s.writes key
      returned := some s.clock })
  | firstMiss (key : κ) (init : Option (Except ε ο)) (e : δ) (hp : c.point = .first key init)
    (hl : S.lookup s.store key = .error e) :
    Moves s i c (s.move i { c with
      point := .second key init
      lookups := c.lookups + 1
      source := none })
  | missing (key : κ) (e : δ) (hp : c.point = .first key none ∨ c.point = .second key none)
    (hl : S.lookup s.store key = .error e) :
    Moves s i c (s.move i { c with
      point := .returned (.error (d.nilError key))
      lookups := c.lookups + 1
      source := none
      returned := some s.clock })
  | secondMiss (key : κ) (r : Except ε ο) (e : δ) (hp : c.point = .second key (some r))
    (hl : S.lookup s.store key = .error e) :
    Moves s i c (s.move i { c with
      point := .running key r
      lookups := c.lookups + 1
      source := none
      invoked := some s.clock })
  | initFails (key : κ) (e : ε) (hp : c.point = .running key (.error e)) :
    Moves s i c (s.move i { c with
      point := .returned (.error (d.initError e))
      returned := some s.clock })
  | initDone (key : κ) (o : ο) (hp : c.point = .running key (.ok o)) :
    Moves s i c (s.move i { c with point := .storing o })
  | spawn (o : ο) (hb : d.background = true) (hp : c.point = .storing o) :
    Moves s i c ((s.spawn i o).move i { c with
      point := .returned (.ok (some o))
      returned := some s.clock })
  | store (o : ο) (store : σ) (hb : d.background = false) (hp : c.point = .storing o)
    (hput : S.put s.store o = .ok store) :
    Moves s i c ((s.write S i o store).move i { c with
      point := .returned (.ok (some o))
      stored := some s.clock
      returned := some s.clock })
  | storeFails (o : ο) (e : ε) (hb : d.background = false) (hp : c.point = .storing o)
    (hput : S.put s.store o = .error e) :
    Moves s i c (s.move i { c with
      point := .returned ((d.unstored o e).map some)
      returned := some s.clock })
  | put (o : ο) (store : σ) (hp : c.point = .put o) (hput : S.put s.store o = .ok store) :
    Moves s i c ((s.write S i o store).move i { c with
      point := .returned (.ok none)
      stored := some s.clock
      returned := some s.clock })
  | putFails (o : ο) (e : ε) (hp : c.point = .put o) (hput : S.put s.store o = .error e) :
    Moves s i c (s.move i { c with
      point := .returned (d.notPut e)
      returned := some s.clock })

variable {d S} {start : γ → Stage κ ο ε} {s s' : State σ κ ο γ (Stage κ ο ε)}

/-- A caller that has returned stays. -/
theorem Moves.not_returned {i : ℕ} {c : Caller ο γ (Stage κ ο ε)} (h : d.Moves S s i c s')
    (r : Result ο ε) : c.point ≠ .returned r := by
  intro hr
  cases h with
  | hit key init o hp => rw [hr] at hp; rcases hp with hp | hp <;> cases hp
  | missing key e hp => rw [hr] at hp; rcases hp with hp | hp <;> cases hp
  | firstMiss _ _ _ hp | secondMiss _ _ _ hp | initFails _ _ hp | initDone _ _ hp | spawn _ _ hp
    | store _ _ _ hp | storeFails _ _ _ hp | put _ _ hp | putFails _ _ hp =>
    cases hr.symm.trans hp

theorem step_call {call : γ} (h : step S (d.machine δ) start s (.call call) = some s') :
    s' = { s with
      callers := s.callers ++ [Caller.begin (d.machine δ) s.clock call (start call)]
      clock := s.clock + 1 } := (Option.some.inj h).symm

theorem step_run {i : ℕ} (h : step S (d.machine δ) start s (.run i) = some s') :
    ∃ c, s.callers[i]? = some c ∧ d.Moves S s i c s' := by
  obtain ⟨c, hc, h⟩ := Option.bind_eq_some_iff.1 h
  refine ⟨c, hc, ?_⟩
  cases hp : c.point with
  | first key init =>
    simp only [hp, machine] at h
    cases hl : S.lookup s.store key with
    | ok o =>
      rw [hl, State.found_of_ok hl] at h
      obtain rfl := Option.some.inj h
      exact .hit key init o (Or.inl hp) hl
    | error e =>
      simp only [hl, State.found_of_error hl] at h
      split_ifs at h with hnil
      · obtain rfl := Option.some.inj h
        obtain rfl := Option.isNone_iff_eq_none.1 hnil.2
        exact .missing key e (Or.inl hp) hl
      · obtain rfl := Option.some.inj h
        exact .firstMiss key init e hp hl
  | second key init =>
    simp only [hp, machine] at h
    cases hl : S.lookup s.store key with
    | ok o =>
      rw [hl, State.found_of_ok hl] at h
      obtain rfl := Option.some.inj h
      exact .hit key init o (Or.inr hp) hl
    | error e =>
      simp only [hl, State.found_of_error hl] at h
      obtain rfl := Option.some.inj h
      cases init with
      | none => exact .missing key e (Or.inr hp) hl
      | some r => exact .secondMiss key r e hp hl
  | running key r =>
    simp only [hp, machine] at h
    obtain rfl := Option.some.inj h
    cases r with
    | error e => exact .initFails key e hp
    | ok o =>
      rw [arrive_storing]
      exact .initDone key o hp
  | storing o =>
    cases hb : d.background with
    | true =>
      simp only [hp, machine, hb, if_true] at h
      obtain rfl := Option.some.inj h
      exact .spawn o hb hp
    | false =>
      simp only [hp, machine, hb, Bool.false_eq_true, if_false] at h
      cases hput : S.put s.store o with
      | ok store =>
        rw [hput] at h
        obtain rfl := Option.some.inj h
        exact .store o store hb hp hput
      | error e =>
        rw [hput] at h
        obtain rfl := Option.some.inj h
        exact .storeFails o e hb hp hput
  | put o =>
    simp only [hp, machine] at h
    cases hput : S.put s.store o with
    | ok store =>
      rw [hput] at h
      obtain rfl := Option.some.inj h
      exact .put o store hp hput
    | error e =>
      rw [hput] at h
      obtain rfl := Option.some.inj h
      exact .putFails o e hp hput
  | returned r =>
    rw [hp] at h
    cases h

theorem step_put {n : ℕ} (h : step S (d.machine δ) start s (.put n) = some s') :
    ∃ p, s.pending[n]? = some p ∧
      ((∃ store, S.put s.store p.object = .ok store ∧
        s' = State.mark ({ s with pending := s.pending.eraseIdx n }.write S p.caller p.object store)
          p.caller) ∨
      ∃ e, S.put s.store p.object = .error e ∧
        s' = { s with pending := s.pending.eraseIdx n, clock := s.clock + 1 }) := by
  obtain ⟨p, hp, h⟩ := Option.map_eq_some_iff.1 h
  refine ⟨p, hp, ?_⟩
  dsimp only at h
  cases hput : S.put s.store p.object with
  | ok store =>
    rw [hput] at h
    exact Or.inl ⟨store, rfl, h.symm⟩
  | error e =>
    rw [hput] at h
    exact Or.inr ⟨e, rfl, h.symm⟩

end Design

end CacheAside
