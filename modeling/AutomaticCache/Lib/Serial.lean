import AutomaticCache.Lib.Prog
import AutomaticCache.Lib.Run
import Mathlib.Logic.Function.Basic
import Mathlib.Data.List.Nodup

/-!
# As if one after the other

Transactions read and write a store, one access at a time, in any order. Where no access touches
what another transaction, which is still running, has touched, unless both only read (`Apart`), each
does what it would have done alone, at the moment at which it ends (`serializable`).

A transaction is a program whose operations are accesses. `γ` are the calls, `body` what a call
runs.
-/

namespace Serial

open Runs

variable {κ γ α : Type} {ν : κ → Type}

inductive Access (κ : Type) (ν : κ → Type)
  | read (k : κ)
  | write (k : κ) (v : ν k)

abbrev Access.Ans : Access κ ν → Type
  | .read k => ν k
  | .write _ _ => Unit

abbrev Store (ν : κ → Type) := (k : κ) → ν k

/-- A transaction. -/
abbrev Tx (κ : Type) (ν : κ → Type) (α : Type) := Prog (Access κ ν) Access.Ans α

def access [DecidableEq κ] : (a : Access κ ν) → Store ν → a.Ans × Store ν
  | .read k, s => (s k, s)
  | .write k v, s => ((), Function.update s k v)

/-- The calls one after the other, each alone. -/
def serially [DecidableEq κ] (body : γ → Tx κ ν α) :
    List γ → Store ν → List α × Store ν
  | [], s => ([], s)
  | g :: gs, s =>
    ((Prog.exec access (body g) s).1 :: (serially body gs (Prog.exec access (body g) s).2).1,
      (serially body gs (Prog.exec access (body g) s).2).2)

theorem serially_concat [DecidableEq κ] (body : γ → Tx κ ν α) (gs : List γ) (g : γ)
    (s : Store ν) :
    serially body (gs ++ [g]) s =
      ((serially body gs s).1 ++ [(Prog.exec access (body g) (serially body gs s).2).1],
        (Prog.exec access (body g) (serially body gs s).2).2) := by
  induction gs generalizing s with
  | nil => rfl
  | cons g' gs ih =>
    rw [List.cons_append, serially, ih]
    rfl

/-! ## The system -/

/-- A transaction that has started, with what is left of it and the keys it has touched. -/
structure Running (γ κ : Type) (ν : κ → Type) (α : Type) where
  call : γ
  rest : Tx κ ν α
  reads : List κ
  writes : List κ
  ended : Bool

/-- What has ended, and how; its number is none where it was a write of the environment. -/
structure Entry (γ α : Type) where
  number : Option ℕ
  call : γ
  result : α

structure State (γ κ : Type) (ν : κ → Type) (α : Type) where
  store : Store ν
  txs : List (Running γ κ ν α)
  /-- In the order of their ends. -/
  ended : List (Entry γ α)

inductive Act (γ : Type)
  | start (g : γ)
  /-- The next access of the `i`-th transaction. -/
  | advance (i : ℕ)
  | finish (i : ℕ)
  /-- A call that is one write, made at once. -/
  | write (g : γ)

def Running.started (body : γ → Tx κ ν α) (g : γ) : Running γ κ ν α :=
  ⟨g, body g, [], [], false⟩

/-- The transaction after an access. -/
def Running.after (r : Running γ κ ν α) (a : Access κ ν) (rest : Tx κ ν α) :
    Running γ κ ν α :=
  match a with
  | .read k => { r with rest := rest, reads := k :: r.reads }
  | .write k _ => { r with rest := rest, writes := k :: r.writes }

variable [DecidableEq κ] (body : γ → Tx κ ν α)

def step (s : State γ κ ν α) : Act γ → Option (State γ κ ν α)
  | .start g => some { s with txs := s.txs ++ [.started body g] }
  | .advance i => s.txs[i]?.bind fun r =>
      match r.ended, r.rest with
      | false, .op a next => some { s with
          store := (access a s.store).2
          txs := s.txs.set i (r.after a (next (access a s.store).1)) }
      | _, _ => none
  | .finish i => s.txs[i]?.bind fun r =>
      match r.ended, r.rest with
      | false, .ret a => some { s with
          txs := s.txs.set i { r with ended := true }
          ended := s.ended ++ [⟨some i, r.call, a⟩] }
      | _, _ => none
  | .write g =>
    match body g with
    | .op (.write k v) next =>
      match next () with
      | .ret a => some { s with
          store := Function.update s.store k v
          ended := s.ended ++ [⟨none, g, a⟩] }
      | _ => none
    | _ => none

def system (s₀ : Store ν) : System (State γ κ ν α) (Act γ) where
  init := ⟨s₀, [], []⟩
  step := step body

/-! ## Apart -/

/-- The access does not meet one of the transaction. -/
def Running.Leaves (r : Running γ κ ν α) : Access κ ν → Prop
  | .read k => k ∉ r.writes
  | .write k _ => k ∉ r.reads ∧ k ∉ r.writes

/-- What the first has written, the second has not touched. -/
def Running.Apart (r r' : Running γ κ ν α) : Prop :=
  ∀ k ∈ r.writes, k ∉ r'.reads ∧ k ∉ r'.writes

/-- The access of the `i`-th transaction does not meet one of any other that is running. -/
def State.OthersLeave (s : State γ κ ν α) (i : ℕ) (a : Access κ ν) : Prop :=
  ∀ j r, s.txs[j]? = some r → j ≠ i → r.ended = false → r.Leaves a

def Apart (s : State γ κ ν α) : Act γ → Prop
  | .advance i => ∀ r ∈ s.txs[i]?, ∀ a next, r.rest = .op a next → s.OthersLeave i a
  | .write g => ∀ a next, body g = .op a next → ∀ r ∈ s.txs, r.ended = false → r.Leaves a
  | .start _ | .finish _ => True

/-! ## A transaction alone -/

/-- What is left of the transaction `t` after some accesses in `σ`, the keys it has touched, and
what it has made of the store. -/
inductive Reaches (σ : Store ν) (t : Tx κ ν α) :
    Tx κ ν α → List κ → List κ → Store ν → Prop
  | start : Reaches σ t t [] [] σ
  | read {k : κ} {next : ν k → Tx κ ν α} {R W : List κ} {τ : Store ν}
    (h : Reaches σ t (.op (.read k) next) R W τ) : Reaches σ t (next (τ k)) (k :: R) W τ
  | write {k : κ} {v : ν k} {next : Unit → Tx κ ν α} {R W : List κ} {τ : Store ν}
    (h : Reaches σ t (.op (.write k v) next) R W τ) :
    Reaches σ t (next ()) R (k :: W) (Function.update τ k v)

namespace Reaches

variable {σ σ' τ : Store ν} {t rest : Tx κ ν α} {R W : List κ}

theorem exec_eq (h : Reaches σ t rest R W τ) :
    Prog.exec access t σ = Prog.exec access rest τ := by
  induction h with
  | start => rfl
  | read h ih => exact ih
  | write h ih => exact ih

/-- It has written no other keys. -/
theorem unwritten (h : Reaches σ t rest R W τ) {k : κ} (hk : k ∉ W) : τ k = σ k := by
  induction h with
  | start => rfl
  | read h ih => exact ih hk
  | @write k' v next R W τ h ih =>
    rw [Function.update_of_ne (List.ne_of_not_mem_cons hk), ih (List.not_mem_of_not_mem_cons hk)]

/-- It depends on the keys that it has read, and on no others. -/
theorem frame (h : Reaches σ t rest R W τ) (hR : ∀ k ∈ R, σ' k = σ k) :
    Reaches σ' t rest R W fun k => if k ∈ W then τ k else σ' k := by
  induction h with
  | start => simpa using Reaches.start (σ := σ') (t := t)
  | @read k next R W τ h ih =>
    have ih := ih fun k' hk' => hR k' (List.mem_cons_of_mem k hk')
    have heq : (if k ∈ W then τ k else σ' k) = τ k := by
      by_cases hk : k ∈ W
      · rw [if_pos hk]
      · rw [if_neg hk, hR k (List.mem_cons_self ..), h.unwritten hk]
    have hread := ih.read
    rwa [heq] at hread
  | @write k v next R W τ h ih =>
    have hwrite := (ih hR).write
    have heq : (Function.update (fun k' => if k' ∈ W then τ k' else σ' k') k v : Store ν) =
        fun k' => if k' ∈ k :: W then Function.update τ k v k' else σ' k' := by
      funext k'
      by_cases hk' : k' = k
      · subst hk'
        rw [Function.update_self, if_pos (List.mem_cons_self ..), Function.update_self]
      · simp only [Function.update_of_ne hk', List.mem_cons, hk', false_or]
    rwa [heq] at hwrite

end Reaches

/-! ## Every run -/

/-- Each transaction that has ended did what it does alone after those that had ended before, in a
store that holds what all of them have made of it (`σ`). Each that is running has got, alone in
that store, to where it is. -/
structure Ordered (s₀ : Store ν) (s : State γ κ ν α) (σ : Store ν) : Prop where
  ended : serially body (s.ended.map Entry.call) s₀ = (s.ended.map Entry.result, σ)
  entries : ∀ e ∈ s.ended, ∀ i, e.number = some i →
    ∃ r, s.txs[i]? = some r ∧ r.ended = true ∧ r.call = e.call ∧ r.rest = .ret e.result
  complete : ∀ (i : ℕ) (r : Running γ κ ν α), s.txs[i]? = some r → r.ended = true →
    ∃ e ∈ s.ended, e.number = some i
  once : (s.ended.filterMap Entry.number).Nodup
  running : ∀ r ∈ s.txs, r.ended = false →
    ∃ τ, Reaches σ (body r.call) r.rest r.reads r.writes τ ∧ ∀ k ∈ r.writes,
      τ k = s.store k
  apart : ∀ (i j : ℕ) (r r' : Running γ κ ν α), s.txs[i]? = some r →
    s.txs[j]? = some r' → i ≠ j →
    r.ended = false → r'.ended = false → r.Apart r'
  unwritten : ∀ k, (∀ r ∈ s.txs, r.ended = false → k ∉ r.writes) → s.store k = σ k

theorem ordered_init (s₀ : Store ν) : Ordered body s₀ (system body s₀).init s₀ where
  ended := rfl
  entries := fun _ h => absurd h List.not_mem_nil
  complete := fun i r h => by
    have hnone : ([] : List (Running γ κ ν α))[i]? = some r := h
    cases hnone
  once := List.nodup_nil
  running := fun _ h => absurd h List.not_mem_nil
  apart := fun i _ r _ h => by
    have hnone : ([] : List (Running γ κ ν α))[i]? = some r := h
    cases hnone
  unwritten := fun _ _ => rfl

variable {body} {s₀ σ : Store ν} {s s' : State γ κ ν α} {i : ℕ} {r : Running γ κ ν α}

theorem Ordered.start (h : Ordered body s₀ s σ) (g : γ) :
    Ordered body s₀ { s with txs := s.txs ++ [.started body g] } σ where
  ended := h.ended
  entries := fun e he i hi => by
    obtain ⟨r, hr, hrest⟩ := h.entries e he i hi
    exact ⟨r, (List.getElem?_append_left (List.getElem?_eq_some_iff.1 hr).1).trans hr, hrest⟩
  complete := fun i r hr hended => by
    rcases getElem?_concat_cases hr with hr | ⟨-, rfl⟩
    · exact h.complete i r hr hended
    · cases hended
  once := h.once
  running := fun r hr hended => by
    rcases List.mem_append.1 hr with hr | hr
    · exact h.running r hr hended
    · obtain rfl := List.mem_singleton.1 hr
      exact ⟨σ, .start, fun k hk => absurd hk List.not_mem_nil⟩
  apart := fun i j r r' hr hr' hij hended hended' k hk => by
    rcases getElem?_concat_cases hr with hr | ⟨-, rfl⟩
    · rcases getElem?_concat_cases hr' with hr' | ⟨-, rfl⟩
      · exact h.apart i j r r' hr hr' hij hended hended' k hk
      · exact ⟨List.not_mem_nil, List.not_mem_nil⟩
    · exact absurd hk List.not_mem_nil
  unwritten := fun k hk => h.unwritten k fun r hr => hk r (List.mem_append_left _ hr)

/-! ### An access -/

namespace Running

variable {r' : Running γ κ ν α} {a : Access κ ν} {k : κ} {rest : Tx κ ν α}

omit [DecidableEq κ] in
@[simp] theorem after_ended : (r.after a rest).ended = r.ended := by cases a <;> rfl

omit [DecidableEq κ] in
@[simp] theorem after_call : (r.after a rest).call = r.call := by cases a <;> rfl

omit [DecidableEq κ] in
@[simp] theorem after_rest : (r.after a rest).rest = rest := by cases a <;> rfl

omit [DecidableEq κ] in
theorem Apart.after_left (h : r.Apart r') (hleaves : r'.Leaves a) : (r.after a rest).Apart r' := by
  intro k hk
  cases a with
  | read k' => exact h k hk
  | write k' v =>
    rcases List.mem_cons.1 hk with rfl | hk
    · exact hleaves
    · exact h k hk

omit [DecidableEq κ] in
theorem Apart.after_right (h : r'.Apart r) (hleaves : r'.Leaves a) : r'.Apart (r.after a rest) := by
  intro k hk
  obtain ⟨hreads, hwrites⟩ := h k hk
  cases a with
  | read k' =>
    have hne : k ≠ k' := fun he => hleaves (he ▸ hk)
    exact ⟨List.not_mem_cons_of_ne_of_not_mem hne hreads, hwrites⟩
  | write k' v =>
    have hne : k ≠ k' := fun he => hleaves.2 (he ▸ hk)
    exact ⟨hreads, List.not_mem_cons_of_ne_of_not_mem hne hwrites⟩

/-- What it has written is not written again. -/
theorem Leaves.access_eq (h : r.Leaves a) (hk : k ∈ r.writes) (s : Store ν) :
    (access a s).2 k = s k := by
  cases a with
  | read k' => rfl
  | write k' v =>
    have hne : k ≠ k' := fun he => h.2 (he ▸ hk)
    exact Function.update_of_ne hne v s

/-- What it has not written after the access, was not written by it. -/
theorem not_mem_writes_after (h : k ∉ (r.after a rest).writes) (s : Store ν) :
    k ∉ r.writes ∧ (access a s).2 k = s k := by
  cases a with
  | read k' => exact ⟨h, rfl⟩
  | write k' v =>
    exact ⟨List.not_mem_of_not_mem_cons h,
      Function.update_of_ne (List.ne_of_not_mem_cons h) v s⟩

/-- Two stores that hold the same where it has written do so after the access. -/
theorem access_eq_access {s τ : Store ν} (h : ∀ k ∈ r.writes, τ k = s k)
    (hk : k ∈ (r.after a rest).writes) : (access a τ).2 k = (access a s).2 k := by
  cases a with
  | read k' => exact h k hk
  | write k' v =>
    show Function.update τ k' v k = Function.update s k' v k
    by_cases hkk : k = k'
    · subst hkk
      rw [Function.update_self, Function.update_self]
    · rw [Function.update_of_ne hkk, Function.update_of_ne hkk]
      exact h k ((List.mem_cons.1 hk).resolve_left hkk)

end Running

theorem Reaches.after {t : Tx κ ν α} {τ : Store ν} {a : Access κ ν}
    {next : a.Ans → Tx κ ν α} (h : Reaches σ t (.op a next) r.reads r.writes τ) :
    Reaches σ t (next (access a τ).1) (r.after a (next (access a τ).1)).reads
      (r.after a (next (access a τ).1)).writes (access a τ).2 := by
  cases a with
  | read k => exact h.read
  | write k v => exact h.write

/-- What the transaction reads in the store is what it would read alone. -/
theorem Ordered.access_eq (h : Ordered body s₀ s σ) (hr : s.txs[i]? = some r) {a : Access κ ν}
    (hothers : s.OthersLeave i a) {t rest : Tx κ ν α} {τ : Store ν}
    (hreach : Reaches σ t rest r.reads r.writes τ) (hτ : ∀ k ∈ r.writes, τ k = s.store k) :
    (access a τ).1 = (access a s.store).1 := by
  cases a with
  | write k v => rfl
  | read k =>
    show τ k = s.store k
    by_cases hk : k ∈ r.writes
    · exact hτ k hk
    · rw [hreach.unwritten hk]
      refine (h.unwritten k fun r' hr' hended => ?_).symm
      obtain ⟨j, hj⟩ := List.getElem?_of_mem hr'
      by_cases hji : j = i
      · subst hji
        rwa [← Option.some.inj (hr.symm.trans hj)]
      · exact hothers j r' hj hji hended

theorem Ordered.access (h : Ordered body s₀ s σ) (hr : s.txs[i]? = some r)
    (hrun : r.ended = false) {a : Access κ ν} {next : a.Ans → Tx κ ν α}
    (hrest : r.rest = .op a next) (hothers : s.OthersLeave i a) :
    Ordered body s₀ { s with
      store := (Serial.access a s.store).2
      txs := s.txs.set i (r.after a (next (Serial.access a s.store).1)) } σ where
  ended := h.ended
  entries := fun e he j hj => by
    obtain ⟨r', hr', hended, hrest⟩ := h.entries e he j hj
    have hij : i ≠ j := by
      rintro rfl
      rw [Option.some.inj (hr.symm.trans hr'), hended] at hrun
      cases hrun
    exact ⟨r', (List.getElem?_set_ne hij).trans hr', hended, hrest⟩
  complete := fun j r' hr' hended => by
    rcases getElem?_set_cases hr' with ⟨-, rfl⟩ | ⟨-, hold⟩
    · rw [Running.after_ended, hrun] at hended
      cases hended
    · exact h.complete j r' hold hended
  once := h.once
  running := fun r' hr' hended => by
    obtain ⟨j, hj⟩ := List.getElem?_of_mem hr'
    rcases getElem?_set_cases hj with ⟨-, rfl⟩ | ⟨hji, hold⟩
    · obtain ⟨τ, hreach, hτ⟩ := h.running r (List.mem_of_getElem? hr) hrun
      have heq := h.access_eq hr hothers hreach hτ
      rw [hrest] at hreach
      rw [Running.after_call, Running.after_rest, ← heq]
      exact ⟨_, hreach.after, fun k hk => Running.access_eq_access hτ hk⟩
    · obtain ⟨τ, hreach, hτ⟩ := h.running r' (List.mem_of_getElem? hold) hended
      exact ⟨τ, hreach, fun k hk => (hτ k hk).trans
        ((hothers j r' hold hji hended).access_eq hk _).symm⟩
  apart := fun j j' r₁ r₂ h₁ h₂ hne hended₁ hended₂ => by
    rcases getElem?_set_cases h₁ with ⟨rfl, rfl⟩ | ⟨hj, hold₁⟩
    · rcases getElem?_set_cases h₂ with ⟨rfl, -⟩ | ⟨hj', hold₂⟩
      · exact absurd rfl hne
      · exact (h.apart j j' r r₂ hr hold₂ hne hrun hended₂).after_left
          (hothers j' r₂ hold₂ hj' hended₂)
    · rcases getElem?_set_cases h₂ with ⟨rfl, rfl⟩ | ⟨-, hold₂⟩
      · exact (h.apart j j' r₁ r hold₁ hr hne hended₁ hrun).after_right
          (hothers j r₁ hold₁ hj hended₁)
      · exact h.apart j j' r₁ r₂ hold₁ hold₂ hne hended₁ hended₂
  unwritten := fun k hk => by
    have hset := List.getElem?_set_self (a := r.after a (next (Serial.access a s.store).1))
      (List.getElem?_eq_some_iff.1 hr).1
    have hnew := hk _ (List.mem_of_getElem? hset) (Running.after_ended.trans hrun)
    obtain ⟨hself, heq⟩ := Running.not_mem_writes_after hnew s.store
    refine heq.trans (h.unwritten k fun r' hr' hended => ?_)
    obtain ⟨j, hj⟩ := List.getElem?_of_mem hr'
    by_cases hji : j = i
    · subst hji
      rwa [← Option.some.inj (hr.symm.trans hj)]
    · exact hk r' (List.mem_of_getElem? ((List.getElem?_set_ne (Ne.symm hji)).trans hj)) hended

/-! ### An end -/

/-- Who is running has not touched what another one has made of the store, so that it has got to
where it is in that store as well. -/
theorem Reaches.beside {r' : Running γ κ ν α} {t t' rest : Tx κ ν α} {τ τ' : Store ν}
    (h : Reaches σ t r.rest r.reads r.writes τ) (h' : Reaches σ t' rest r'.reads r'.writes τ')
    (hapart : r'.Apart r) (hτ : ∀ k ∈ r.writes, τ k = s.store k) :
    ∃ τ'', Reaches τ' t r.rest r.reads r.writes τ'' ∧ ∀ k ∈ r.writes,
      τ'' k = s.store k := by
  refine ⟨_, h.frame fun k hk => h'.unwritten fun hw => (hapart k hw).1 hk, fun k hk => ?_⟩
  rw [if_pos hk, hτ k hk]

/-- The transaction that ends comes after all that have ended. -/
theorem Ordered.finish (h : Ordered body s₀ s σ) (hr : s.txs[i]? = some r)
    (hrun : r.ended = false) {a : α} (hrest : r.rest = .ret a) :
    ∃ σ', Ordered body s₀ { s with
      txs := s.txs.set i { r with ended := true }
      ended := s.ended ++ [⟨some i, r.call, a⟩] } σ' := by
  obtain ⟨τ, hreach, hτ⟩ := h.running r (List.mem_of_getElem? hr) hrun
  have hlt := (List.getElem?_eq_some_iff.1 hr).1
  have hexec : Prog.exec Serial.access (body r.call) σ = (a, τ) := by
    rw [hreach.exec_eq, hrest, Prog.exec_ret]
  have hfresh : ∀ e ∈ s.ended, e.number ≠ some i := by
    intro e he hi
    obtain ⟨r', hr', hended, -⟩ := h.entries e he i hi
    rw [Option.some.inj (hr.symm.trans hr'), hended] at hrun
    cases hrun
  refine ⟨τ, ?_, fun e he j hj => ?_, fun j r' hr' hended => ?_, ?_, fun r' hr' hended => ?_,
    fun j j' r₁ r₂ h₁ h₂ hne hended₁ hended₂ => ?_, fun k hk => ?_⟩
  · rw [List.map_append, List.map_append, List.map_singleton, List.map_singleton,
      serially_concat, h.ended,
      hexec]
  · rcases List.mem_append.1 he with he | he
    · obtain ⟨r', hr', hrest'⟩ := h.entries e he j hj
      have hij : i ≠ j := fun hij => hfresh e he (hij ▸ hj)
      exact ⟨r', (List.getElem?_set_ne hij).trans hr', hrest'⟩
    · obtain rfl := List.mem_singleton.1 he
      obtain rfl := Option.some.inj hj
      exact ⟨_, List.getElem?_set_self hlt, rfl, rfl, hrest⟩
  · rcases getElem?_set_cases hr' with ⟨rfl, -⟩ | ⟨-, hold⟩
    · exact ⟨_, List.mem_append_right _ (List.mem_singleton_self _), rfl⟩
    · obtain ⟨e, he, hnumber⟩ := h.complete j r' hold hended
      exact ⟨e, List.mem_append_left _ he, hnumber⟩
  · rw [List.filterMap_append]
    refine List.Nodup.append h.once (List.nodup_singleton i) ?_
    intro j hi hj
    obtain rfl : j = i := List.mem_singleton.1 hj
    obtain ⟨e, he, hi⟩ := List.mem_filterMap.1 hi
    exact hfresh e he hi
  · obtain ⟨j, hj⟩ := List.getElem?_of_mem hr'
    rcases getElem?_set_cases hj with ⟨-, rfl⟩ | ⟨hji, hold⟩
    · cases hended
    · obtain ⟨τ', hreach', hτ'⟩ := h.running r' (List.mem_of_getElem? hold) hended
      exact hreach'.beside hreach (h.apart i j r r' hr hold (Ne.symm hji) hrun hended) hτ'
  · rcases getElem?_set_cases h₁ with ⟨-, rfl⟩ | ⟨-, hold₁⟩
    · cases hended₁
    · rcases getElem?_set_cases h₂ with ⟨-, rfl⟩ | ⟨-, hold₂⟩
      · cases hended₂
      · exact h.apart j j' r₁ r₂ hold₁ hold₂ hne hended₁ hended₂
  · by_cases hself : k ∈ r.writes
    · exact (hτ k hself).symm
    · rw [hreach.unwritten hself]
      refine h.unwritten k fun r' hr' hended => ?_
      obtain ⟨j, hj⟩ := List.getElem?_of_mem hr'
      by_cases hji : j = i
      · subst hji
        rwa [← Option.some.inj (hr.symm.trans hj)]
      · exact hk r' (List.mem_of_getElem? ((List.getElem?_set_ne (Ne.symm hji)).trans hj)) hended

/-- A write of the environment comes after all that have ended. -/
theorem Ordered.environment (h : Ordered body s₀ s σ) {g : γ} {k : κ} {v : ν k}
    {next : Unit → Tx κ ν α} {a : α} (hbody : body g = .op (.write k v) next)
    (hret : next () = .ret a) (hothers : ∀ r ∈ s.txs, r.ended = false →
      r.Leaves (.write k v)) :
    Ordered body s₀ { s with
      store := Function.update s.store k v
      ended := s.ended ++ [⟨none, g, a⟩] } (Function.update σ k v) where
  ended := by
    rw [List.map_append, List.map_append, List.map_singleton, List.map_singleton,
      serially_concat, h.ended,
      hbody, Prog.exec_op]
    show (_ ++ [(Prog.exec Serial.access (next ()) _).1],
      (Prog.exec Serial.access (next ()) _).2) = _
    rw [hret]
    rfl
  entries := fun e he i hi => by
    rcases List.mem_append.1 he with he | he
    · exact h.entries e he i hi
    · obtain rfl := List.mem_singleton.1 he
      cases hi
  complete := fun i r hr hended => by
    obtain ⟨e, he, hnumber⟩ := h.complete i r hr hended
    exact ⟨e, List.mem_append_left _ he, hnumber⟩
  once := by
    rw [List.filterMap_append]
    show (_ ++ []).Nodup
    rw [List.append_nil]
    exact h.once
  running := fun r hr hended => by
    obtain ⟨τ, hreach, hτ⟩ := h.running r hr hended
    obtain ⟨hreads, hwrites⟩ := hothers r hr hended
    have hne {l : List κ} (hl : k ∉ l) {k' : κ} (hk' : k' ∈ l) : k' ≠ k :=
      fun he => hl (he ▸ hk')
    refine ⟨_, hreach.frame fun k' hk' => Function.update_of_ne (hne hreads hk') v σ,
      fun k' hk' => ?_⟩
    rw [if_pos hk', hτ k' hk']
    exact (Function.update_of_ne (hne hwrites hk') v s.store).symm
  apart := h.apart
  unwritten := fun k' hk' => by
    show Function.update s.store k v k' = Function.update σ k v k'
    by_cases hkk : k' = k
    · subst hkk
      rw [Function.update_self, Function.update_self]
    · rw [Function.update_of_ne hkk, Function.update_of_ne hkk]
      exact h.unwritten k' hk'

/-! ### Runs -/

theorem Ordered.step (h : Ordered body s₀ s σ) {a : Act γ} (hapart : Apart body s a)
    (hs : Serial.step body s a = some s') : ∃ σ', Ordered body s₀ s' σ' := by
  cases a with
  | start g =>
    cases hs
    exact ⟨σ, h.start g⟩
  | advance i =>
    obtain ⟨r, hr, hs⟩ := Option.bind_eq_some_iff.1 hs
    split at hs
    · rename_i a next hrun hrest
      cases hs
      exact ⟨σ, h.access hr hrun hrest (hapart r hr a next hrest)⟩
    · cases hs
  | finish i =>
    obtain ⟨r, hr, hs⟩ := Option.bind_eq_some_iff.1 hs
    split at hs
    · rename_i a hrun hrest
      cases hs
      exact h.finish hr hrun hrest
    · cases hs
  | write g =>
    simp only [Serial.step] at hs
    split at hs
    · rename_i k v next hbody
      split at hs
      · rename_i a hret
        cases hs
        exact ⟨_, h.environment hbody hret (hapart _ next hbody)⟩
      · cases hs
    · cases hs

/-- Accesses of a transaction, one after the other. -/
inductive Goes : Store ν → Running γ κ ν α → List (Access κ ν) → Store ν →
    Running γ κ ν α → Prop
  | stay (store : Store ν) (r : Running γ κ ν α) : Goes store r [] store r
  | access {store store' : Store ν} {r r' : Running γ κ ν α} {a : Access κ ν}
    {next : a.Ans → Tx κ ν α} {as : List (Access κ ν)} (hrest : r.rest = .op a next)
    (h : Goes (Serial.access a store).2 (r.after a (next (Serial.access a store).1)) as store' r') :
    Goes store r (a :: as) store' r'

/-- They are steps of the system, and apart where none meets another transaction. -/
theorem run_goes (hr : s.txs[i]? = some r) (hrun : r.ended = false) {as : List (Access κ ν)}
    {store : Store ν} {r' : Running γ κ ν α} (hg : Goes s.store r as store r')
    (hothers : ∀ a ∈ as, s.OthersLeave i a) :
    ∃ bs, (system body s₀).run s bs = some { s with store := store, txs := s.txs.set i r' } ∧
      (system body s₀).Steps (Apart body) s bs ∧ r'.ended = false ∧ r'.call = r.call := by
  obtain ⟨start, txs, ended⟩ := s
  dsimp only at hg hr
  induction hg generalizing txs with
  | stay store r =>
    obtain ⟨hlt, hget⟩ := List.getElem?_eq_some_iff.1 hr
    have hsame : txs.set i r = txs := by rw [← hget, List.set_getElem_self]
    exact ⟨[], by rw [hsame]; rfl, trivial, hrun, rfl⟩
  | @access store store' r r' a next as hrest hg ih =>
    have hlt := (List.getElem?_eq_some_iff.1 hr).1
    have hstep : Serial.step body ⟨store, txs, ended⟩ (.advance i) =
        some ⟨(Serial.access a store).2,
        txs.set i (r.after a (next (Serial.access a store).1)), ended⟩ := by
      simp only [Serial.step, hr, Option.bind_some, hrun, hrest]
    have hapart : Apart body ⟨store, txs, ended⟩ (.advance i) := by
      intro r₁ hr₁ a₁ next₁ hrest₁
      obtain rfl := Option.some.inj (hr.symm.trans hr₁)
      cases hrest.symm.trans hrest₁
      exact hothers a (List.mem_cons_self ..)
    obtain ⟨bs, hbs, hsteps, hrun', hcall⟩ := ih (Running.after_ended.trans hrun) _
      (List.getElem?_set_self hlt) fun a' ha' j r₁ hj hji hended =>
        hothers a' (List.mem_cons_of_mem a ha') j r₁
        ((List.getElem?_set_ne (Ne.symm hji)).symm.trans hj) hji hended
    rw [List.set_set] at hbs
    refine ⟨.advance i :: bs, (System.run_cons_eq hstep).trans hbs,
      ⟨hapart, fun s' hs' => ?_⟩, hrun',
      hcall.trans Running.after_call⟩
    obtain rfl := Option.some.inj (hstep.symm.trans hs')
    exact hsteps

/-- **Serializability.** -/
theorem serializable {as : List (Act γ)}
    (hrun : (system body s₀).run (system body s₀).init as = some s)
    (hapart : (system body s₀).Steps (Apart body) (system body s₀).init as) :
    ∃ σ, Ordered body s₀ s σ :=
  System.run_invariant (I := fun s => ∃ σ, Ordered body s₀ s σ)
    (fun _ _ _ ⟨_, h⟩ hapart hs => h.step hapart hs)
      ⟨s₀, ordered_init body s₀⟩ hapart hrun

end Serial
