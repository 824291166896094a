import AutomaticCache.Lib.CacheAside.Design
import Mathlib.Data.Finmap

/-!
# One call after the other

What a cache is for: a finite map that fills itself (`Spec`). A single caller of a double-checked
cache gets from every call what the map gives, whatever is left to run in the background, as long as
it makes no call for a key whose object is still to be stored (`Follows.step`).
-/

namespace CacheAside

open Runs

variable {σ κ ο δ ε γ ς : Type}

/-- What a call returns, none for an error, and whether it runs its initializer. -/
structure Outcome (ο : Type) where
  returned : Option (Option ο)
  invoked : Bool
  deriving DecidableEq

namespace Spec

variable [DecidableEq κ] (keyOf : ο → κ)

/-- A call of a finite map that fills itself: what it gives, and the map after. -/
def call (m : Finmap fun _ : κ => ο) : Call κ ο ε → Outcome ο × Finmap fun _ : κ => ο
  | .put o => (⟨some none, false⟩, m.insert (keyOf o) o)
  | .get key init =>
    match m.lookup key with
    | some o => (⟨some (some o), false⟩, m)
    | none =>
      match init with
      | none => (⟨none, false⟩, m)
      | some (.error _) => (⟨none, true⟩, m)
      | some (.ok o) => (⟨some (some o), true⟩, m.insert (keyOf o) o)

/-- The map after some calls. -/
def after (m : Finmap fun _ : κ => ο) (calls : List (Call κ ο ε)) : Finmap fun _ : κ => ο :=
  calls.foldl (fun m c => (call keyOf m c).2) m

/-- What the calls give. -/
def outcomes (m : Finmap fun _ : κ => ο) : List (Call κ ο ε) → List (Outcome ο)
  | [] => []
  | c :: calls => (call keyOf m c).1 :: outcomes (call keyOf m c).2 calls

variable {keyOf}

section call

variable {m : Finmap fun _ : κ => ο} {key : κ}

theorem call_put (o : ο) :
    call (ε := ε) keyOf m (.put o) = (⟨some none, false⟩, m.insert (keyOf o) o) := rfl

theorem call_found {init : Option (Except ε ο)} {o : ο} (h : m.lookup key = some o) :
    call keyOf m (.get key init) = (⟨some (some o), false⟩, m) := by
  simp only [call, h]

theorem call_nil (h : m.lookup key = none) :
    call keyOf m (.get key (none : Option (Except ε ο))) = (⟨none, false⟩, m) := by
  simp only [call, h]

theorem call_fails (e : ε) (h : m.lookup key = none) :
    call keyOf m (.get key (some (.error e))) = (⟨none, true⟩, m) := by
  simp only [call, h]

theorem call_fills (o : ο) (h : m.lookup key = none) :
    call keyOf m (.get key (some (.ok o : Except ε ο))) =
      (⟨some (some o), true⟩, m.insert (keyOf o) o) := by
  simp only [call, h]

end call

theorem after_concat (m : Finmap fun _ : κ => ο) (calls : List (Call κ ο ε))
    (c : Call κ ο ε) :
    after keyOf m (calls ++ [c]) = (call keyOf (after keyOf m calls) c).2 := by
  unfold after
  rw [List.foldl_append]
  rfl

theorem outcomes_concat (m : Finmap fun _ : κ => ο) (calls : List (Call κ ο ε))
    (c : Call κ ο ε) :
    outcomes keyOf m (calls ++ [c]) =
      outcomes keyOf m calls ++ [(call keyOf (after keyOf m calls) c).1] := by
  induction calls generalizing m with
  | nil => rfl
  | cons a calls ih => exact congrArg _ (ih _)

theorem length_outcomes (m : Finmap fun _ : κ => ο) (calls : List (Call κ ο ε)) :
    (outcomes keyOf m calls).length = calls.length := by
  induction calls generalizing m with
  | nil => rfl
  | cons a calls ih => exact congrArg (· + 1) (ih _)

end Spec

/-! ## Calls and stores that the map is compared with -/

/-- The key of a call. -/
def Call.key (keyOf : ο → κ) : Call κ ο ε → κ
  | .get key _ => key
  | .put o => keyOf o

/-- A call for a valid key whose objects are good, and whose initializer gives objects for the
key. -/
def Call.Valid (keyOf : ο → κ) (valid : κ → Prop) (good : ο → Prop) :
    Call κ ο ε → Prop
  | .get key init => valid key ∧ ∀ o, init = some (.ok o) → keyOf o = key ∧ good o
  | .put o => valid (keyOf o) ∧ good o

/-- The store takes every good object for a valid key and gives it back unchanged. -/
structure Store.Exact (S : Store σ κ ο δ ε) (valid : κ → Prop) (good : ο → Prop) :
    Prop where
  accepts : ∀ s o, valid (S.keyOf o) → good o → ∃ s', S.put s o = .ok s'
  found : ∀ s s' o, valid (S.keyOf o) → good o → S.put s o = .ok s' →
    S.lookup s' (S.keyOf o) = .ok o
  other : ∀ s s' o k, S.put s o = .ok s' → k ≠ S.keyOf o → S.lookup s' k = S.lookup s k

/-- A call begins only when all calls before it have returned. -/
def Sequential (m : Machine κ ο δ ε ς) (s : State σ κ ο γ ς) : Act γ → Prop
  | .call _ => ∀ c ∈ s.callers, (c.result m).isSome = true
  | _ => True

instance (m : Machine κ ο δ ε ς) (s : State σ κ ο γ ς) :
    ∀ a, Decidable (Sequential m s a)
  | .call _ => inferInstanceAs (Decidable (∀ c ∈ s.callers, (c.result m).isSome = true))
  | .run _ | .put _ => isTrue trivial

/-- No call begins for a key whose object is still to be stored. -/
def Unpending (S : Store σ κ ο δ ε) (toCall : γ → Call κ ο ε)
    (s : State σ κ ο γ ς) : Act γ → Prop
  | .call c => ∀ p ∈ s.pending, S.keyOf p.object ≠ (toCall c).key S.keyOf
  | _ => True

instance [DecidableEq κ] (S : Store σ κ ο δ ε) (toCall : γ → Call κ ο ε)
    (s : State σ κ ο γ ς) :
    ∀ a, Decidable (Unpending S toCall s a)
  | .call c => inferInstanceAs
      (Decidable (∀ p ∈ s.pending, S.keyOf p.object ≠ (toCall c).key S.keyOf))
  | .run _ | .put _ => isTrue trivial

/-- What a caller returned and whether it ran its initializer, once it has returned. -/
def Caller.outcome (m : Machine κ ο δ ε ς) (c : Caller ο γ ς) : Option (Outcome ο) :=
  (c.result m).map fun r => ⟨r.toOption, c.invoked.isSome⟩

/-- Every caller that has returned has the outcome that the map gives its call, after all before. -/
def State.Refines [DecidableEq κ] (keyOf : ο → κ) (m : Machine κ ο δ ε ς)
    (toCall : γ → Call κ ο ε) (map : Finmap fun _ : κ => ο) (s : State σ κ ο γ ς) :
    Prop :=
  ∀ (i : ℕ) (c : Caller ο γ ς) out, s.callers[i]? = some c → c.outcome m = some out →
    (Spec.outcomes keyOf map (s.callers.map fun c => toCall c.call))[i]? = some out

/-- No object for the key is still to be stored. -/
def State.Clear (S : Store σ κ ο δ ε) (s : State σ κ ο γ ς) (key : κ) : Prop :=
  ∀ p ∈ s.pending, S.keyOf p.object ≠ key

/-- When every caller has returned, the store has what the map has after all calls, but for the keys
whose object is still to be stored. -/
def State.Agrees [DecidableEq κ] (S : Store σ κ ο δ ε) (valid : κ → Prop)
    (m : Machine κ ο δ ε ς) (toCall : γ → Call κ ο ε) (map : Finmap fun _ : κ => ο)
    (s : State σ κ ο γ ς) : Prop :=
  (∀ c ∈ s.callers, (c.result m).isSome = true) → ∀ key, valid key → s.Clear S key →
    (S.lookup s.store key).toOption =
      (Spec.after S.keyOf map (s.callers.map fun c => toCall c.call)).lookup key

/-! ## The invariant -/

section Follows

variable [DecidableEq κ] {S : Store σ κ ο δ ε} {valid : κ → Prop} {good : ο → Prop}
  {toCall : γ → Call κ ο ε} {d : Design κ ο ε} {m map : Finmap fun _ : κ => ο}
  {s s' : State σ κ ο γ (Stage κ ο ε)} {i : ℕ} {c c' : Caller ο γ (Stage κ ο ε)}
  {done : List (Caller ο γ (Stage κ ο ε))} {active : Option (Caller ο γ (Stage κ ο ε))}

/-- The map is the store with what is still to be stored. -/
structure Holds (S : Store σ κ ο δ ε) (valid : κ → Prop) (good : ο → Prop)
    (m : Finmap fun _ : κ => ο) (s : State σ κ ο γ (Stage κ ο ε)) : Prop where
  clear : ∀ key, valid key → s.Clear S key → (S.lookup s.store key).toOption = m.lookup key
  pending : ∀ p ∈ s.pending, m.lookup (S.keyOf p.object) = some p.object ∧
    valid (S.keyOf p.object) ∧ good p.object

theorem Holds.lookup_ok (h : Holds S valid good m s) {key : κ} (hkey : valid key)
    (hclear : s.Clear S key) {o : ο} (hl : S.lookup s.store key = .ok o) :
    m.lookup key = some o := by
  rw [← h.clear key hkey hclear, hl]; rfl

theorem Holds.lookup_error (h : Holds S valid good m s) {key : κ} (hkey : valid key)
    (hclear : s.Clear S key) {e : δ} (hl : S.lookup s.store key = .error e) :
    m.lookup key = none := by
  rw [← h.clear key hkey hclear, hl]; rfl

/-- A fill that another goroutine is to store. -/
theorem Holds.spawn (h : Holds S valid good m s) {o : ο} (hkey : valid (S.keyOf o)) (ho : good o)
    (hclear : s.Clear S (S.keyOf o)) :
    Holds S valid good (m.insert (S.keyOf o) o) (s.spawn i o) where
  clear := fun key hvalid hcl => by
    have hne : key ≠ S.keyOf o :=
      fun he => hcl ⟨o, i⟩ (List.mem_append_right _ (List.mem_singleton.2 rfl)) he.symm
    rw [Finmap.lookup_insert_of_ne _ hne]
    exact h.clear key hvalid fun p hp => hcl p (List.mem_append_left _ hp)
  pending := fun p hp => by
    rcases List.mem_append.1 hp with hp | hp
    · rw [Finmap.lookup_insert_of_ne _ (hclear p hp)]
      exact h.pending p hp
    · obtain rfl := List.mem_singleton.1 hp
      exact ⟨Finmap.lookup_insert _, hkey, ho⟩

/-- An object is stored whose key had none still to be stored. -/
theorem Holds.write (h : Holds S valid good m s) (hexact : S.Exact valid good) {o : ο} {store : σ}
    (hput : S.put s.store o = .ok store) (hkey : valid (S.keyOf o)) (ho : good o)
    (hclear : s.Clear S (S.keyOf o)) :
    Holds S valid good (m.insert (S.keyOf o) o) (s.write S i o store) where
  clear := fun key hvalid hcl => by
    show (S.lookup store key).toOption = _
    by_cases hk : key = S.keyOf o
    · subst hk
      rw [hexact.found _ _ _ hkey ho hput, Finmap.lookup_insert]
      rfl
    · rw [hexact.other _ _ _ _ hput hk, Finmap.lookup_insert_of_ne _ hk]
      exact h.clear key hvalid hcl
  pending := fun p hp => by
    rw [Finmap.lookup_insert_of_ne _ (hclear p hp)]
    exact h.pending p hp

/-- What is still to be stored is stored. -/
theorem Holds.put (h : Holds S valid good m s) (hexact : S.Exact valid good) {n : ℕ}
    {p : Pending ο} (hp : s.pending[n]? = some p) {store : σ}
    (hput : S.put s.store p.object = .ok store) {t : State σ κ ο γ (Stage κ ο ε)}
    (hstore : t.store = store) (hpending : t.pending = s.pending.eraseIdx n) :
    Holds S valid good m t where
  clear := fun key hvalid hcl => by
    obtain ⟨hm, hkey, ho⟩ := h.pending p (List.mem_of_getElem? hp)
    rw [hstore]
    by_cases hk : key = S.keyOf p.object
    · subst hk
      rw [hexact.found _ _ _ hkey ho hput, hm]
      rfl
    · rw [hexact.other _ _ _ _ hput hk]
      refine h.clear key hvalid fun q hq => ?_
      obtain ⟨hn, rfl⟩ := List.getElem?_eq_some_iff.1 hp
      rcases List.mem_cons.1 ((List.getElem_cons_eraseIdx_perm hn).mem_iff.2 hq) with rfl | hq
      · exact Ne.symm hk
      · exact hcl q (hpending ▸ hq)
  pending := fun q hq => h.pending q (List.mem_of_mem_eraseIdx (hpending ▸ hq))

/-- The caller that has not returned, in a call `x` that the map `m` is about to take. -/
def Caller.InCall (S : Store σ κ ο δ ε) (m : Finmap fun _ : κ => ο)
    (s : State σ κ ο γ (Stage κ ο ε)) (x : Call κ ο ε)
    (c : Caller ο γ (Stage κ ο ε)) : Prop :=
  s.Clear S (x.key S.keyOf) ∧
  match c.point with
  | .first key init => x = .get key init ∧ c.invoked = none
  | .second key init => x = .get key init ∧ c.invoked = none ∧ m.lookup key = none
  | .running key r => x = .get key (some r) ∧ c.invoked ≠ none ∧ m.lookup key = none
  | .storing o => x = .get (S.keyOf o) (some (.ok o)) ∧ c.invoked ≠ none ∧
      m.lookup (S.keyOf o) = none
  | .put o => x = .put o ∧ c.invoked = none
  | .returned _ => False

/-- The callers in `done` have returned what the map gives, and only `active` is in its call. -/
structure Follows (S : Store σ κ ο δ ε) (d : Design κ ο ε) (valid : κ → Prop)
    (good : ο → Prop) (toCall : γ → Call κ ο ε) (map : Finmap fun _ : κ => ο)
    (s : State σ κ ο γ (Stage κ ο ε)) (done : List (Caller ο γ (Stage κ ο ε)))
    (active : Option (Caller ο γ (Stage κ ο ε))) : Prop where
  callers : s.callers = done ++ active.toList
  outcomes : done.map (Caller.outcome (d.machine δ)) =
    (Spec.outcomes S.keyOf map (done.map fun c => toCall c.call)).map some
  holds : Holds S valid good (Spec.after S.keyOf map (done.map fun c => toCall c.call)) s
  active : ∀ c ∈ active,
    c.InCall S (Spec.after S.keyOf map (done.map fun c => toCall c.call)) s (toCall c.call)

theorem Follows.active_get (h : Follows S d valid good toCall map s done (some c)) :
    s.callers[done.length]? = some c := by
  rw [h.callers]
  exact List.getElem?_concat_length ..

/-- Only the caller in its call can make a step. -/
theorem Follows.active_of_point (h : Follows S d valid good toCall map s done active)
    (hc : s.callers[i]? = some c) (hp : ∀ r, c.point ≠ .returned r) :
    active = some c ∧ i = done.length := by
  rw [h.callers] at hc
  by_cases hi : i < done.length
  · rw [List.getElem?_append_left hi] at hc
    have hout : (done.map (Caller.outcome (d.machine δ)))[i]? =
        some (c.outcome (d.machine δ)) := by
      rw [List.getElem?_map, hc, Option.map_some]
    rw [h.outcomes, List.getElem?_map] at hout
    obtain ⟨out, -, hout⟩ := Option.map_eq_some_iff.1 hout
    obtain ⟨r, hr, -⟩ := Option.map_eq_some_iff.1 hout.symm
    exact absurd (Design.point_of_result hr) (hp r)
  · rw [List.getElem?_append_right (Nat.not_lt.1 hi)] at hc
    cases active with
    | none => cases hc
    | some a =>
      have hlen := (List.getElem?_eq_some_iff.1 hc).1
      obtain rfl := List.mem_singleton.1 (List.mem_of_getElem? hc)
      refine ⟨rfl, ?_⟩
      simp at hlen
      omega

/-- The caller in its call goes on, and the store stays. -/
theorem Follows.goes (h : Follows S d valid good toCall map s done (some c))
    (hcall : c'.call = c.call)
    (hin : c'.InCall S (Spec.after S.keyOf map (done.map fun c => toCall c.call)) s
      (toCall c.call)) :
    Follows S d valid good toCall map (s.move done.length c') done (some c') where
  callers := by
    show s.callers.set done.length c' = _
    rw [h.callers]
    simp
  outcomes := h.outcomes
  holds := ⟨h.holds.clear, h.holds.pending⟩
  active := fun a ha => by
    obtain rfl := Option.some.inj ha
    rw [hcall]
    exact hin

/-- The caller in its call returns what the map gives. -/
theorem Follows.returns (h : Follows S d valid good toCall map s done (some c))
    {t : State σ κ ο γ (Stage κ ο ε)} {out : Outcome ο} (hcallers : t.callers = s.callers)
    (hcall : c'.call = c.call)
    (hspec : Spec.call S.keyOf (Spec.after S.keyOf map (done.map fun c => toCall c.call))
      (toCall c.call) = (out, m))
    (hout : c'.outcome (d.machine δ) = some out) (hholds : Holds S valid good m t) :
    Follows S d valid good toCall map (t.move done.length c') (done ++ [c']) none where
  callers := by
    show t.callers.set done.length c' = _
    rw [hcallers, h.callers]
    simp
  outcomes := by
    simp only [List.map_append, List.map_cons, List.map_nil]
    rw [Spec.outcomes_concat, List.map_append, h.outcomes, hout, hcall, hspec]
    rfl
  holds := by
    simp only [List.map_append, List.map_cons, List.map_nil]
    rw [Spec.after_concat, hcall, hspec]
    exact ⟨hholds.clear, hholds.pending⟩
  active := fun _ ha => by cases ha

omit [DecidableEq κ] in
theorem Caller.outcome_of_point {r : Result ο ε} (h : c.point = .returned r) :
    c.outcome (d.machine δ) = some ⟨r.toOption, c.invoked.isSome⟩ := by
  unfold Caller.outcome Caller.result Design.machine
  rw [h]
  rfl

theorem Follows.run (h : Follows S d valid good toCall map s done active)
    (hvalid : ∀ c, (toCall c).Valid S.keyOf valid good) (hexact : S.Exact valid good)
    (hs : step S (d.machine δ) (fun c => .start (toCall c)) s (.run i) = some s') :
    ∃ done' active', Follows S d valid good toCall map s' done' active' := by
  obtain ⟨c, hc, hmoves⟩ := Design.step_run hs
  obtain ⟨rfl, rfl⟩ := h.active_of_point hc hmoves.not_returned
  have hv := hvalid c.call
  have hin := h.active c rfl
  unfold Caller.InCall at hin
  obtain ⟨hclear, hin⟩ := hin
  generalize hx : toCall c.call = x at hv hclear hin
  cases hmoves with
  | hit key init o hp hl =>
    rcases hp with hp | hp
    · rw [hp] at hin
      obtain ⟨rfl, hnone⟩ := hin
      have hm := h.holds.lookup_ok hv.1 hclear hl
      refine ⟨_, _, h.returns rfl rfl (hx ▸ Spec.call_found hm) ?_ h.holds⟩
      rw [Caller.outcome_of_point rfl, hnone]
      rfl
    · rw [hp] at hin
      obtain ⟨rfl, hnone, hm⟩ := hin
      rw [h.holds.lookup_ok hv.1 hclear hl] at hm
      cases hm
  | firstMiss key init e hp hl =>
    rw [hp] at hin
    obtain ⟨rfl, hnone⟩ := hin
    exact ⟨_, _,
      h.goes rfl (hx ▸ ⟨hclear, rfl, hnone, h.holds.lookup_error hv.1 hclear hl⟩)⟩
  | missing key e hp hl =>
    have hget : x = .get key none ∧ c.invoked = none := by
      rcases hp with hp | hp
      · rw [hp] at hin
        exact hin
      · rw [hp] at hin
        exact ⟨hin.1, hin.2.1⟩
    obtain ⟨rfl, hnone⟩ := hget
    have hm := h.holds.lookup_error hv.1 hclear hl
    refine ⟨_, _, h.returns rfl rfl (hx ▸ Spec.call_nil hm) ?_ h.holds⟩
    rw [Caller.outcome_of_point rfl, hnone]
    rfl
  | secondMiss key r e hp hl =>
    rw [hp] at hin
    obtain ⟨rfl, -, hm⟩ := hin
    exact ⟨_, _, h.goes rfl (hx ▸ ⟨hclear, rfl, nofun, hm⟩)⟩
  | initFails key e hp =>
    rw [hp] at hin
    obtain ⟨rfl, hsome, hm⟩ := hin
    refine ⟨_, _, h.returns rfl rfl (hx ▸ Spec.call_fails e hm) ?_ h.holds⟩
    rw [Caller.outcome_of_point rfl, Option.isSome_iff_ne_none.2 hsome]
    rfl
  | initDone key o hp =>
    rw [hp] at hin
    obtain ⟨rfl, hsome, hm⟩ := hin
    obtain ⟨rfl, -⟩ := hv.2 o rfl
    exact ⟨_, _, h.goes rfl (hx ▸ ⟨hclear, rfl, hsome, hm⟩)⟩
  | spawn o hb hp =>
    rw [hp] at hin
    obtain ⟨rfl, hsome, hm⟩ := hin
    refine ⟨_, _, h.returns rfl rfl (hx ▸ Spec.call_fills o hm) ?_
      (h.holds.spawn hv.1 (hv.2 o rfl).2 hclear)⟩
    rw [Caller.outcome_of_point rfl, Option.isSome_iff_ne_none.2 hsome]
    rfl
  | store o store hb hp hput =>
    rw [hp] at hin
    obtain ⟨rfl, hsome, hm⟩ := hin
    refine ⟨_, _, h.returns rfl rfl (hx ▸ Spec.call_fills o hm) ?_
      (h.holds.write hexact hput hv.1 (hv.2 o rfl).2 hclear)⟩
    rw [Caller.outcome_of_point rfl, Option.isSome_iff_ne_none.2 hsome]
    rfl
  | storeFails o e hb hp hput =>
    rw [hp] at hin
    obtain ⟨rfl, -, -⟩ := hin
    obtain ⟨store, hput'⟩ := hexact.accepts s.store o hv.1 (hv.2 o rfl).2
    cases hput.symm.trans hput'
  | put o store hp hput =>
    rw [hp] at hin
    obtain ⟨rfl, hnone⟩ := hin
    refine ⟨_, _, h.returns rfl rfl (hx ▸ Spec.call_put o) ?_
      (h.holds.write hexact hput hv.1 hv.2 hclear)⟩
    rw [Caller.outcome_of_point rfl, hnone]
    rfl
  | putFails o e hp hput =>
    rw [hp] at hin
    obtain ⟨rfl, -⟩ := hin
    obtain ⟨store, hput'⟩ := hexact.accepts s.store o hv.1 hv.2
    cases hput.symm.trans hput'

theorem Follows.call (h : Follows S d valid good toCall map s done active) {x : γ}
    (hseq : Sequential (d.machine δ) s (.call x)) (hclear : s.Clear S ((toCall x).key S.keyOf))
    (hs : step S (d.machine δ) (fun c => .start (toCall c)) s (.call x) = some s') :
    ∃ a, Follows S d valid good toCall map s' done (some a) := by
  obtain rfl := Design.step_call hs
  obtain rfl : active = none := by
    cases active with
    | none => rfl
    | some a =>
      have hin := h.active a rfl
      have hret := hseq a (List.mem_of_getElem? h.active_get)
      obtain ⟨r, hr⟩ := Option.isSome_iff_exists.1 hret
      unfold Caller.InCall at hin
      rw [Design.point_of_result hr] at hin
      exact hin.2.elim
  rw [Design.begin_start]
  refine ⟨⟨x, .start (toCall x), 0, s.clock, none, none, none, none⟩, ?_, h.outcomes,
    ⟨h.holds.clear, h.holds.pending⟩, fun a ha => ?_⟩
  · show s.callers ++ [_] = done ++ [_]
    rw [h.callers]
    simp
  · obtain rfl := Option.some.inj ha
    refine ⟨hclear, ?_⟩
    dsimp only
    cases toCall x with
    | get key init => exact ⟨rfl, rfl⟩
    | put o => exact ⟨rfl, rfl⟩

/-- A change of one caller that does not touch what is read of it. -/
theorem map_modify_of_eq {α β : Type} (l : List α) (i : ℕ) (f : α → α) (g : α → β)
    (h : ∀ a, g (f a) = g a) : (l.modify i f).map g = l.map g := by
  apply List.ext_getElem?
  grind

theorem modify_append_toList {α : Type} (l : List α) (a : Option α) (i : ℕ) (f : α → α) :
    ∃ a', (l ++ a.toList).modify i f = l.modify i f ++ a'.toList ∧
      (a' = a ∨ a' = a.map f) := by
  by_cases h : i = l.length
  · refine ⟨a.map f, ?_, Or.inr rfl⟩
    apply List.ext_getElem?
    cases a <;> grind
  · refine ⟨a, ?_, Or.inl rfl⟩
    apply List.ext_getElem?
    cases a <;> grind

theorem Follows.put (h : Follows S d valid good toCall map s done active)
    (hexact : S.Exact valid good) {n : ℕ}
    (hs : step S (d.machine δ) (fun c => .start (toCall c)) s (.put n) = some s') :
    ∃ done' active', Follows S d valid good toCall map s' done' active' := by
  obtain ⟨p, hp, ⟨store, hput, rfl⟩ | ⟨e, hput, -⟩⟩ := Design.step_put hs
  · obtain ⟨active', happend, hactive⟩ := modify_append_toList done active p.caller
      fun c => { c with stored := some s.clock }
    have hcalls := map_modify_of_eq done p.caller (fun c => { c with stored := some s.clock })
      (fun c => toCall c.call) fun _ => rfl
    have houtcomes := map_modify_of_eq done p.caller (fun c => { c with stored := some s.clock })
      (Caller.outcome (d.machine δ)) fun _ => rfl
    have hin : ∀ a ∈ active', ∃ b ∈ active,
        a.call = b.call ∧ a.point = b.point ∧ a.invoked = b.invoked := by
      intro a ha
      rcases hactive with rfl | rfl
      · exact ⟨a, ha, rfl, rfl, rfl⟩
      · obtain ⟨b, hb, rfl⟩ := Option.map_eq_some_iff.1 ha
        exact ⟨b, hb, rfl, rfl, rfl⟩
    refine ⟨done.modify p.caller fun c => { c with stored := some s.clock }, active', ?_, ?_, ?_,
      fun a ha => ?_⟩
    · show s.callers.modify p.caller _ = _
      rw [h.callers]
      exact happend
    · rw [hcalls, houtcomes, h.outcomes]
    · rw [hcalls]
      exact h.holds.put hexact hp hput rfl rfl
    · rw [hcalls]
      obtain ⟨b, hb, hcall, hpoint, hinvoked⟩ := hin a ha
      obtain ⟨hclear, hb⟩ := h.active b hb
      refine ⟨fun q hq => ?_, ?_⟩
      · rw [hcall]
        exact hclear q (List.mem_of_mem_eraseIdx hq)
      · rw [hcall, hpoint, hinvoked]
        exact hb
  · obtain ⟨-, hkey, ho⟩ := h.holds.pending p (List.mem_of_getElem? hp)
    obtain ⟨store, hput'⟩ := hexact.accepts s.store p.object hkey ho
    cases hput.symm.trans hput'

/-- **Step.** Whatever the single caller does, or another goroutine stores. -/
theorem Follows.step (h : Follows S d valid good toCall map s done active)
    (hvalid : ∀ c, (toCall c).Valid S.keyOf valid good) (hexact : S.Exact valid good) {a : Act γ}
    (hseq : Sequential (d.machine δ) s a) (hclear : Unpending S toCall s a)
    (hs : CacheAside.step S (d.machine δ) (fun c => .start (toCall c)) s a = some s') :
    ∃ done' active', Follows S d valid good toCall map s' done' active' := by
  cases a with
  | call x =>
    obtain ⟨a, ha⟩ := h.call hseq hclear hs
    exact ⟨_, _, ha⟩
  | run i => exact h.run hvalid hexact hs
  | put n => exact h.put hexact hs

theorem Follows.refines (h : Follows S d valid good toCall map s done active) :
    s.Refines S.keyOf (d.machine δ) toCall map := by
  intro i c out hc hout
  obtain ⟨r, hr, -⟩ := Option.map_eq_some_iff.1 hout
  have hpoint := Design.point_of_result hr
  by_cases hi : i < done.length
  · have hdone : done[i]? = some c := by
      rw [h.callers, List.getElem?_append_left hi] at hc
      exact hc
    have hspec : (Spec.outcomes S.keyOf map (done.map fun c => toCall c.call))[i]? = some out := by
      have hmap : (done.map (Caller.outcome (d.machine δ)))[i]? = some (some out) := by
        rw [List.getElem?_map, hdone, Option.map_some, hout]
      rw [h.outcomes, List.getElem?_map] at hmap
      obtain ⟨out', hout', he⟩ := Option.map_eq_some_iff.1 hmap
      rw [hout', Option.some.inj he]
    rw [h.callers]
    cases active with
    | none => rwa [Option.toList_none, List.append_nil]
    | some a =>
      rw [Option.toList_some, List.map_append, List.map_singleton, Spec.outcomes_concat,
        List.getElem?_append_left (by rwa [Spec.length_outcomes, List.length_map])]
      exact hspec
  · rw [h.callers, List.getElem?_append_right (Nat.not_lt.1 hi)] at hc
    cases active with
    | none => cases hc
    | some a =>
      obtain rfl := List.mem_singleton.1 (List.mem_of_getElem? hc)
      have hin := h.active c rfl
      unfold Caller.InCall at hin
      rw [hpoint] at hin
      exact hin.2.elim

/-- Between two calls, the store has what the map has. -/
theorem Follows.agrees (h : Follows S d valid good toCall map s done active) :
    s.Agrees S valid (d.machine δ) toCall map := by
  intro hreturned key hkey hclear
  cases active with
  | some a =>
    obtain ⟨r, hr⟩ := Option.isSome_iff_exists.1
      (hreturned a (h.callers ▸ List.mem_append_right _ (List.mem_singleton.2 rfl)))
    have hin := h.active a rfl
    unfold Caller.InCall at hin
    rw [Design.point_of_result hr] at hin
    exact hin.2.elim
  | none =>
    rw [h.callers, Option.toList_none, List.append_nil]
    exact h.holds.clear key hkey hclear

/-- **Run.** Calls that follow one another, none of them for a key whose object is still to be
stored. -/
theorem follows_of_steps (hvalid : ∀ c, (toCall c).Valid S.keyOf valid good)
    (hexact : S.Exact valid good) {store : σ}
    (hmap : ∀ key, valid key → (S.lookup store key).toOption = map.lookup key)
    {as : List (Act γ)} (hrun : (system S (d.machine δ) (fun c => .start (toCall c)) store).run
      (system S (d.machine δ) (fun c => .start (toCall c)) store).init as = some s)
    (hseq : (system S (d.machine δ) (fun c => .start (toCall c)) store).Steps
      (Sequential (d.machine δ)) (system S (d.machine δ) (fun c => .start (toCall c)) store).init
        as)
    (hclear : (system S (d.machine δ) (fun c => .start (toCall c)) store).Steps
      (Unpending S toCall) (system S (d.machine δ) (fun c => .start (toCall c)) store).init as) :
    ∃ done active, Follows S d valid good toCall map s done active := by
  have hinit : Follows S d valid good toCall map
      (system S (d.machine δ) (fun c => .start (toCall c)) store).init [] none :=
    ⟨rfl, rfl, ⟨fun key hkey _ => hmap key hkey, fun _ h => absurd h List.not_mem_nil⟩,
      fun _ h => by cases h⟩
  exact System.run_invariant
    (I := fun s => ∃ done active, Follows S d valid good toCall map s done active)
    (fun s a s' ⟨done, active, hI⟩ hok hs => hI.step hvalid hexact hok.1 hok.2 hs)
      ⟨[], none, hinit⟩
    (System.steps_and hseq hclear) hrun

/-- A design that stores its fills itself leaves nothing to be stored. -/
theorem step_pending_nil (start : γ → Stage κ ο ε) (hb : d.background = false) {a : Act γ}
    (hnil : s.pending = []) (hs : CacheAside.step S (d.machine δ) start s a = some s') :
    s'.pending = [] := by
  cases a with
  | call x =>
    obtain rfl := Design.step_call hs
    exact hnil
  | run i =>
    obtain ⟨c, -, hmoves⟩ := Design.step_run hs
    cases hmoves with
    | spawn o hb' => cases hb.symm.trans hb'
    | _ => exact hnil
  | put n =>
    obtain ⟨p, hp, -⟩ := Design.step_put hs
    rw [hnil] at hp
    cases hp

end Follows

/-! ## Programs -/

section program

variable [DecidableEq κ] {S : Store σ κ ο δ ε} {f : ς → τ} {m : Machine κ ο δ ε ς}
  {m' : Machine κ ο δ ε τ} {toCall : γ → Call κ ο ε} {map : Finmap fun _ : κ => ο}

omit [DecidableEq κ] in
theorem State.returned_map (h : Maps m m' f) (s : State σ κ ο γ ς) :
    (∀ c ∈ (s.map f).callers, (c.result m').isSome = true) ↔
      ∀ c ∈ s.callers, (c.result m).isSome = true := by
  show (∀ c ∈ s.callers.map (Caller.map f), _) ↔ _
  simp only [List.forall_mem_map, h.result]

omit [DecidableEq κ] in
theorem sequential_map (h : Maps m m' f) (s : State σ κ ο γ ς) (a : Act γ) :
    Sequential m' (s.map f) a ↔ Sequential m s a := by
  cases a with
  | call c => exact State.returned_map h s
  | run i => exact Iff.rfl
  | put n => exact Iff.rfl

omit [DecidableEq κ] in
theorem unpending_map (s : State σ κ ο γ ς) (a : Act γ) :
    Unpending S toCall (s.map f) a ↔ Unpending S toCall s a := by
  cases a <;> exact Iff.rfl

omit [DecidableEq κ] in
theorem State.calls_map (s : State σ κ ο γ ς) :
    ((s.map f).callers.map fun c => toCall c.call) = s.callers.map fun c => toCall c.call :=
  List.map_map ..

theorem State.refines_map (h : Maps m m' f) {s : State σ κ ο γ ς} {keyOf : ο → κ}
    (hs : s.Refines keyOf m toCall map) : (s.map f).Refines keyOf m' toCall map := by
  intro i c' out hc hout
  rw [State.calls_map]
  obtain ⟨c, hc', rfl⟩ := Option.map_eq_some_iff.1 ((List.getElem?_map ..).symm.trans hc)
  refine hs i c out hc' ?_
  unfold Caller.outcome at hout ⊢
  rwa [h.result] at hout

theorem State.agrees_map (h : Maps m m' f) {s : State σ κ ο γ ς} {valid : κ → Prop}
    (hs : s.Agrees S valid m toCall map) : (s.map f).Agrees S valid m' toCall map := by
  intro hreturned
  rw [State.calls_map]
  exact hs ((State.returned_map h s).1 hreturned)

variable {d : Design κ ο ε} {program : γ → Prog (Op κ ο) (Op.Ans δ ε) (Result ο ε)}
  {valid : κ → Prop} {good : ο → Prop} {store : σ} {as : List (Act γ)}
  {t : State σ κ ο γ (Prog (Op κ ο) (Op.Ans δ ε) (Result ο ε))}

/-- **One call after the other.** In a run of calls that follow one another, none of them for a key
whose object is still to be stored, every call gives what the map gives, and the store then has what
the map has. -/
theorem refines_program (hprogram : ∀ c, program c = d.program δ (.start (toCall c)))
    (hvalid : ∀ c, (toCall c).Valid S.keyOf valid good) (hexact : S.Exact valid good)
    (hmap : ∀ key, valid key → (S.lookup store key).toOption = map.lookup key)
    (hrun : (system S Prog.next program store).run
      (system S Prog.next program store).init as = some t)
    (hseq : (system S Prog.next program store).Steps (Sequential Prog.next)
      (system S Prog.next program store).init as)
    (hclear : (system S Prog.next program store).Steps (Unpending S toCall)
      (system S Prog.next program store).init as) :
    t.Refines S.keyOf Prog.next toCall map ∧ t.Agrees S valid Prog.next toCall map := by
  obtain rfl : program = d.program δ ∘ fun c => .start (toCall c) := funext hprogram
  rw [run_program d.maps_program] at hrun
  obtain ⟨s, hs, rfl⟩ := Option.map_eq_some_iff.1 hrun
  have hstep := step_map (S := S) (fun c => .start (toCall c)) (d.maps_program (δ := δ))
  have hseq := (System.steps_map (S := system S (d.machine δ) (fun c => .start (toCall c)) store)
    (T := system S Prog.next (d.program δ ∘ fun c => .start (toCall c)) store) hstep as
    (system S (d.machine δ) (fun c => .start (toCall c)) store).init).1 hseq
  have hclear := (System.steps_map (S := system S (d.machine δ) (fun c => .start (toCall c)) store)
    (T := system S Prog.next (d.program δ ∘ fun c => .start (toCall c)) store) hstep as
    (system S (d.machine δ) (fun c => .start (toCall c)) store).init).1 hclear
  obtain ⟨done, active, h⟩ := follows_of_steps hvalid hexact hmap hs
    (hseq.mono fun s a => (sequential_map d.maps_program s a).1)
    (hclear.mono fun s a => (unpending_map s a).1)
  exact ⟨State.refines_map d.maps_program h.refines, State.agrees_map d.maps_program h.agrees⟩

/-- Where the design stores its fills itself, nothing is left to be stored. -/
theorem pending_nil_program (hprogram : ∀ c, program c = d.program δ (.start (toCall c)))
    (hb : d.background = false) (h : (system S Prog.next program store).Reachable t) :
    t.pending = [] := by
  obtain rfl : program = d.program δ ∘ fun c => .start (toCall c) := funext hprogram
  obtain ⟨s, hs, rfl⟩ := reachable_program d.maps_program h
  exact hs.invariant (I := fun s => s.pending = []) rfl fun s a s' hnil hs =>
    step_pending_nil (fun c => .start (toCall c)) hb hnil hs

theorem unpending_program (hprogram : ∀ c, program c = d.program δ (.start (toCall c)))
    (hb : d.background = false) :
    (system S Prog.next program store).Steps (Unpending S toCall)
      (system S Prog.next program store).init as := by
  refine System.steps_of_invariant
    (I := (system S Prog.next program store).Reachable) (fun s a s' h (_ : True) hs => h.step hs)
    (fun s a h => ?_) .initial (System.steps_true _ _)
  have hnil := pending_nil_program hprogram hb h
  cases a with
  | call c =>
    intro p hp
    rw [hnil] at hp
    cases hp
  | run i => trivial
  | put n => trivial

end program

end CacheAside
