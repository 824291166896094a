import AutomaticCache.Lib.CacheAside.Design

/-!
# Reads are regular

Stores may drop what they hold when something else is put. Still, what a get returns it has from its
own initializer, or it is what the last store under its key before it looked has put there, as far
as nothing under that key was stored between the beginning of the get and the lookup
(`State.Regular`). Nothing is made up, and nothing comes back that had been overwritten before the
get began.
-/

namespace CacheAside

open Runs

variable {σ κ ο δ ε ς : Type}

/-- What is found was put: under its own key it comes back as `back` makes of it, and under other
keys at most what was there before. -/
structure Store.Honest (S : Store σ κ ο δ ε) (back : ο → ο) : Prop where
  found : ∀ s s' o o', S.put s o = .ok s' → S.lookup s' (S.keyOf o) = .ok o' → o' = back o
  other : ∀ s s' o k o', S.put s o = .ok s' → k ≠ S.keyOf o → S.lookup s' k = .ok o' →
    S.lookup s k = .ok o'

/-- The object that the caller is to put, or that its initializer gives. -/
def Caller.Gives (c : Caller ο (Call κ ο ε) ς) (o : ο) : Prop :=
  c.call = .put o ∨ ∃ key, c.call = .get key (some (.ok o))

theorem Caller.Gives.unique {c : Caller ο (Call κ ο ε) ς} {o o' : ο} (h : c.Gives o)
    (h' : c.Gives o') :
    o = o' := by
  rcases h with h | ⟨key, h⟩ <;> rcases h' with h' | ⟨key', h'⟩ <;>
    cases h.symm.trans h' <;> rfl

/-- The caller of the write had begun, and gave its object. -/
def State.Began (s : State σ κ ο (Call κ ο ε) ς) (w : Write ο) : Prop :=
  ∃ c, s.callers[w.caller]? = some c ∧ c.Gives w.object ∧ c.called ≤ w.time

/-- No object under the key was stored after `w` and before `time`. -/
def State.Unchanged (S : Store σ κ ο δ ε) (s : State σ κ ο (Call κ ο ε) ς)
    (key : κ) (w : Write ο) (time : ℕ) : Prop :=
  ∀ (p : ℕ) (c : Caller ο (Call κ ο ε) ς) (o : ο) (t : ℕ),
    s.callers[p]? = some c → c.Gives o →
    S.keyOf o = key → c.stored = some t → t < time → t ≤ w.time

/-- Where the object that caller `g` has returned from its get of `key` comes from. -/
def State.Regular (S : Store σ κ ο δ ε) (back : ο → ο) (m : Machine κ ο δ ε ς)
    (s : State σ κ ο (Call κ ο ε) ς) (g : ℕ) : Prop :=
  ∀ (c : Caller ο (Call κ ο ε) ς) (key : κ) (init : Option (Except ε ο)) (o : ο),
    s.callers[g]? = some c → c.call = .get key init → c.result m = some (.ok (some o)) →
    (c.source = none ∧ init = some (.ok o) ∧ c.invoked ≠ none) ∨
    ∃ w t, c.source = some w ∧ o = back w.object ∧ S.keyOf w.object = key ∧ s.Began w ∧
      c.returned = some t ∧ w.time < t ∧ s.Unchanged S key w c.called

section Stage

/-- What a caller that has found nothing goes on with is its own. -/
def Caller.Own (c : Caller ο (Call κ ο ε) (Stage κ ο ε)) : Prop :=
  match c.point with
  | .first key init | .second key init => c.call = .get key init ∧ c.source = none
  | .running key r => c.call = .get key (some r) ∧ c.source = none ∧ c.invoked ≠ none
  | .storing o => (∃ key, c.call = .get key (some (.ok o))) ∧ c.source = none ∧
      c.invoked ≠ none
  | .put o => c.call = .put o ∧ c.source = none
  | .returned r => ∀ key init o, c.call = .get key init → r = .ok (some o) →
      c.source = none →
    init = some (.ok o) ∧ c.invoked ≠ none

/-- The caller has returned what it found. -/
structure State.Reads (S : Store σ κ ο δ ε) (back : ο → ο)
    (s : State σ κ ο (Call κ ο ε) (Stage κ ο ε))
    (c : Caller ο (Call κ ο ε) (Stage κ ο ε)) (w : Write ο) : Prop where
  call : ∃ init, c.call = .get (S.keyOf w.object) init
  began : s.Began w
  point : c.point = .returned (.ok (some (back w.object)))
  returned : ∃ t, c.returned = some t ∧ w.time < t
  unchanged : s.Unchanged S (S.keyOf w.object) w c.called

/-- The invariant, with all writes before `now`. -/
structure Kept (S : Store σ κ ο δ ε) (back : ο → ο) (now : ℕ)
    (s : State σ κ ο (Call κ ο ε) (Stage κ ο ε)) : Prop where
  content : ∀ k o, S.lookup s.store k = .ok o → ∃ w, s.writes k = some w ∧ o = back w.object
  writes : ∀ k w, s.writes k = some w → S.keyOf w.object = k ∧ w.time < now ∧ s.Began w
  pending : ∀ p ∈ s.pending, ∃ c, s.callers[p.caller]? = some c ∧ c.Gives p.object
  /-- What was stored is the last write under its key, or was followed by it. -/
  stored : ∀ (p : ℕ) (c : Caller ο (Call κ ο ε) (Stage κ ο ε)) (o : ο) (t : ℕ),
    s.callers[p]? = some c → c.Gives o → c.stored = some t →
      ∃ w, s.writes (S.keyOf o) = some w ∧ t ≤ w.time
  callers : ∀ (i : ℕ) (c : Caller ο (Call κ ο ε) (Stage κ ο ε)),
    s.callers[i]? = some c →
    c.called < s.clock ∧ c.Own
  source : ∀ (i : ℕ) (c : Caller ο (Call κ ο ε) (Stage κ ο ε)) (w : Write ο),
    s.callers[i]? = some c →
    c.source = some w → s.Reads S back c w

variable {S : Store σ κ ο δ ε} {back : ο → ο}
    {s s' : State σ κ ο (Call κ ο ε) (Stage κ ο ε)} {i : ℕ}
  {c c' : Caller ο (Call κ ο ε) (Stage κ ο ε)} {w : Write ο}

/-! ## A caller goes on -/

theorem State.get_move_cases (hc : s.callers[i]? = some c) {j : ℕ}
    {a : Caller ο (Call κ ο ε) (Stage κ ο ε)} (ha : (s.move i c').callers[j]? = some a) :
    (i = j ∧ a = c') ∨ (i ≠ j ∧ s.callers[j]? = some a) := by
  by_cases hij : i = j
  · subst hij
    have hi := (List.getElem?_eq_some_iff.1 hc).1
    exact Or.inl ⟨rfl, Option.some.inj (ha.symm.trans (List.getElem?_set_self hi))⟩
  · exact Or.inr ⟨hij, (List.getElem?_set_ne hij).symm.trans ha⟩

theorem State.Began.move (h : s.Began w) (hc : s.callers[i]? = some c) (hcall : c'.call = c.call)
    (hcalled : c'.called = c.called) : (s.move i c').Began w := by
  obtain ⟨a, ha, hgives, hle⟩ := h
  by_cases hi : i = w.caller
  · subst hi
    obtain rfl : c = a := Option.some.inj (hc.symm.trans ha)
    refine ⟨c', List.getElem?_set_self (List.getElem?_eq_some_iff.1 hc).1, ?_, hcalled ▸ hle⟩
    unfold Caller.Gives at hgives ⊢
    rwa [hcall]
  · exact ⟨a, (List.getElem?_set_ne hi).trans ha, hgives, hle⟩

/-- What is stored from now on is stored after whoever has begun. -/
theorem State.Unchanged.move {key : κ} {time : ℕ} (h : s.Unchanged S key w time)
    (hc : s.callers[i]? = some c) (hcall : c'.call = c.call)
    (hstored : c'.stored = c.stored ∨ c'.stored = some s.clock) (htime : time ≤ s.clock) :
    (s.move i c').Unchanged S key w time := by
  intro p a o t ha hgives hkey ht hlt
  rcases State.get_move_cases hc ha with ⟨rfl, rfl⟩ | ⟨-, ha⟩
  · rcases hstored with heq | hnow
    · unfold Caller.Gives at hgives
      rw [hcall] at hgives
      exact h i c o t hc hgives hkey (heq.symm.trans ht) hlt
    · obtain rfl := Option.some.inj (hnow.symm.trans ht)
      omega
  · exact h p a o t ha hgives hkey ht hlt

theorem State.Reads.move {a : Caller ο (Call κ ο ε) (Stage κ ο ε)} (h : s.Reads S back a w)
    (hc : s.callers[i]? = some c) (hcall : c'.call = c.call) (hcalled : c'.called = c.called)
    (hstored : c'.stored = c.stored ∨ c'.stored = some s.clock) (htime : a.called ≤ s.clock) :
    (s.move i c').Reads S back a w :=
  ⟨h.call, h.began.move hc hcall hcalled, h.point, h.returned,
    h.unchanged.move hc hcall hstored htime⟩

/-- A caller goes on: what it has now stored is the last write under its key, and what it has now
found it returns. -/
theorem Kept.move {now : ℕ} (h : Kept S back now s) (hnow : now ≤ s.clock + 1)
    (hc : s.callers[i]? = some c) (hcall : c'.call = c.call) (hcalled : c'.called = c.called)
    (hown : c'.Own)
    (hstored : c'.stored = c.stored ∨ c'.stored = some s.clock ∧
      ∀ o, c.Gives o → ∃ w, s.writes (S.keyOf o) = some w ∧ s.clock ≤ w.time)
    (hsource : ∀ w, c'.source = some w → s.Reads S back c' w) :
    Kept S back (s.clock + 1) (s.move i c') := by
  have hgives (o : ο) : c'.Gives o ↔ c.Gives o := by
    unfold Caller.Gives
    rw [hcall]
  have hstored' : c'.stored = c.stored ∨ c'.stored = some s.clock := hstored.imp_right And.left
  refine ⟨h.content, fun k w hw => ?_, fun p hp => ?_, fun p a o t ha hgiven ht => ?_,
    fun j a ha => ?_,
    fun j a w ha hw => ?_⟩
  · obtain ⟨hkey, htime, hbegan⟩ := h.writes k w hw
    exact ⟨hkey, Nat.lt_of_lt_of_le htime hnow, hbegan.move hc hcall hcalled⟩
  · obtain ⟨a, ha, hgiven⟩ := h.pending p hp
    by_cases hi : i = p.caller
    · subst hi
      obtain rfl : c = a := Option.some.inj (hc.symm.trans ha)
      exact ⟨c', List.getElem?_set_self (List.getElem?_eq_some_iff.1 hc).1, (hgives _).2 hgiven⟩
    · exact ⟨a, (List.getElem?_set_ne hi).trans ha, hgiven⟩
  · rcases State.get_move_cases hc ha with ⟨rfl, rfl⟩ | ⟨-, ha⟩
    · rcases hstored with heq | ⟨hclock, hlast⟩
      · exact h.stored i c o t hc ((hgives o).1 hgiven) (heq.symm.trans ht)
      · obtain rfl := Option.some.inj (hclock.symm.trans ht)
        exact hlast o ((hgives o).1 hgiven)
    · exact h.stored p a o t ha hgiven ht
  · rcases State.get_move_cases hc ha with ⟨rfl, rfl⟩ | ⟨-, ha⟩
    · rw [hcalled]
      exact ⟨Nat.lt_succ_of_lt (h.callers i c hc).1, hown⟩
    · exact ⟨Nat.lt_succ_of_lt (h.callers j a ha).1, (h.callers j a ha).2⟩
  · rcases State.get_move_cases hc ha with ⟨rfl, rfl⟩ | ⟨-, ha⟩
    · refine (hsource w hw).move hc hcall hcalled hstored' ?_
      rw [hcalled]
      exact Nat.le_of_lt (h.callers i c hc).1
    · exact (h.source j a w ha hw).move hc hcall hcalled hstored'
        (Nat.le_of_lt (h.callers j a ha).1)

/-- A caller goes on with nothing found. -/
theorem Kept.quiet (h : Kept S back s.clock s) (hc : s.callers[i]? = some c)
    (hcall : c'.call = c.call) (hcalled : c'.called = c.called) (hown : c'.Own)
    (hstored : c'.stored = c.stored) (hsource : c'.source = none) :
    Kept S back (s.clock + 1) (s.move i c') :=
  h.move (Nat.le_succ _) hc hcall hcalled hown (Or.inl hstored)
    fun w hw => by cases hsource.symm.trans hw

/-- A caller returns the last write under its key. -/
theorem Kept.hit (h : Kept S back s.clock s) (hc : s.callers[i]? = some c) {key : κ}
    {init : Option (Except ε ο)} {o : ο} (hget : c.call = .get key init)
    (hl : S.lookup s.store key = .ok o) (lookups : ℕ) :
    Kept S back (s.clock + 1) (s.move i { c with
      point := .returned (.ok (some o))
      lookups := lookups
      source := s.writes key
      returned := some s.clock }) := by
  obtain ⟨w, hw, rfl⟩ := h.content key o hl
  obtain ⟨rfl, htime, hbegan⟩ := h.writes key w hw
  refine h.move (Nat.le_succ _) hc rfl rfl ?_ (Or.inl rfl) fun w' hw' => ?_
  · intro key' init' o' _ _ hnone
    cases hw.symm.trans hnone
  · obtain rfl := Option.some.inj (hw.symm.trans hw')
    refine ⟨⟨init, hget⟩, hbegan, rfl, ⟨s.clock, rfl, htime⟩,
      fun p a o' t ha hgives hkey ht _ => ?_⟩
    obtain ⟨w', hlast, hle⟩ := h.stored p a o' t ha hgives ht
    rw [hkey] at hlast
    obtain rfl := Option.some.inj (hw.symm.trans hlast)
    exact hle

/-! ## Something is stored -/

/-- The store is not looked at. -/
theorem State.Reads.congr (h : s.Reads S back c w) (hcallers : s'.callers = s.callers) :
    s'.Reads S back c w := by
  obtain ⟨hcall, hbegan, hpoint, hreturned, hunchanged⟩ := h
  unfold State.Began at hbegan
  unfold State.Unchanged at hunchanged
  rw [← hcallers] at hbegan hunchanged
  exact ⟨hcall, hbegan, hpoint, hreturned, hunchanged⟩

theorem Kept.write [DecidableEq κ] (h : Kept S back s.clock s) (hhonest : S.Honest back)
    (hc : s.callers[i]? = some c) {o : ο} {store : σ} (hput : S.put s.store o = .ok store)
    (hgives : c.Gives o) : Kept S back (s.clock + 1) (s.write S i o store) where
  content := fun k o' hl => by
    by_cases hk : k = S.keyOf o
    · subst hk
      exact ⟨_, State.writes_write_self S s i o store, hhonest.found _ _ _ _ hput hl⟩
    · rw [State.writes_write_of_ne S s i store hk]
      exact h.content k o' (hhonest.other _ _ _ _ _ hput hk hl)
  writes := fun k w hw => by
    by_cases hk : k = S.keyOf o
    · subst hk
      obtain rfl := Option.some.inj ((State.writes_write_self S s i o store).symm.trans hw)
      exact ⟨rfl, Nat.lt_succ_self _, c, hc, hgives, Nat.le_of_lt (h.callers i c hc).1⟩
    · rw [State.writes_write_of_ne S s i store hk] at hw
      obtain ⟨hkey, htime, hbegan⟩ := h.writes k w hw
      exact ⟨hkey, Nat.lt_succ_of_lt htime, hbegan⟩
  pending := h.pending
  stored := fun p a o' t ha hgiven ht => by
    obtain ⟨w, hw, hle⟩ := h.stored p a o' t ha hgiven ht
    by_cases hk : S.keyOf o' = S.keyOf o
    · refine ⟨⟨o, i, s.clock⟩, ?_, Nat.le_trans hle (Nat.le_of_lt (h.writes _ w hw).2.1)⟩
      rw [hk]
      exact State.writes_write_self ..
    · exact ⟨w, (State.writes_write_of_ne S s i store hk).trans hw, hle⟩
  callers := h.callers
  source := fun j a w ha hw => (h.source j a w ha hw).congr rfl

/-- A caller stores its object and goes on. -/
theorem Kept.stores [DecidableEq κ] (h : Kept S back s.clock s) (hhonest : S.Honest back)
    (hc : s.callers[i]? = some c) {o : ο} {store : σ} (hput : S.put s.store o = .ok store)
    (hgives : c.Gives o) (hcall : c'.call = c.call) (hcalled : c'.called = c.called) (hown : c'.Own)
    (hstored : c'.stored = some s.clock)
    (hsource : ∀ w, c'.source = some w → s.Reads S back c' w) :
    Kept S back (s.clock + 1) ((s.write S i o store).move i c') := by
  refine (h.write hhonest hc hput hgives).move (Nat.le_refl _) hc hcall hcalled hown
    (Or.inr ⟨hstored, fun o' hgives' => ?_⟩) fun w hw => (hsource w hw).congr rfl
  obtain rfl := hgives.unique hgives'
  exact ⟨_, State.writes_write_self S s i o store, Nat.le_refl _⟩

/-! ## One step -/

theorem Kept.call (h : Kept S back s.clock s) (call : Call κ ο ε) :
    Kept S back (s.clock + 1) { s with
      callers := s.callers ++ [⟨call, .start call, 0, s.clock, none, none, none, none⟩]
      clock := s.clock + 1 } := by
  have hget {j : ℕ} {a : Caller ο (Call κ ο ε) (Stage κ ο ε)}
      (ha : (s.callers ++ [⟨call, .start call, 0, s.clock, none, none, none, none⟩])[j]? =
        some a) :
      a = ⟨call, .start call, 0, s.clock, none, none, none, none⟩ ∨
        s.callers[j]? = some a := by
    by_cases hj : j < s.callers.length
    · exact Or.inr ((List.getElem?_append_left hj).symm.trans ha)
    · rw [List.getElem?_append_right (Nat.not_lt.1 hj)] at ha
      exact Or.inl (List.mem_singleton.1 (List.mem_of_getElem? ha))
  have hold {j : ℕ} {a : Caller ο (Call κ ο ε) (Stage κ ο ε)}
      (ha : s.callers[j]? = some a) :
      (s.callers ++ [⟨call, .start call, 0, s.clock, none, none, none, none⟩])[j]? = some a :=
    (List.getElem?_append_left (List.getElem?_eq_some_iff.1 ha).1).trans ha
  have hbegan {w : Write ο} (hw : s.Began w) : State.Began { s with
      callers := s.callers ++ [⟨call, .start call, 0, s.clock, none, none, none, none⟩]
      clock := s.clock + 1 } w := by
    obtain ⟨a, ha, hgives⟩ := hw
    exact ⟨a, hold ha, hgives⟩
  refine ⟨h.content, fun k w hw => ?_, fun p hp => ?_, fun p a o t ha hgives ht => ?_,
    fun j a ha => ?_,
    fun j a w ha hw => ?_⟩
  · obtain ⟨hkey, htime, hw⟩ := h.writes k w hw
    exact ⟨hkey, Nat.lt_succ_of_lt htime, hbegan hw⟩
  · obtain ⟨a, ha, hgives⟩ := h.pending p hp
    exact ⟨a, hold ha, hgives⟩
  · rcases hget ha with rfl | ha
    · cases ht
    · exact h.stored p a o t ha hgives ht
  · rcases hget ha with rfl | ha
    · refine ⟨Nat.lt_succ_self _, ?_⟩
      cases call <;> exact ⟨rfl, rfl⟩
    · exact ⟨Nat.lt_succ_of_lt (h.callers j a ha).1, (h.callers j a ha).2⟩
  · rcases hget ha with rfl | ha
    · cases hw
    · have hr := h.source j a w ha hw
      refine ⟨hr.call, hbegan hr.began, hr.point, hr.returned,
        fun p b o t hb hgives hkey ht hlt => ?_⟩
      rcases hget hb with rfl | hb
      · cases ht
      · exact hr.unchanged p b o t hb hgives hkey ht hlt

/-- What is returned is what the caller's own initializer gave. -/
theorem Caller.own_of_returned {key : κ} {o : ο} {r : Result ο ε}
    (hpoint : c'.point = .returned r) (hget : c'.call = .get key (some (.ok o)))
    (hinvoked : c'.invoked ≠ none) (hr : ∀ o', r = .ok (some o') → o' = o) : c'.Own := by
  unfold Caller.Own
  rw [hpoint]
  rintro key' init o' hget' hr' -
  cases hget.symm.trans hget'
  obtain rfl := hr o' hr'
  exact ⟨rfl, hinvoked⟩

theorem Caller.own_of_put {o : ο} {r : Result ο ε} (hpoint : c'.point = .returned r)
    (hput : c'.call = .put o) : c'.Own := by
  unfold Caller.Own
  rw [hpoint]
  rintro key init o' hget - -
  cases hput.symm.trans hget

/-- A fill is left to another goroutine. -/
theorem Kept.spawn {now : ℕ} (h : Kept S back now s) (hc : s.callers[i]? = some c) {o : ο}
    (hgives : c.Gives o) : Kept S back now (s.spawn i o) :=
  { h with
    pending := fun p hp => by
      rcases List.mem_append.1 hp with hp | hp
      · exact h.pending p hp
      · obtain rfl := List.mem_singleton.1 hp
        exact ⟨c, hc, hgives⟩
    source := fun j a w ha hw => (h.source j a w ha hw).congr rfl }

variable [DecidableEq κ] {d : Design κ ο ε}

theorem Kept.run (h : Kept S back s.clock s) (hhonest : S.Honest back)
    (hunstored : ∀ o e o', d.unstored o e = .ok o' → o' = o)
    (hs : step S (d.machine δ) Stage.start s (.run i) = some s') :
    Kept S back (s.clock + 1) s' := by
  obtain ⟨c, hc, hmoves⟩ := Design.step_run hs
  have hown := (h.callers i c hc).2
  unfold Caller.Own at hown
  cases hmoves with
  | hit key init o hp hl =>
    have hget : c.call = .get key init := by
      rcases hp with hp | hp <;> (rw [hp] at hown; exact hown.1)
    exact h.hit hc hget hl _
  | firstMiss key init e hp hl =>
    rw [hp] at hown
    exact h.quiet hc rfl rfl ⟨hown.1, rfl⟩ rfl rfl
  | missing key e hp hl => exact h.quiet hc rfl rfl (fun _ _ _ _ ho => nomatch ho) rfl rfl
  | secondMiss key r e hp hl =>
    rw [hp] at hown
    exact h.quiet hc rfl rfl ⟨hown.1, rfl, nofun⟩ rfl rfl
  | initFails key e hp =>
    rw [hp] at hown
    exact h.quiet hc rfl rfl (fun _ _ _ _ ho => nomatch ho) rfl hown.2.1
  | initDone key o hp =>
    rw [hp] at hown
    exact h.quiet hc rfl rfl ⟨⟨key, hown.1⟩, hown.2⟩ rfl hown.2.1
  | spawn o hb hp =>
    rw [hp] at hown
    obtain ⟨⟨key, hget⟩, hsource, hinvoked⟩ := hown
    refine Kept.quiet (s := s.spawn i o) (h.spawn hc (Or.inr ⟨key, hget⟩)) hc rfl
      rfl ?_ rfl hsource
    exact Caller.own_of_returned rfl hget hinvoked fun o' ho => by cases ho; rfl
  | store o store hb hp hput =>
    rw [hp] at hown
    obtain ⟨⟨key, hget⟩, hsource, hinvoked⟩ := hown
    refine h.stores hhonest hc hput (Or.inr ⟨key, hget⟩) rfl rfl ?_ rfl
      fun w hw => by cases hsource.symm.trans hw
    exact Caller.own_of_returned rfl hget hinvoked fun o' ho => by cases ho; rfl
  | storeFails o e hb hp hput =>
    rw [hp] at hown
    obtain ⟨⟨key, hget⟩, hsource, hinvoked⟩ := hown
    refine h.quiet hc rfl rfl ?_ rfl hsource
    refine Caller.own_of_returned rfl hget hinvoked fun o' ho => ?_
    cases hr : d.unstored o e with
    | ok o'' =>
      rw [hr] at ho
      cases ho
      exact hunstored o e _ hr
    | error err =>
      rw [hr] at ho
      cases ho
  | put o store hp hput =>
    rw [hp] at hown
    exact h.stores hhonest hc hput (Or.inl hown.1) rfl rfl (Caller.own_of_put rfl hown.1) rfl
      fun w hw => by cases hown.2.symm.trans hw
  | putFails o e hp hput =>
    rw [hp] at hown
    exact h.quiet hc rfl rfl (Caller.own_of_put rfl hown.1) rfl hown.2

/-- A store that was left to run. -/
theorem Kept.put (h : Kept S back s.clock s) (hhonest : S.Honest back) {n : ℕ}
    (hs : step S (d.machine δ) Stage.start s (.put n) = some s') :
    Kept S back (s.clock + 1) s' := by
  obtain ⟨p, hp, hcases⟩ := Design.step_put hs
  obtain ⟨c, hc, hgives⟩ := h.pending p (List.mem_of_getElem? hp)
  have herase : Kept S back s.clock { s with pending := s.pending.eraseIdx n } :=
    { h with
      pending := fun q hq => h.pending q (List.mem_of_mem_eraseIdx hq)
      source := fun j a w ha hw => (h.source j a w ha hw).congr rfl }
  rcases hcases with ⟨store, hput, rfl⟩ | ⟨e, -, rfl⟩
  · have hwritten : (State.write S { s with pending := s.pending.eraseIdx n } p.caller p.object
        store).callers[p.caller]? = some c := hc
    rw [State.mark_eq_move hwritten]
    refine Kept.stores (s := { s with pending := s.pending.eraseIdx n }) herase
      hhonest hc hput hgives rfl rfl ?_ rfl fun w hw => ?_
    · exact (h.callers _ c hc).2
    · have hr := (h.source _ c w hc hw).congr rfl
      exact ⟨hr.call, hr.began, hr.point, hr.returned, hr.unchanged⟩
  · exact ⟨h.content, fun k w hw => ⟨(h.writes k w hw).1,
      Nat.lt_succ_of_lt (h.writes k w hw).2.1,
      (h.writes k w hw).2.2⟩, herase.pending, h.stored,
      fun j a ha => ⟨Nat.lt_succ_of_lt (h.callers j a ha).1, (h.callers j a ha).2⟩,
      fun j a w ha hw => (h.source j a w ha hw).congr rfl⟩

theorem Kept.step (h : Kept S back s.clock s) (hhonest : S.Honest back)
    (hunstored : ∀ o e o', d.unstored o e = .ok o' → o' = o) {a : Act (Call κ ο ε)}
    (hs : CacheAside.step S (d.machine δ) Stage.start s a = some s') :
    Kept S back s'.clock s' := by
  have hclock : s'.clock = s.clock + 1 := by
    cases a with
    | call call => rw [Design.step_call hs]
    | run i =>
      obtain ⟨c, -, hmoves⟩ := Design.step_run hs
      cases hmoves <;> rfl
    | put n =>
      obtain ⟨p, -, ⟨store, -, rfl⟩ | ⟨e, -, rfl⟩⟩ := Design.step_put hs <;> rfl
  rw [hclock]
  cases a with
  | call call =>
    obtain rfl := Design.step_call hs
    rw [Design.begin_start]
    exact h.call call
  | run i => exact h.run hhonest hunstored hs
  | put n => exact h.put hhonest hs

theorem kept_of_reachable (hhonest : S.Honest back)
    (hunstored : ∀ o e o', d.unstored o e = .ok o' → o' = o) {store : σ}
    (hempty : ∀ k o, S.lookup store k ≠ .ok o)
    (h : (system S (d.machine δ) Stage.start store).Reachable s) : Kept S back s.clock s := by
  have hnone {i : ℕ} {c : Caller ο (Call κ ο ε) (Stage κ ο ε)} {P : Prop}
      (hc : (system S (d.machine δ) Stage.start store).init.callers[i]? = some c) : P :=
    absurd (List.mem_of_getElem? hc) List.not_mem_nil
  refine h.invariant (I := fun s => Kept S back s.clock s)
    ⟨fun k o hl => absurd hl (hempty k o), nofun,
    fun _ hp => absurd hp List.not_mem_nil, fun _ _ _ _ hc => hnone hc, fun _ _ hc => hnone hc,
    fun _ _ _ hc => hnone hc⟩ fun s a s' hI hs => ?_
  exact hI.step hhonest hunstored hs

omit [DecidableEq κ] in
theorem Kept.regular {now : ℕ} (h : Kept S back now s) (g : ℕ) :
    s.Regular S back (d.machine δ) g := by
  intro c key init o hc hget hresult
  have hpoint := Design.point_of_result hresult
  cases hw : c.source with
  | none =>
    have hown := (h.callers g c hc).2
    unfold Caller.Own at hown
    rw [hpoint] at hown
    exact Or.inl ⟨rfl, hown key init o hget rfl hw⟩
  | some w =>
    obtain ⟨⟨init', hcall⟩, hbegan, hreads, ⟨t, hreturned, hlt⟩, hunchanged⟩ :=
      h.source g c w hc hw
    obtain ⟨hkey, -⟩ := Call.get.inj (hget.symm.trans hcall)
    have ho : o = back w.object := by
      have heq := hpoint.symm.trans hreads
      cases heq
      rfl
    subst hkey
    exact Or.inr ⟨w, t, rfl, ho, rfl, hbegan, hreturned, hlt, hunchanged⟩

/-! ## Of programs -/

omit [DecidableEq κ] in
theorem State.regular_map {τ : Type} {m : Machine κ ο δ ε (Stage κ ο ε)}
    {m' : Machine κ ο δ ε τ} {f : Stage κ ο ε → τ} (hmaps : Maps m m' f) {g : ℕ}
    (h : s.Regular S back m g) :
    (s.map f).Regular S back m' g := by
  intro c key init o hc hget hresult
  have hcallers (i : ℕ) : (s.map f).callers[i]? = s.callers[i]?.map (Caller.map f) :=
    List.getElem?_map ..
  rw [hcallers] at hc
  obtain ⟨c, hc', rfl⟩ := Option.map_eq_some_iff.1 hc
  rw [hmaps.result] at hresult
  rcases h c key init o hc' hget hresult with
    hown | ⟨w, t, hw, ho, hkey, ⟨a, ha, hgives⟩, ht, hlt, hun⟩
  · exact Or.inl hown
  · refine Or.inr ⟨w, t, hw, ho, hkey, ⟨a.map f, ?_, hgives⟩, ht, hlt,
      fun p b o' t' hb => ?_⟩
    · rw [hcallers, ha, Option.map_some]
    · rw [hcallers] at hb
      obtain ⟨b, hb', rfl⟩ := Option.map_eq_some_iff.1 hb
      exact hun p b o' t' hb'

/-- **Reads are regular.** In every run of the programs of a design, from an empty store. -/
theorem regular_program (hhonest : S.Honest back)
    (hunstored : ∀ o e o', d.unstored o e = .ok o' → o' = o) {store : σ}
    (hempty : ∀ k o, S.lookup store k ≠ .ok o)
    {program : Call κ ο ε → Prog (Op κ ο) (Op.Ans δ ε) (Result ο ε)}
    (hprogram : ∀ call, program call = d.program δ (.start call))
    {t : State σ κ ο (Call κ ο ε) (Prog (Op κ ο) (Op.Ans δ ε) (Result ο ε))}
    (h : (system S Prog.next program store).Reachable t) (g : ℕ) :
    t.Regular S back Prog.next g := by
  obtain rfl : program = d.program δ ∘ Stage.start := funext hprogram
  obtain ⟨s, hs, rfl⟩ := reachable_program d.maps_program h
  exact State.regular_map d.maps_program ((kept_of_reachable hhonest hunstored hempty hs).regular g)

end Stage

end CacheAside
