import AutomaticCache.Lib.CacheAside.Design

/-!
# How many initializers are invoked

Callers that all ask for one key, which is absent at first, with initializers that all succeed. That
a second lookup precedes the initializer is not enough for a single fetch: the initializers of two
callers run side by side when one makes its second lookup between the other's and its store
(`Checked`). Nothing else can bring it about (`oneInvoked_iff_checked`).
-/

namespace CacheAside

open Runs

variable {σ κ ο δ ε γ ς : Type}

/-- When caller `i` entered its initializer, if it has. -/
def State.invokedAt (s : State σ κ ο γ ς) (i : ℕ) : Option ℕ :=
  s.callers[i]?.bind Caller.invoked

/-- When the object of caller `i` was stored, if it is. -/
def State.storedAt (s : State σ κ ο γ ς) (i : ℕ) : Option ℕ :=
  s.callers[i]?.bind Caller.stored

/-- At most one caller has entered its initializer. -/
def State.OneInvoked (s : State σ κ ο γ ς) : Prop :=
  ∀ i j, s.invokedAt i ≠ none → s.invokedAt j ≠ none → i = j

/-- The object of every initializer that was invoked is stored. -/
def State.Settled (s : State σ κ ο γ ς) : Prop :=
  ∀ c ∈ s.callers, c.invoked ≠ none → c.stored ≠ none

instance (s : State σ κ ο γ ς) : Decidable s.Settled :=
  inferInstanceAs (Decidable (∀ c ∈ s.callers, c.invoked ≠ none → c.stored ≠ none))

/-- The next step of the caller is a lookup. -/
def Caller.looksUp (m : Machine κ ο δ ε ς) (c : Caller ο γ ς) : Bool :=
  match m c.point with
  | .op (.lookup _) _ => true
  | _ => false

/-- The next step of the caller is its second lookup. -/
def Caller.Checks (m : Machine κ ο δ ε ς) (c : Caller ο γ ς) : Prop :=
  c.lookups = 1 ∧ c.looksUp m = true

instance (m : Machine κ ο δ ε ς) (c : Caller ο γ ς) : Decidable (c.Checks m) :=
  inferInstanceAs (Decidable (_ ∧ _))

/-- If the step is the second lookup of its caller, then no initializer has been invoked whose
object is still to be stored. -/
def Checked (m : Machine κ ο δ ε ς) (s : State σ κ ο γ ς) : Act γ → Prop
  | .run i => ∀ c ∈ s.callers[i]?, c.Checks m → s.Settled
  | _ => True

instance (m : Machine κ ο δ ε ς) (s : State σ κ ο γ ς) : ∀ a, Decidable (Checked m s a)
  | .run i => inferInstanceAs (Decidable (∀ c ∈ s.callers[i]?, c.Checks m → s.Settled))
  | .call _ | .put _ => isTrue trivial

/-! ## One caller goes on -/

section move

variable {s : State σ κ ο γ ς} {i : ℕ} {c c' : Caller ο γ ς}

theorem bind_set {α β : Type} {l : List α} {i : ℕ} {a : α} (ha : l[i]? = some a)
    (a' : α) (j : ℕ) (field : α → Option β) :
    (l.set i a')[j]?.bind field = if i = j then field a' else l[j]?.bind field := by
  split_ifs with hij
  · subst hij
    rw [List.getElem?_set_self (List.getElem?_eq_some_iff.1 ha).1, Option.bind_some]
  · rw [List.getElem?_set_ne hij]

theorem State.invokedAt_move (hc : s.callers[i]? = some c) (j : ℕ) :
    (s.move i c').invokedAt j = if i = j then c'.invoked else s.invokedAt j := bind_set hc c' j _

theorem State.storedAt_move (hc : s.callers[i]? = some c) (j : ℕ) :
    (s.move i c').storedAt j = if i = j then c'.stored else s.storedAt j := bind_set hc c' j _

theorem State.invokedAt_of_get (hc : s.callers[i]? = some c) : s.invokedAt i = c.invoked := by
  unfold State.invokedAt; rw [hc, Option.bind_some]

theorem State.exists_of_invokedAt (h : s.invokedAt i ≠ none) : ∃ c, s.callers[i]? = some c := by
  refine Option.ne_none_iff_exists'.1 fun hnone => h ?_
  unfold State.invokedAt
  rw [hnone, Option.bind_none]

theorem State.storedAt_of_get (hc : s.callers[i]? = some c) : s.storedAt i = c.stored := by
  unfold State.storedAt; rw [hc, Option.bind_some]

/-- A caller that stays out of its initializer, or in it. -/
theorem State.invokedAt_move_same (hc : s.callers[i]? = some c) (h : c'.invoked = c.invoked)
    (j : ℕ) : (s.move i c').invokedAt j = s.invokedAt j := by
  rw [State.invokedAt_move hc]
  split_ifs with hij
  · subst hij
    rw [State.invokedAt_of_get hc, h]
  · rfl

end move

/-! ## The invariant -/

/-- A caller for `k` whose initializer succeeds with an object for `k`. -/
def Caller.Fills (S : Store σ κ ο δ ε) (k : κ) (c : Caller ο γ (Stage κ ο ε)) : Prop :=
  match c.point with
  | .first key init =>
    key = k ∧ (∃ o, init = some (.ok o) ∧ S.keyOf o = k) ∧ c.lookups = 0 ∧
      c.invoked = none
  | .second key init =>
    key = k ∧ (∃ o, init = some (.ok o) ∧ S.keyOf o = k) ∧ c.lookups = 1 ∧
      c.invoked = none
  | .running _ r => (∃ o, r = .ok o ∧ S.keyOf o = k) ∧ c.invoked ≠ none
  | .storing o => S.keyOf o = k ∧ c.invoked ≠ none
  | .put _ => False
  | .returned _ => True

/-- The key is present once an object is stored, and only then; only what an initializer gave is
stored. -/
structure Filling (S : Store σ κ ο δ ε) (k : κ) (s : State σ κ ο γ (Stage κ ο ε)) :
    Prop where
  fills : ∀ c ∈ s.callers, c.Fills S k
  present : (∃ o, S.lookup s.store k = .ok o) ↔ ∃ i, s.storedAt i ≠ none
  invoked : ∀ i, s.storedAt i ≠ none → s.invokedAt i ≠ none
  pending : ∀ p ∈ s.pending, S.keyOf p.object = k ∧ s.invokedAt p.caller ≠ none

section Filling

variable {S : Store σ κ ο δ ε} {k : κ} {s s' : State σ κ ο γ (Stage κ ο ε)} {i : ℕ}
  {c c' : Caller ο γ (Stage κ ο ε)}

/-- A caller goes on without storing anything. -/
theorem Filling.move (h : Filling S k s) (hc : s.callers[i]? = some c) (hfills : c'.Fills S k)
    (hinvoked : c.invoked ≠ none → c'.invoked ≠ none) (hstored : c'.stored = c.stored) :
    Filling S k (s.move i c') := by
  have hmono (j : ℕ) (hj : s.invokedAt j ≠ none) : (s.move i c').invokedAt j ≠ none := by
    rw [State.invokedAt_move hc]
    split_ifs with hij
    · subst hij
      rw [State.invokedAt_of_get hc] at hj
      exact hinvoked hj
    · exact hj
  have hsame (j : ℕ) : (s.move i c').storedAt j = s.storedAt j := by
    rw [State.storedAt_move hc]
    split_ifs with hij
    · subst hij
      rw [State.storedAt_of_get hc, hstored]
    · rfl
  refine ⟨fun a ha => ?_, ?_, fun j hj => hmono j (h.invoked j (hsame j ▸ hj)),
    fun p hp => ?_⟩
  · rcases List.mem_or_eq_of_mem_set ha with ha | rfl
    · exact h.fills a ha
    · exact hfills
  · simp only [hsame]
    exact h.present
  · exact ⟨(h.pending p hp).1, hmono _ (h.pending p hp).2⟩

/-- The object of caller `i` is stored, and the key is present from then on. -/
theorem Filling.stored {u : State σ κ ο γ (Stage κ ο ε)} (h : Filling S k s)
    (c' : Caller ο γ (Stage κ ο ε)) (hc : s.callers[i]? = some c) (hi : s.invokedAt i ≠ none)
    (hcallers : u.callers = s.callers)
    (hpending : ∀ p ∈ u.pending, p ∈ s.pending) (hpresent : ∃ o, S.lookup u.store k = .ok o)
    (hfills : c'.Fills S k) (hinvoked : c'.invoked = c.invoked) (hstored : c'.stored ≠ none) :
    Filling S k (u.move i c') ∧ ∀ j, (u.move i c').invokedAt j = s.invokedAt j := by
  have hu : u.callers[i]? = some c := by rw [hcallers, hc]
  have hsame (j : ℕ) : (u.move i c').invokedAt j = s.invokedAt j := by
    rw [State.invokedAt_move_same hu hinvoked, State.invokedAt, State.invokedAt, hcallers]
  refine ⟨⟨fun a ha => ?_, iff_of_true hpresent ⟨i, ?_⟩, fun j hj => ?_, fun p hp => ?_⟩,
    hsame⟩
  · rcases List.mem_or_eq_of_mem_set ha with ha | rfl
    · exact h.fills a (hcallers ▸ ha)
    · exact hfills
  · rwa [State.storedAt_move hu, if_pos rfl]
  · rw [hsame]
    rw [State.storedAt_move hu] at hj
    split_ifs at hj with hij
    · exact hij ▸ hi
    · apply h.invoked j
      rwa [State.storedAt, hcallers] at hj
  · rw [hsame]
    exact h.pending p (hpending p hp)

variable [DecidableEq κ] {d : Design κ ο ε} {start : γ → Stage κ ο ε}

/-- What is put under `k` is found under it. -/
def Store.Finds (S : Store σ κ ο δ ε) (k : κ) : Prop :=
  ∀ s s' o, S.keyOf o = k → S.put s o = .ok s' → ∃ o', S.lookup s' k = .ok o'

/-- All calls are for `k`, with initializers that succeed with an object for `k`. -/
def Stage.AllFill (S : Store σ κ ο δ ε) (k : κ) (start : γ → Stage κ ο ε) : Prop :=
  ∀ call, ∃ o, S.keyOf o = k ∧ start call = .first k (some (.ok o))

theorem Filling.call (h : Filling S k s) (hstart : Stage.AllFill S k start) {call : γ}
    (hs : step S (d.machine δ) start s (.call call) = some s') :
    Filling S k s' ∧ (∀ j, s'.invokedAt j = s.invokedAt j) := by
  obtain rfl := Design.step_call hs
  obtain ⟨o, hkey, hcall⟩ := hstart call
  have hnew : Caller.begin (d.machine δ) s.clock call (start call) =
      ⟨call, .first k (some (.ok o)), 0, s.clock, none, none, none, none⟩ := by
    rw [hcall]; rfl
  rw [hnew]
  have hnone (j : ℕ) (field : Caller ο γ (Stage κ ο ε) → Option ℕ)
      (hfield : field ⟨call, .first k (some (.ok o)), 0, s.clock, none, none, none, none⟩ =
        none) :
      (s.callers ++
        [⟨call, .first k (some (.ok o)), 0, s.clock, none, none, none, none⟩])[j]?.bind
        field = s.callers[j]?.bind field := by
    rcases Nat.lt_trichotomy j s.callers.length with hj | rfl | hj
    · rw [List.getElem?_append_left hj]
    · rw [List.getElem?_concat_length, List.getElem?_eq_none (Nat.le_refl _)]
      exact hfield
    · rw [List.getElem?_eq_none (by simp; omega), List.getElem?_eq_none (by omega)]
  refine ⟨⟨fun a ha => ?_, ?_, fun j hj => ?_, fun p hp => ?_⟩,
    fun j => hnone j Caller.invoked rfl⟩
  · rcases List.mem_append.1 ha with ha | ha
    · exact h.fills a ha
    · obtain rfl := List.mem_singleton.1 ha
      exact ⟨rfl, ⟨o, rfl, hkey⟩, rfl, rfl⟩
  · refine h.present.trans (exists_congr fun j => not_congr ?_)
    rw [State.storedAt, State.storedAt, hnone j Caller.stored rfl]
  · unfold State.storedAt at hj
    rw [hnone j Caller.stored rfl] at hj
    unfold State.invokedAt
    rw [hnone j Caller.invoked rfl]
    exact h.invoked j hj
  · unfold State.invokedAt
    rw [hnone p.caller Caller.invoked rfl]
    exact h.pending p hp

theorem Filling.put (h : Filling S k s) (hfinds : S.Finds k) {n : ℕ}
    (hs : step S (d.machine δ) start s (.put n) = some s') :
    Filling S k s' ∧ ∀ j, s'.invokedAt j = s.invokedAt j := by
  obtain ⟨p, hp, ⟨store, hput, rfl⟩ | ⟨e, -, rfl⟩⟩ := Design.step_put hs
  · obtain ⟨hkey, hcaller⟩ := h.pending p (List.mem_of_getElem? hp)
    obtain ⟨c, hc⟩ := State.exists_of_invokedAt hcaller
    have hmark := State.mark_eq_move
      (s := { s with pending := s.pending.eraseIdx n }.write S p.caller p.object store) hc
    rw [hmark]
    exact h.stored _ hc hcaller rfl (fun q hq => List.mem_of_mem_eraseIdx hq)
      (hfinds _ _ _ hkey hput) (h.fills c (List.mem_of_getElem? hc)) rfl (Option.some_ne_none _)
  · exact ⟨⟨h.fills, h.present, h.invoked,
      fun q hq => h.pending q (List.mem_of_mem_eraseIdx hq)⟩,
      fun _ => rfl⟩

omit [DecidableEq κ] in
/-- Only the first two points of a call look a key up. -/
theorem Design.not_checks {p : Stage κ ο ε} (hp : c.point = p)
    (h : ∀ key init, p ≠ .first key init ∧ p ≠ .second key init) :
    ¬c.Checks (d.machine δ) := by
  rintro ⟨-, hlooks⟩
  unfold Caller.looksUp machine at hlooks
  rw [hp] at hlooks
  cases p with
  | first key init => exact (h key init).1 rfl
  | second key init => exact (h key init).2 rfl
  | storing o => cases hb : d.background <;> simp [hb] at hlooks
  | running | put | returned => cases hlooks

theorem Filling.run (h : Filling S k s) (hfinds : S.Finds k)
    (hs : step S (d.machine δ) start s (.run i) = some s') :
    Filling S k s' ∧ ∃ c, s.callers[i]? = some c ∧
      (¬ c.Checks (d.machine δ) ∧ (∀ j, s'.invokedAt j = s.invokedAt j) ∨
      (∃ o, S.lookup s.store k = .ok o) ∧ (∀ j, s'.invokedAt j = s.invokedAt j) ∨
      c.Checks (d.machine δ) ∧ c.invoked = none ∧
        (¬ ∃ o, S.lookup s.store k = .ok o) ∧
        ∀ j, s'.invokedAt j = if i = j then some s.clock else s.invokedAt j) := by
  obtain ⟨c, hc, hmoves⟩ := Design.step_run hs
  have hfills := h.fills c (List.mem_of_getElem? hc)
  have hsame {c' : Caller ο γ (Stage κ ο ε)} (hinvoked : c'.invoked = c.invoked) (j : ℕ) :
      (s.move i c').invokedAt j = s.invokedAt j :=
    State.invokedAt_move_same hc hinvoked j
  unfold Caller.Fills at hfills
  cases hmoves with
  | hit key init o hp hl =>
    have hkey : key = k := by
      rcases hp with hp | hp <;> (rw [hp] at hfills; exact hfills.1)
    subst hkey
    exact ⟨h.move hc trivial id rfl, c, hc, Or.inr (Or.inl ⟨⟨o, hl⟩, hsame rfl⟩)⟩
  | firstMiss key init e hp hl =>
    rw [hp] at hfills
    obtain ⟨hkey, hinit, hlookups, hnone⟩ := hfills
    refine ⟨h.move hc ⟨hkey, hinit, by rw [hlookups], hnone⟩ id rfl, c, hc,
      Or.inl ⟨fun hchecks => ?_, hsame rfl⟩⟩
    rw [Caller.Checks, hlookups] at hchecks
    cases hchecks.1
  | missing key e hp hl =>
    rcases hp with hp | hp <;>
      (rw [hp] at hfills; obtain ⟨-, ⟨o, hinit, -⟩, -⟩ := hfills; cases hinit)
  | secondMiss key r e hp hl =>
    rw [hp] at hfills
    obtain ⟨rfl, ⟨o, hinit, hkey⟩, hlookups, hnone⟩ := hfills
    refine ⟨h.move hc ⟨⟨o, Option.some.inj hinit, hkey⟩, nofun⟩ nofun rfl, c, hc,
      Or.inr (Or.inr ⟨⟨hlookups, ?_⟩, hnone, ?_, State.invokedAt_move hc⟩)⟩
    · unfold Caller.looksUp
      rw [hp]
      rfl
    · rintro ⟨o', ho'⟩
      rw [hl] at ho'
      cases ho'
  | initFails key e hp =>
    rw [hp] at hfills
    obtain ⟨⟨o, ho, -⟩, -⟩ := hfills
    cases ho
  | initDone key o hp =>
    rw [hp] at hfills
    obtain ⟨⟨o', ho, hkey⟩, hinvoked⟩ := hfills
    obtain rfl := Except.ok.inj ho
    exact ⟨h.move hc ⟨hkey, hinvoked⟩ id rfl, c, hc,
      Or.inl ⟨Design.not_checks hp fun _ _ => ⟨nofun, nofun⟩, hsame rfl⟩⟩
  | spawn o hb hp =>
    rw [hp] at hfills
    have hspawn : Filling S k (s.spawn i o) := by
      refine ⟨h.fills, h.present, h.invoked, fun p hp => ?_⟩
      rcases List.mem_append.1 hp with hp | hp
      · exact h.pending p hp
      · obtain rfl := List.mem_singleton.1 hp
        exact ⟨hfills.1, (State.invokedAt_of_get hc).trans_ne hfills.2⟩
    exact ⟨hspawn.move hc trivial id rfl, c, hc,
      Or.inl ⟨Design.not_checks hp fun _ _ => ⟨nofun, nofun⟩, hsame rfl⟩⟩
  | store o store hb hp hput =>
    rw [hp] at hfills
    obtain ⟨h', hsame'⟩ := h.stored (u := s.write S i o store)
      { c with
        point := .returned (.ok (some o))
        stored := some s.clock
        returned := some s.clock }
      hc ((State.invokedAt_of_get hc).trans_ne hfills.2) rfl (fun _ hq => hq)
      (hfinds _ _ _ hfills.1 hput) trivial rfl (Option.some_ne_none _)
    exact ⟨h', c, hc, Or.inl ⟨Design.not_checks hp fun _ _ => ⟨nofun, nofun⟩, hsame'⟩⟩
  | storeFails o e hb hp hput =>
    exact ⟨h.move hc trivial id rfl, c, hc,
      Or.inl ⟨Design.not_checks hp fun _ _ => ⟨nofun, nofun⟩, hsame rfl⟩⟩
  | put o store hp hput =>
    rw [hp] at hfills
    exact hfills.elim
  | putFails o e hp hput =>
    rw [hp] at hfills
    exact hfills.elim

/-! ## Every run -/

omit [DecidableEq κ] in
theorem State.settled_iff : s.Settled ↔ ∀ j, s.invokedAt j ≠ none →
    s.storedAt j ≠ none := by
  constructor
  · intro h j hj
    obtain ⟨c, hc⟩ := State.exists_of_invokedAt hj
    rw [State.invokedAt_of_get hc] at hj
    rw [State.storedAt_of_get hc]
    exact h c (List.mem_of_getElem? hc) hj
  · intro h c hc
    obtain ⟨j, hj⟩ := List.mem_iff_getElem?.1 hc
    rw [← State.invokedAt_of_get hj, ← State.storedAt_of_get hj]
    exact h j

omit [DecidableEq κ] in
/-- When one more initializer is invoked, it is the only one if there was none. -/
theorem State.oneInvoked_iff_of_invoked {time : ℕ} (hi : s.invokedAt i = none)
    (hinvoked : ∀ j, s'.invokedAt j = if i = j then some time else s.invokedAt j) :
    s'.OneInvoked ↔ ∀ j, s.invokedAt j = none := by
  have hother (j : ℕ) (hij : i ≠ j) : s'.invokedAt j = s.invokedAt j := by
    rw [hinvoked, if_neg hij]
  constructor
  · intro hone j
    by_contra hj
    have hij : i ≠ j := fun hij => hj (hij ▸ hi)
    refine hij (hone i j ?_ ?_)
    · rw [hinvoked, if_pos rfl]
      exact Option.some_ne_none time
    · rwa [hother j hij]
  · intro hnone j j' hj hj'
    have honly (j : ℕ) (hj : s'.invokedAt j ≠ none) : i = j := by
      by_contra hij
      exact hj ((hother j hij).trans (hnone j))
    rw [← honly j hj, ← honly j' hj']

/-- Whether at most one initializer has been invoked depends on the second lookups alone. -/
theorem Filling.oneInvoked_step_iff (h : Filling S k s) (hone : s.OneInvoked) (hfinds : S.Finds k)
    (hstart : Stage.AllFill S k start) {a : Act γ}
    (hs : step S (d.machine δ) start s a = some s') :
    s'.OneInvoked ↔ Checked (d.machine δ) s a := by
  have hsame (hs : ∀ j, s'.invokedAt j = s.invokedAt j) : s'.OneInvoked := fun i j hi hj =>
    hone i j ((hs i).symm.trans_ne hi) ((hs j).symm.trans_ne hj)
  cases a with
  | call call => exact iff_of_true (hsame (h.call hstart hs).2) trivial
  | put n => exact iff_of_true (hsame (h.put hfinds hs).2) trivial
  | run i =>
    obtain ⟨-, c, hc, hcase⟩ := h.run hfinds hs
    have hchecked : Checked (d.machine δ) s (.run i) ↔
        (c.Checks (d.machine δ) → s.Settled) := by
      unfold Checked
      dsimp only
      rw [hc]
      exact ⟨fun h => h c rfl, fun h c' hc' => Option.some.inj hc' ▸ h⟩
    rw [hchecked, State.settled_iff]
    rcases hcase with ⟨hnot, heq⟩ | ⟨hpresent, heq⟩ | ⟨hchecks, hnone, habsent, heq⟩
    · exact iff_of_true (hsame heq) fun hchecks => absurd hchecks hnot
    · obtain ⟨j, hj⟩ := h.present.1 hpresent
      refine iff_of_true (hsame heq) fun _ j' hj' => ?_
      rw [hone j' j hj' (h.invoked j hj)]
      exact hj
    · have hunstored (j : ℕ) : s.storedAt j = none := by
        by_contra hj
        exact habsent (h.present.2 ⟨j, hj⟩)
      rw [State.oneInvoked_iff_of_invoked ((State.invokedAt_of_get hc).trans hnone) heq]
      constructor
      · intro hall _ j hj
        exact absurd (hall j) hj
      · intro hsettled j
        by_contra hj
        exact hsettled hchecks j hj (hunstored j)

theorem Filling.step (h : Filling S k s) (hfinds : S.Finds k) (hstart : Stage.AllFill S k start)
    {a : Act γ} (hs : CacheAside.step S (d.machine δ) start s a = some s') : Filling S k s' := by
  cases a with
  | call call => exact (h.call hstart hs).1
  | run i => exact (h.run hfinds hs).1
  | put n => exact (h.put hfinds hs).1

/-- **Single fetch.** In a run of callers that all fill `k`, absent at first, no two initializers
are invoked exactly if no second lookup is made between the invocation of an initializer and the
store of its object. -/
theorem oneInvoked_iff_checked (hfinds : S.Finds k) (hstart : Stage.AllFill S k start) {store : σ}
    (habsent : ¬ ∃ o, S.lookup store k = .ok o) {as : List (Act γ)}
    {t : State σ κ ο γ (Stage κ ο ε)}
    (hrun : (system S (d.machine δ) start store).run
      (system S (d.machine δ) start store).init as =
      some t) :
    (system S (d.machine δ) start store).States State.OneInvoked
        (system S (d.machine δ) start store).init as ↔
      (system S (d.machine δ) start store).Steps (Checked (d.machine δ))
        (system S (d.machine δ) start store).init as := by
  have hinit : Filling S k (system S (d.machine δ) start store).init :=
    ⟨fun _ h => absurd h List.not_mem_nil, iff_of_false habsent fun ⟨_, h⟩ => h rfl,
      fun _ h => absurd rfl h, fun _ h => absurd h List.not_mem_nil⟩
  have hnone : (system S (d.machine δ) start store).init.OneInvoked := fun _ _ h => absurd rfl h
  refine System.states_iff_steps (I := fun s => Filling S k s ∧ s.OneInvoked) ?_ ?_
    ⟨hinit, hnone⟩ hrun
  · rintro s a s' ⟨hI, hone⟩ hok hs
    exact ⟨hI.step hfinds hstart hs, (hI.oneInvoked_step_iff hone hfinds hstart hs).2 hok⟩
  · rintro s a s' ⟨hI, hone⟩ hs
    exact hI.oneInvoked_step_iff hone hfinds hstart hs

/-! ## Of programs -/

omit [DecidableEq κ] in
theorem State.oneInvoked_map {τ : Type} {f : Stage κ ο ε → τ} :
    (s.map f).OneInvoked ↔ s.OneInvoked := by
  have hmap (j : ℕ) : (s.map f).invokedAt j = s.invokedAt j := by
    unfold State.invokedAt State.map
    rw [List.getElem?_map]
    cases s.callers[j]? <;> rfl
  unfold State.OneInvoked
  simp only [hmap]

omit [DecidableEq κ] in
theorem State.settled_map {τ : Type} {f : Stage κ ο ε → τ} :
    (s.map f).Settled ↔ s.Settled :=
  List.forall_mem_map

omit [DecidableEq κ] in
theorem checked_map {τ : Type} {m : Machine κ ο δ ε (Stage κ ο ε)}
    {m' : Machine κ ο δ ε τ} {f : Stage κ ο ε → τ} (h : Maps m m' f) (a : Act γ) :
    Checked m' (s.map f) a ↔ Checked m s a := by
  have hlooks (c : Caller ο γ (Stage κ ο ε)) : (c.map f).looksUp m' = c.looksUp m := by
    unfold Caller.looksUp
    rw [show (c.map f).point = f c.point from rfl, h c.point]
    cases m c.point with
    | ret r => rfl
    | op o next => cases o <;> rfl
  have hchecks (c : Caller ο γ (Stage κ ο ε)) : (c.map f).Checks m' ↔ c.Checks m := by
    unfold Caller.Checks
    rw [hlooks]
    exact Iff.rfl
  cases a with
  | call call => exact Iff.rfl
  | put n => exact Iff.rfl
  | run i =>
    have hget : (s.map f).callers[i]? = s.callers[i]?.map (Caller.map f) := List.getElem?_map ..
    unfold Checked
    dsimp only
    rw [hget]
    cases s.callers[i]? with
    | none => exact iff_of_true (fun _ h => by cases h) fun _ h => by cases h
    | some c =>
      simp only [Option.map_some, Option.mem_some_iff, forall_eq', hchecks, State.settled_map]

/-- The same of the programs of the design. -/
theorem oneInvoked_iff_checked_program (hfinds : S.Finds k) (hstart : Stage.AllFill S k start)
    {store : σ} (habsent : ¬ ∃ o, S.lookup store k = .ok o)
    {program : γ → Prog (Op κ ο) (Op.Ans δ ε) (Result ο ε)}
    (hprogram : ∀ call, program call = d.program δ (start call)) {as : List (Act γ)}
    {t : State σ κ ο γ (Prog (Op κ ο) (Op.Ans δ ε) (Result ο ε))}
    (hrun : (system S Prog.next program store).run (system S Prog.next program store).init as =
      some t) :
    (system S Prog.next program store).States State.OneInvoked
        (system S Prog.next program store).init as ↔
      (system S Prog.next program store).Steps (Checked Prog.next)
        (system S Prog.next program store).init as := by
  obtain rfl : program = d.program δ ∘ start := funext hprogram
  rw [run_program d.maps_program] at hrun
  obtain ⟨t', hrun, -⟩ := Option.map_eq_some_iff.1 hrun
  have hstep := step_map (S := S) start (d.maps_program (δ := δ))
  have hstates := System.states_map (S := system S (d.machine δ) start store)
    (T := system S Prog.next (d.program δ ∘ start) store) hstep (Q := State.OneInvoked) as
    (system S (d.machine δ) start store).init
  have hsteps := System.steps_map (S := system S (d.machine δ) start store)
    (T := system S Prog.next (d.program δ ∘ start) store) hstep (P := Checked Prog.next) as
    (system S (d.machine δ) start store).init
  simp only [State.oneInvoked_map] at hstates
  simp only [checked_map d.maps_program] at hsteps
  exact hstates.trans ((oneInvoked_iff_checked hfinds hstart habsent hrun).trans hsteps.symm)

end Filling

end CacheAside
