import AutomaticCache.Lib.CacheAside.Design

/-!
# Where an object comes from

What a get finds is the last write under its key. So once a put has returned, a get that begins
after it finds the put's object or one that was stored later; but a fill is stored late, and the
object of an initializer that was invoked long before the put may be the later one
(`stored_after_of_stale`).
-/

namespace CacheAside

open Runs

variable {σ κ ο δ ε γ ς : Type}

/-- The call of caller `i`. -/
def State.callAt (s : State σ κ ο γ ς) (i : ℕ) : Option γ := s.callers[i]?.map Caller.call

/-- A put found under its key is found as `back` makes of it, and changes no other key. -/
structure Store.Lawful (S : Store σ κ ο δ ε) (back : ο → ο) : Prop where
  found : ∀ s s' o o', S.put s o = .ok s' → S.lookup s' (S.keyOf o) = .ok o' → o' = back o
  other : ∀ s s' o k, S.put s o = .ok s' → k ≠ S.keyOf o → S.lookup s' k = S.lookup s k

/-- The write is of an object that its caller was to put, or got from its initializer. -/
def State.Made (s : State σ κ ο (Call κ ο ε) ς) (w : Write ο) : Prop :=
  s.callAt w.caller = some (.put w.object) ∨
    ∃ key, s.callAt w.caller = some (.get key (some (.ok w.object)))

/-- A caller's point belongs to its call. -/
def Caller.OnCall (c : Caller ο (Call κ ο ε) (Stage κ ο ε)) : Prop :=
  match c.point with
  | .first key init | .second key init => c.call = .get key init ∧ c.source = none
  | .running key r => c.call = .get key (some r) ∧ c.source = none
  | .storing o => (∃ key, c.call = .get key (some (.ok o))) ∧ c.source = none
  | .put o => c.call = .put o ∧ c.invoked = none ∧ c.returned = none ∧ c.source = none
  | .returned r => ∀ o, c.call = .put o → c.invoked = none ∧
      (r = .ok none → c.stored ≠ none)

/-- What has happened to a caller has happened since it began, and before `now`. -/
structure Caller.Dated (now : ℕ) (c : Caller ο (Call κ ο ε) (Stage κ ο ε)) : Prop where
  called : c.called < now
  invoked : ∀ t, c.invoked = some t → c.called ≤ t
  stored : ∀ t, c.stored = some t → t < now
  returned : ∀ t, c.returned = some t → c.called ≤ t ∧ t < now
  onCall : c.OnCall

/-- The write of a put, stored at `t` by caller `p`, or one after it. -/
def Write.From (w : Write ο) (o : ο) (p t : ℕ) : Prop := w = ⟨o, p, t⟩ ∨ t < w.time

structure Dated (S : Store σ κ ο δ ε) (back : ο → ο)
    (s : State σ κ ο (Call κ ο ε) (Stage κ ο ε)) : Prop where
  callers : ∀ (i : ℕ) (c : Caller ο (Call κ ο ε) (Stage κ ο ε)),
    s.callers[i]? = some c →
    c.Dated s.clock
  content : ∀ k w o, s.writes k = some w → S.lookup s.store k = .ok o → o = back w.object
  made : ∀ k w, s.writes k = some w → s.Made w
  pending : ∀ p ∈ s.pending, ∃ key, s.callAt p.caller = some (.get key (some (.ok p.object)))
  source : ∀ (i : ℕ) (c : Caller ο (Call κ ο ε) (Stage κ ο ε)) w,
    s.callers[i]? = some c →
    c.source = some w → s.Made w ∧ ∀ o, c.point = .returned (.ok (some o)) →
    o = back w.object
  /-- A put that was stored is the last write under its key, or was followed by it. -/
  last : ∀ (p : ℕ) (cp : Caller ο (Call κ ο ε) (Stage κ ο ε)) o t,
    s.callers[p]? = some cp →
    cp.call = .put o → cp.stored = some t →
    ∃ w, s.writes (S.keyOf o) = some w ∧ w.From o p t
  /-- What a later get found is no earlier write. -/
  later : ∀ (p g : ℕ) (cp cg : Caller ο (Call κ ο ε) (Stage κ ο ε)) o init t tp w,
    s.callers[p]? = some cp → cp.call = .put o → cp.stored = some t →
    cp.returned = some tp →
    s.callers[g]? = some cg → cg.call = .get (S.keyOf o) init → tp < cg.called →
    cg.source = some w → w.From o p t

section Dated

variable {S : Store σ κ ο δ ε} {back : ο → ο}
    {s s' : State σ κ ο (Call κ ο ε) (Stage κ ο ε)} {i : ℕ}
  {c c' : Caller ο (Call κ ο ε) (Stage κ ο ε)}

theorem Caller.Dated.mono {now now' : ℕ} (h : c.Dated now) (hle : now ≤ now') :
    c.Dated now' where
  called := Nat.lt_of_lt_of_le h.called hle
  invoked := h.invoked
  stored := fun t ht => Nat.lt_of_lt_of_le (h.stored t ht) hle
  returned := fun t ht => ⟨(h.returned t ht).1, Nat.lt_of_lt_of_le (h.returned t ht).2 hle⟩
  onCall := h.onCall

theorem State.callAt_move (hc : s.callers[i]? = some c) (hcall : c'.call = c.call) (j : ℕ) :
    (s.move i c').callAt j = s.callAt j := by
  have hi := (List.getElem?_eq_some_iff.1 hc).1
  unfold State.callAt State.move
  by_cases hij : i = j
  · subst hij
    rw [List.getElem?_set_self hi, hc, Option.map_some, Option.map_some, hcall]
  · rw [List.getElem?_set_ne hij]

/-- A caller goes on: its call stays, what it now found was there, and what it now stored is the
last write under its key. -/
theorem Dated.move (h : Dated S back s) (hc : s.callers[i]? = some c) (hcall : c'.call = c.call)
    (hcalled : c'.called = c.called) (hdated : c'.Dated (s.clock + 1))
    (hreturned : ∀ t, c'.returned = some t → c.returned = some t ∨ t = s.clock)
    (hstored : ∀ t, c'.stored = some t → c.stored = some t ∨
      ∀ o, c.call = .put o → c.returned = none ∧ s.writes (S.keyOf o) = some ⟨o, i, t⟩)
    (hsource : ∀ w, c'.source = some w →
      (∀ o, c'.point = .returned (.ok (some o)) → o = back w.object) ∧
      (c.source = some w ∨ ∃ key init, c.call = .get key init ∧ s.writes key = some w)) :
    Dated S back (s.move i c') := by
  have hi := (List.getElem?_eq_some_iff.1 hc).1
  have hcallAt := State.callAt_move hc hcall
  have hmade {w : Write ο} (hw : s.Made w) : (s.move i c').Made w := by
    unfold State.Made
    rw [hcallAt]
    exact hw
  have hget {j : ℕ} {a : Caller ο (Call κ ο ε) (Stage κ ο ε)}
      (ha : (s.move i c').callers[j]? = some a) :
      (i = j ∧ a = c') ∨ s.callers[j]? = some a := by
    by_cases hij : i = j
    · subst hij
      exact Or.inl ⟨rfl, Option.some.inj (ha.symm.trans (List.getElem?_set_self hi))⟩
    · exact Or.inr ((List.getElem?_set_ne hij).symm.trans ha)
  refine ⟨fun j a ha => ?_, h.content, fun k w hw => hmade (h.made k w hw), fun p hp => ?_,
    fun j a w ha hw => ?_, fun p cp o t hp hput ht => ?_,
    fun p g cp cg o init t tp w hp hput ht htp hg hgetcall hlt hw => ?_⟩
  · rcases hget ha with ⟨rfl, rfl⟩ | ha
    · exact hdated
    · exact (h.callers j a ha).mono (Nat.le_succ _)
  · rw [hcallAt]
    exact h.pending p hp
  · rcases hget ha with ⟨rfl, rfl⟩ | ha
    · obtain ⟨hback, hold | ⟨key, init, -, hwrite⟩⟩ := hsource w hw
      · exact ⟨hmade (h.source i c w hc hold).1, hback⟩
      · exact ⟨hmade (h.made key w hwrite), hback⟩
    · exact ⟨hmade (h.source j a w ha hw).1, (h.source j a w ha hw).2⟩
  · rcases hget hp with ⟨rfl, rfl⟩ | hp
    · rw [hcall] at hput
      rcases hstored t ht with hold | hnew
      · exact h.last i c o t hc hput hold
      · exact ⟨_, (hnew o hput).2, Or.inl rfl⟩
    · exact h.last p cp o t hp hput ht
  · rcases hget hp with ⟨rfl, rfl⟩ | hp' <;> rcases hget hg with ⟨rfl, rfl⟩ | hg'
    · cases hput.symm.trans hgetcall
    · -- the put returns now, after the get began, or had returned before
      rcases hreturned tp htp with hold | rfl
      · rw [hcall] at hput
        rcases hstored t ht with hst | hnew
        · exact h.later i g c cg o init t tp w hc hput hst hold hg' hgetcall hlt hw
        · exact absurd (hold.symm.trans (hnew o hput).1) nofun
      · have := (h.callers g cg hg').called
        omega
    · rw [hcalled] at hlt
      rw [hcall] at hgetcall
      obtain ⟨-, hold | ⟨key, init', hcall', hwrite⟩⟩ := hsource w hw
      · exact h.later p i cp c o init t tp w hp' hput ht htp hc hgetcall hlt hold
      · obtain ⟨rfl, -⟩ := Call.get.inj (hgetcall.symm.trans hcall')
        obtain ⟨w', hlast, hfrom⟩ := h.last p cp o t hp' hput ht
        obtain rfl := Option.some.inj (hwrite.symm.trans hlast)
        exact hfrom
    · exact h.later p g cp cg o init t tp w hp' hput ht htp hg' hgetcall hlt hw

/-- A caller goes on without finding or storing anything. -/
theorem Dated.quiet (h : Dated S back s) (hc : s.callers[i]? = some c) (hcall : c'.call = c.call)
    (hcalled : c'.called = c.called) (hdated : c'.Dated (s.clock + 1))
    (hreturned : ∀ t, c'.returned = some t → c.returned = some t ∨ t = s.clock)
    (hstored : c'.stored = c.stored) (hnone : c'.source = none) : Dated S back (s.move i c') :=
  h.move hc hcall hcalled hdated hreturned (fun _ ht => Or.inl (hstored.symm.trans ht))
    fun _ hw => absurd (hnone.symm.trans hw) nofun

/-- A caller returns. -/
theorem Caller.Dated.returns {now : ℕ} (h : c.Dated now) (hcalled : c'.called = c.called)
    (hinvoked : c'.invoked = c.invoked) (hstored : ∀ t, c'.stored = some t → t ≤ now)
    (hreturned : c'.returned = some now) (honCall : c'.OnCall) : c'.Dated (now + 1) where
  called := by have := h.called; omega
  invoked := fun t ht => hcalled ▸ h.invoked t (hinvoked ▸ ht)
  stored := fun t ht => Nat.lt_succ_of_le (hstored t ht)
  returned := fun t ht => by
    obtain rfl := Option.some.inj (hreturned.symm.trans ht)
    have := h.called
    omega
  onCall := honCall

/-- What is stored was made by its caller. -/
theorem Dated.write [DecidableEq κ] (h : Dated S back s) (hlawful : S.Lawful back)
    {o : ο} {store : σ} (hput : S.put s.store o = .ok store)
    (hmade : s.Made ⟨o, i, s.clock⟩) :
    Dated S back (s.write S i o store) where
  callers := h.callers
  content := fun k w o' hw hl => by
    by_cases hk : k = S.keyOf o
    · subst hk
      obtain rfl := Option.some.inj ((State.writes_write_self S s i o store).symm.trans hw)
      exact hlawful.found _ _ _ _ hput hl
    · have hold : s.writes k = some w := (State.writes_write_of_ne S s i store hk).symm.trans hw
      exact h.content k w o' hold ((hlawful.other _ _ _ _ hput hk).symm.trans hl)
  made := fun k w hw => by
    by_cases hk : k = S.keyOf o
    · subst hk
      obtain rfl := Option.some.inj ((State.writes_write_self S s i o store).symm.trans hw)
      exact hmade
    · exact h.made k w ((State.writes_write_of_ne S s i store hk).symm.trans hw)
  pending := h.pending
  source := h.source
  last := fun p cp o' t hp hcall ht => by
    obtain ⟨w, hw, hfrom⟩ := h.last p cp o' t hp hcall ht
    by_cases hk : S.keyOf o' = S.keyOf o
    · refine ⟨⟨o, i, s.clock⟩, ?_, Or.inr ((h.callers p cp hp).stored t ht)⟩
      rw [hk]
      exact State.writes_write_self ..
    · exact ⟨w, (State.writes_write_of_ne S s i store hk).trans hw, hfrom⟩
  later := h.later

theorem State.callAt_append {callers : List (Caller ο γ ς)} {c : Caller ο γ ς}
    {call : γ} {j : ℕ} (h : callers[j]?.map Caller.call = some call) :
    (callers ++ [c])[j]?.map Caller.call = some call := by
  obtain ⟨a, ha, rfl⟩ := Option.map_eq_some_iff.1 h
  rw [List.getElem?_append_left (List.getElem?_eq_some_iff.1 ha).1, ha, Option.map_some]

/-- A call begins. -/
theorem Dated.call (h : Dated S back s) (call : Call κ ο ε) :
    Dated S back { s with
      callers := s.callers ++ [⟨call, .start call, 0, s.clock, none, none, none, none⟩]
      clock := s.clock + 1 } := by
  have hget {j : ℕ} {a : Caller ο (Call κ ο ε) (Stage κ ο ε)}
      (ha : (s.callers ++ [⟨call, .start call, 0, s.clock, none, none, none, none⟩])[j]? =
        some a) :
      a = ⟨call, .start call, 0, s.clock, none, none, none, none⟩ ∨
        s.callers[j]? = some a := by
    by_cases hj : j < s.callers.length
    · exact Or.inr ((List.getElem?_append_left hj).symm.trans ha)
    · rw [List.getElem?_append_right (Nat.not_lt.1 hj)] at ha
      exact Or.inl (List.mem_singleton.1 (List.mem_of_getElem? ha))
  have hmade {w : Write ο} (hw : s.Made w) : State.Made { s with
      callers := s.callers ++ [⟨call, .start call, 0, s.clock, none, none, none, none⟩]
      clock := s.clock + 1 } w :=
    hw.imp State.callAt_append fun ⟨key, hkey⟩ => ⟨key, State.callAt_append hkey⟩
  refine ⟨fun j a ha => ?_, h.content, fun k w hw => hmade (h.made k w hw), fun p hp => ?_,
    fun j a w ha hw => ?_, fun p cp o t hp hput ht => ?_,
    fun p g cp cg o init t tp w hp hput ht htp hg hgetcall hlt hw => ?_⟩
  · rcases hget ha with rfl | ha
    · refine ⟨Nat.lt_succ_self _, nofun, nofun, nofun, ?_⟩
      cases call with
      | get key init => exact ⟨rfl, rfl⟩
      | put o => exact ⟨rfl, rfl, rfl, rfl⟩
    · exact (h.callers j a ha).mono (Nat.le_succ _)
  · obtain ⟨key, hkey⟩ := h.pending p hp
    exact ⟨key, State.callAt_append hkey⟩
  · rcases hget ha with rfl | ha
    · cases hw
    · exact ⟨hmade (h.source j a w ha hw).1, (h.source j a w ha hw).2⟩
  · rcases hget hp with rfl | hp
    · cases ht
    · exact h.last p cp o t hp hput ht
  · rcases hget hp with rfl | hp'
    · cases ht
    · rcases hget hg with rfl | hg'
      · cases hw
      · exact h.later p g cp cg o init t tp w hp' hput ht htp hg' hgetcall hlt hw

theorem Dated.spawn (h : Dated S back s) {o : ο} {key : κ}
    (hcall : s.callAt i = some (.get key (some (.ok o)))) : Dated S back (s.spawn i o) :=
  { h with
    pending := fun p hp => by
      rcases List.mem_append.1 hp with hp | hp
      · exact h.pending p hp
      · obtain rfl := List.mem_singleton.1 hp
        exact ⟨key, hcall⟩ }

theorem Caller.OnCall.stored (h : c.OnCall) (t : ℕ) :
    ({ c with stored := some t } : Caller _ _ _).OnCall := by
  unfold Caller.OnCall at h ⊢
  cases hp : c.point with
  | returned r =>
    rw [hp] at h
    exact fun o ho => ⟨(h o ho).1, fun _ => nofun⟩
  | _ => rwa [hp] at h

/-- What a get had left to run is stored. -/
theorem Dated.mark (h : Dated S back s) (hc : s.callers[i]? = some c) {key : κ}
    {init : Option (Except ε ο)} (hget : c.call = .get key init) : Dated S back (s.mark i) := by
  have hdated := h.callers i c hc
  have hnext := hdated.mono (Nat.le_succ s.clock)
  rw [State.mark_eq_move hc]
  refine h.move hc rfl rfl ⟨hnext.called, hnext.invoked, fun t ht => ?_, hnext.returned,
    hdated.onCall.stored _⟩ (fun _ ht => Or.inl ht) (fun t ht => Or.inr fun o' ho' => ?_)
    fun w hw => ⟨(h.source i c w hc hw).2, Or.inl hw⟩
  · obtain rfl := Option.some.inj ht
    exact Nat.lt_succ_self _
  · cases hget.symm.trans ho'

variable [DecidableEq κ] {d : Design κ ο ε}

theorem Dated.run (h : Dated S back s) (hlawful : S.Lawful back)
    (hnot : ∀ s o e, S.put s o = .error e → d.notPut e ≠ .ok none)
    (hs : step S (d.machine δ) Stage.start s (.run i) = some s') : Dated S back s' := by
  obtain ⟨c, hc, hmoves⟩ := Design.step_run hs
  have hdated := h.callers i c hc
  have hnext := hdated.mono (Nat.le_succ s.clock)
  have hcallAt : s.callAt i = some c.call := by
    unfold State.callAt
    rw [hc, Option.map_some]
  have hnow {c' : Caller ο (Call κ ο ε) (Stage κ ο ε)}
      (hret : c'.returned = some s.clock) (t : ℕ)
      (ht : c'.returned = some t) : c.returned = some t ∨ t = s.clock :=
    Or.inr (Option.some.inj (ht.symm.trans hret))
  have hold (t : ℕ) (ht : c.stored = some t) : t ≤ s.clock := Nat.le_of_lt (hdated.stored t ht)
  have hcall := hdated.onCall
  unfold Caller.OnCall at hcall
  cases hmoves with
  | hit key init o hp hl =>
    have hget : c.call = .get key init := by
      rcases hp with hp | hp <;> (rw [hp] at hcall; exact hcall.1)
    refine h.move hc rfl rfl (hdated.returns rfl rfl hold rfl fun o' ho' => ?_) (hnow rfl)
      (fun t ht => Or.inl ht) fun w hw => ⟨fun o' ho' => ?_, Or.inr ⟨key, init, hget, hw⟩⟩
    · cases hget.symm.trans ho'
    · cases ho'
      exact h.content key w o hw hl
  | firstMiss key init e hp hl =>
    rw [hp] at hcall
    exact h.quiet hc rfl rfl ⟨hnext.called, hnext.invoked, hnext.stored,
      hnext.returned, hcall.1, rfl⟩ (fun _ ht => Or.inl ht) rfl rfl
  | missing key e hp hl =>
    have hget : c.call = .get key none := by
      rcases hp with hp | hp <;> (rw [hp] at hcall; exact hcall.1)
    refine h.quiet hc rfl rfl (hdated.returns rfl rfl hold rfl fun o' ho' => ?_) (hnow rfl) rfl rfl
    cases hget.symm.trans ho'
  | secondMiss key r e hp hl =>
    rw [hp] at hcall
    refine h.quiet hc rfl rfl
      ⟨hnext.called, fun t ht => ?_, hnext.stored, hnext.returned, hcall.1, rfl⟩
        (fun _ ht => Or.inl ht) rfl rfl
    obtain rfl := Option.some.inj ht
    exact Nat.le_of_lt hdated.called
  | initFails key e hp =>
    rw [hp] at hcall
    refine h.quiet hc rfl rfl (hdated.returns rfl rfl hold rfl fun o' ho' => ?_)
      (hnow rfl) rfl hcall.2
    cases hcall.1.symm.trans ho'
  | initDone key o hp =>
    rw [hp] at hcall
    exact h.quiet hc rfl rfl ⟨hnext.called, hnext.invoked, hnext.stored, hnext.returned,
      ⟨key, hcall.1⟩, hcall.2⟩ (fun _ ht => Or.inl ht) rfl hcall.2
  | spawn o hb hp =>
    rw [hp] at hcall
    obtain ⟨⟨key, hget⟩, hnone⟩ := hcall
    have hspawn := h.spawn (hcallAt.trans (congrArg some hget))
    refine hspawn.quiet hc rfl rfl (hdated.returns rfl rfl hold rfl fun o' ho' => ?_) (hnow rfl) rfl
      hnone
    cases hget.symm.trans ho'
  | store o store hb hp hput =>
    rw [hp] at hcall
    obtain ⟨⟨key, hget⟩, hnone⟩ := hcall
    have hwrite := h.write hlawful hput (Or.inr ⟨key, hcallAt.trans (congrArg some hget)⟩)
    refine hwrite.move hc rfl rfl (hdated.returns rfl rfl (fun t ht => ?_) rfl fun o' ho' => ?_)
      (hnow rfl) (fun t _ => Or.inr fun o' ho' => ?_) fun _ hw => absurd (hnone.symm.trans hw) nofun
    · exact Nat.le_of_eq (Option.some.inj ht).symm
    · cases hget.symm.trans ho'
    · cases hget.symm.trans ho'
  | storeFails o e hb hp hput =>
    rw [hp] at hcall
    obtain ⟨⟨key, hget⟩, hnone⟩ := hcall
    refine h.quiet hc rfl rfl (hdated.returns rfl rfl hold rfl fun o' ho' => ?_)
      (hnow rfl) rfl hnone
    cases hget.symm.trans ho'
  | put o store hp hput =>
    rw [hp] at hcall
    obtain ⟨hcall, hinvoked, hreturned, hnone⟩ := hcall
    have hwrite := h.write hlawful hput (Or.inl (hcallAt.trans (congrArg some hcall)))
    refine hwrite.move hc rfl rfl (hdated.returns rfl rfl (fun t ht => ?_) rfl fun o' ho' => ?_)
      (hnow rfl) (fun t ht => Or.inr fun o' ho' => ⟨hreturned, ?_⟩)
      fun _ hw => absurd (hnone.symm.trans hw) nofun
    · exact Nat.le_of_eq (Option.some.inj ht).symm
    · exact ⟨hinvoked, fun _ => nofun⟩
    · obtain rfl := Call.put.inj (hcall.symm.trans ho')
      obtain rfl := Option.some.inj ht
      exact State.writes_write_self ..
  | putFails o e hp hput =>
    rw [hp] at hcall
    obtain ⟨hcall, hinvoked, hreturned, hnone⟩ := hcall
    exact h.quiet hc rfl rfl (hdated.returns rfl rfl hold rfl fun o' ho' =>
      ⟨hinvoked, fun hr => absurd hr (hnot _ _ _ hput)⟩) (hnow rfl) rfl hnone

/-- A pending store runs. -/
theorem Dated.put (h : Dated S back s) (hlawful : S.Lawful back) {n : ℕ}
    (hs : step S (d.machine δ) Stage.start s (.put n) = some s') : Dated S back s' := by
  obtain ⟨p, hp, hcases⟩ := Design.step_put hs
  obtain ⟨key, hcallAt⟩ := h.pending p (List.mem_of_getElem? hp)
  obtain ⟨c, hc, hget⟩ := Option.map_eq_some_iff.1 hcallAt
  have herase : Dated S back { s with pending := s.pending.eraseIdx n } :=
    { h with pending := fun q hq => h.pending q (List.mem_of_mem_eraseIdx hq) }
  rcases hcases with ⟨store, hput, rfl⟩ | ⟨e, -, rfl⟩
  · exact (herase.write hlawful hput (Or.inr ⟨key, hcallAt⟩)).mark hc hget
  · exact { herase with callers := fun j a ha => (h.callers j a ha).mono (Nat.le_succ _) }

theorem Dated.step (h : Dated S back s) (hlawful : S.Lawful back)
    (hnot : ∀ s o e, S.put s o = .error e → d.notPut e ≠ .ok none) {a : Act (Call κ ο ε)}
    (hs : CacheAside.step S (d.machine δ) Stage.start s a = some s') : Dated S back s' := by
  cases a with
  | call call =>
    obtain rfl := Design.step_call hs
    rw [Design.begin_start]
    exact h.call call
  | run i => exact h.run hlawful hnot hs
  | put n => exact h.put hlawful hs

theorem dated_of_reachable (hlawful : S.Lawful back)
    (hnot : ∀ s o e, S.put s o = .error e → d.notPut e ≠ .ok none) {store : σ}
    (h : (system S (d.machine δ) Stage.start store).Reachable s) : Dated S back s := by
  have hnone {i : ℕ} {c : Caller ο (Call κ ο ε) (Stage κ ο ε)} {P : Prop}
      (hc : (system S (d.machine δ) Stage.start store).init.callers[i]? = some c) : P :=
    absurd (List.mem_of_getElem? hc) List.not_mem_nil
  refine h.invariant ⟨fun _ _ hc => hnone hc, nofun, nofun, fun _ h => absurd h List.not_mem_nil,
    fun _ _ _ hc => hnone hc, fun _ _ _ _ hc => hnone hc, fun _ _ _ _ _ _ _ _ _ hc => hnone hc⟩ ?_
  intro s a s' hI hs
  exact hI.step hlawful hnot hs

end Dated

/-! ## Gets after a put -/

/-- What caller `g` returns comes from caller `j`: it found a write of `j`'s, or it found nothing
and is `j`. -/
def Caller.ComesFrom (c : Caller ο γ ς) (g j : ℕ) : Prop :=
  (∃ w, c.source = some w ∧ w.caller = j) ∨ (c.source = none ∧ j = g)

/-- Caller `p` has put an object; caller `g`, whose get of the same key began later, has returned an
object that came from the initializer of caller `j`, invoked before the put was called. -/
def State.Outdated (S : Store σ κ ο δ ε) (m : Machine κ ο δ ε ς)
    (s : State σ κ ο (Call κ ο ε) ς) (p g j : ℕ) : Prop :=
  ∃ cp cg cj o init obj tp tj, s.callers[p]? = some cp ∧ s.callers[g]? = some cg ∧
    s.callers[j]? = some cj ∧
    cp.call = .put o ∧ cp.result m = some (.ok none) ∧ cp.returned = some tp ∧
    cg.call = .get (S.keyOf o) init ∧ tp < cg.called ∧ cg.result m = some (.ok (some obj)) ∧
    cj.invoked = some tj ∧ tj < cp.called ∧ cg.ComesFrom g j

/-- Caller `g` has returned what the initializer of caller `j` gave, and that was stored after what
caller `p` has put. -/
def State.StoredAfter (back : ο → ο) (m : Machine κ ο δ ε ς)
    (s : State σ κ ο (Call κ ο ε) ς) (p g j : ℕ) : Prop :=
  ∃ cp cg cj key w t, s.callers[p]? = some cp ∧ s.callers[g]? = some cg ∧
    s.callers[j]? = some cj ∧
    cj.call = .get key (some (.ok w.object)) ∧ cg.result m = some (.ok (some (back w.object))) ∧
    cg.source = some w ∧ w.caller = j ∧ cp.stored = some t ∧ t < w.time

section Outdated

variable {S : Store σ κ ο δ ε} {back : ο → ο}
    {s : State σ κ ο (Call κ ο ε) (Stage κ ο ε)}
  {c : Caller ο (Call κ ο ε) (Stage κ ο ε)} {d : Design κ ο ε}

/-- A put invokes no initializer. -/
theorem Caller.OnCall.not_invoked (h : c.OnCall) {o : ο} (hput : c.call = .put o) :
    c.invoked = none := by
  unfold Caller.OnCall at h
  cases hp : c.point with
  | put o' => rw [hp] at h; exact h.2.1
  | returned r => rw [hp] at h; exact (h o hput).1
  | storing o' => rw [hp] at h; obtain ⟨⟨key, hget⟩, -⟩ := h; cases hput.symm.trans hget
  | _ => rw [hp] at h; cases hput.symm.trans h.1

/-- **Later writes.** Only what was stored after a put is found in its place. -/
theorem Dated.storedAfter (h : Dated S back s) {p g j : ℕ}
    (ho : s.Outdated S (d.machine δ) p g j) :
    s.StoredAfter back (d.machine δ) p g j := by
  obtain ⟨cp, cg, cj, o, init, obj, tp, tj, hp, hg, hj, hput, hresult, hreturned, hget, hlt, hobj,
    hinvoked, hbefore, hfrom⟩ := ho
  have hdp := h.callers p cp hp
  have hnever := hdp.onCall.not_invoked hput
  have hcallp := hdp.onCall
  unfold Caller.OnCall at hcallp
  rw [Design.point_of_result hresult] at hcallp
  rcases hfrom with ⟨w, hw, rfl⟩ | ⟨-, rfl⟩
  · obtain ⟨t, ht⟩ := Option.ne_none_iff_exists'.1 ((hcallp o hput).2 rfl)
    obtain ⟨hmade, hback⟩ := h.source g cg w hg hw
    have hother : p ≠ w.caller := by
      rintro rfl
      obtain rfl := Option.some.inj (hp.symm.trans hj)
      rw [hnever] at hinvoked
      cases hinvoked
    have hafter : t < w.time := by
      rcases h.later p g cp cg o init t tp w hp hput ht hreturned hg hget hlt hw with rfl | hafter
      · exact absurd rfl hother
      · exact hafter
    have hcj : s.callAt w.caller = some cj.call := by
      unfold State.callAt
      rw [hj, Option.map_some]
    rcases hmade with hmade | ⟨key, hmade⟩
    · have hnone := (h.callers w.caller cj hj).onCall.not_invoked
        (Option.some.inj (hcj.symm.trans hmade))
      cases hinvoked.symm.trans hnone
    · rw [hcj] at hmade
      refine ⟨cp, cg, cj, key, w, t, hp, hg, hj, Option.some.inj hmade, ?_, hw, rfl, ht, hafter⟩
      rw [hobj, hback obj (Design.point_of_result hobj)]
  · obtain rfl := Option.some.inj (hg.symm.trans hj)
    have hown := (h.callers _ _ hg).invoked tj hinvoked
    have hcalled := (hdp.returned tp hreturned).1
    omega

/-! ## Of programs -/

variable {τ : Type} {m : Machine κ ο δ ε (Stage κ ο ε)} {m' : Machine κ ο δ ε τ}
    {f : Stage κ ο ε → τ}

theorem State.outdated_of_map (h : Maps m m' f) {p g j : ℕ} (ho : (s.map f).Outdated S m' p g j) :
    s.Outdated S m p g j := by
  obtain ⟨cp, cg, cj, o, init, obj, tp, tj, hp, hg, hj, hput, hresult, hreturned, hget, hlt, hobj,
    hinvoked, hbefore, hfrom⟩ := ho
  have hcallers (i : ℕ) : (s.map f).callers[i]? = s.callers[i]?.map (Caller.map f) :=
    List.getElem?_map ..
  rw [hcallers] at hp hg hj
  obtain ⟨cp, hp', rfl⟩ := Option.map_eq_some_iff.1 hp
  obtain ⟨cg, hg', rfl⟩ := Option.map_eq_some_iff.1 hg
  obtain ⟨cj, hj', rfl⟩ := Option.map_eq_some_iff.1 hj
  rw [h.result] at hresult hobj
  exact ⟨cp, cg, cj, o, init, obj, tp, tj, hp', hg', hj', hput, hresult, hreturned,
    hget, hlt, hobj,
    hinvoked, hbefore, hfrom⟩

theorem State.storedAfter_map (h : Maps m m' f) {p g j : ℕ} (hs : s.StoredAfter back m p g j) :
    (s.map f).StoredAfter back m' p g j := by
  obtain ⟨cp, cg, cj, key, w, t, hp, hg, hj, hcall, hresult, hrest⟩ := hs
  have hcallers {i : ℕ} {c : Caller ο (Call κ ο ε) (Stage κ ο ε)}
      (hc : s.callers[i]? = some c) :
      (s.map f).callers[i]? = some (c.map f) := by
    rw [← Option.map_some, ← hc]
    exact List.getElem?_map ..
  exact ⟨cp.map f, cg.map f, cj.map f, key, w, t, hcallers hp, hcallers hg, hcallers hj, hcall,
    (h.result cg).trans hresult, hrest⟩

variable [DecidableEq κ]

/-- The same of the programs of the design. -/
theorem storedAfter_of_outdated (hlawful : S.Lawful back)
    (hnot : ∀ s o e, S.put s o = .error e → d.notPut e ≠ .ok none) {store : σ}
    {program : Call κ ο ε → Prog (Op κ ο) (Op.Ans δ ε) (Result ο ε)}
    (hprogram : ∀ call, program call = d.program δ (.start call))
    {t : State σ κ ο (Call κ ο ε) (Prog (Op κ ο) (Op.Ans δ ε) (Result ο ε))}
    (h : (system S Prog.next program store).Reachable t) {p g j : ℕ}
    (ho : t.Outdated S Prog.next p g j) : t.StoredAfter back Prog.next p g j := by
  obtain rfl : program = d.program δ ∘ Stage.start := funext hprogram
  obtain ⟨s, hs, rfl⟩ := reachable_program d.maps_program h
  exact State.storedAfter_map d.maps_program
    ((dated_of_reachable hlawful hnot hs).storedAfter (State.outdated_of_map d.maps_program ho))

end Outdated

end CacheAside
