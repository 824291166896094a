import AutomaticCache.Main.Forward

/-!
# What the pool reports

A worker that has left a handler call reports it, with its own number and what the call returned,
and the report is with that worker, on `done`, with a goroutine that has received it, or collected.
No report is lost and none is made twice (`collected_once`): when the pool is at rest, the entries
that `main` writes to the file of statistics are those of the accepted connections, one for each.
-/

namespace AutomaticCache

namespace Main

open Runs Proxy

variable {ζ β ρ σ : Type} {p : Pool ζ β ρ σ} {s s' : State ζ σ}

/-- A call that has returned has returned that, whatever its goroutines still do. -/
def Handler.Stable (H : Handler ζ β ρ) : Prop :=
  ∀ z b z' r, H.returned z = some r → H.step z b = some z' → H.returned z' = some r

theorem forwardConnection_stable (r : ρ) : (forwardConnection r).Stable := by
  intro z a z' r' hr hs
  have hmain : z.main = .returned := by
    by_contra hne
    cases (if_neg hne : (forwardConnection r).returned z = none).symm.trans hr
  have hmain' : z'.main = .returned := by
    cases Forward.step_of_step hs with
    | sendFails | sent => exact hmain
    | dialFails h | dial h | copyFails h | copied h | ready h => cases hmain.symm.trans h
  show (if z'.main = .returned then some r else none) = some r'
  rw [if_pos hmain', ← hr]
  exact (if_pos hmain).symm

/-! ## Where a report is -/

/-- The call that the worker is in. -/
def Worker.call : Worker σ → List ℕ
  | .handling k => [k]
  | .idle | .sending _ => []

/-- The report that the worker has still to send. -/
def Worker.report : Worker σ → List σ
  | .sending stats => [stats]
  | .idle | .handling _ => []

def Waiter.report : Waiter σ → List σ
  | .recording stats => [stats]
  | .receiving | .ended => []

/-- The reports, from where they end to where they begin. -/
def State.reports (s : State ζ σ) : List σ :=
  s.counter.collectedStats ++ s.waiters.flatMap Waiter.report ++ s.done ++
    s.workers.flatMap Worker.report

/-- What a call is reported as, once it has returned. -/
def Call.outcome (p : Pool ζ β ρ σ) (c : Call ζ) : Option σ :=
  (p.handler.returned c.point).map (p.mode.report c.worker)

/-- The calls in `ks` are reported, and the others have a worker in them. -/
structure State.ReportsOf (p : Pool ζ β ρ σ) (s : State ζ σ) (ks : List ℕ) : Prop where
  split : (ks ++ s.workers.flatMap Worker.call).Perm (List.range s.calls.length)
  perm : (ks.map fun k => s.calls[k]?.bind (Call.outcome p)).Perm (s.reports.map some)

structure Reported (p : Pool ζ β ρ σ) (s : State ζ σ) : Prop where
  handling : ∀ w k : ℕ, s.workers[w]? = some (Worker.handling k) →
    ∃ c : Call ζ, s.calls[k]? = some c ∧ c.worker = w
  once : ∃ ks, s.ReportsOf p ks

theorem reported_init (p : Pool ζ β ρ σ) : Reported p (system p).init where
  handling := fun w k hw => by cases List.eq_of_mem_replicate (List.mem_of_getElem? hw)
  once := by
    have hnone {γ : Type} (f : Worker σ → List γ) (hf : f .idle = []) :
        (List.replicate p.workers Worker.idle).flatMap f = [] :=
      List.flatMap_eq_nil_iff.2 fun x hx => by rw [List.eq_of_mem_replicate hx, hf]
    refine ⟨[], ?_, ?_⟩
    · show ([] ++ (List.replicate p.workers Worker.idle).flatMap Worker.call).Perm []
      rw [hnone _ rfl]
      exact .refl _
    · show List.Perm []
        (([] ++ [] ++ [] ++ (List.replicate p.workers Worker.idle).flatMap _).map some)
      rw [hnone _ rfl]
      exact .refl _

/-! ## What a step does to the reports -/

theorem flatMap_set_perm {α γ : Type} (f : α → List γ) {l : List α} {i : ℕ} {x : α}
    (h : l[i]? = some x) (y : α) : (f x ++ (l.set i y).flatMap f).Perm (f y ++ l.flatMap f) := by
  obtain ⟨hi, rfl⟩ := List.getElem?_eq_some_iff.1 h
  have hset : ((l.set i y).flatMap f).Perm (f y ++ (l.eraseIdx i).flatMap f) :=
    (List.set_perm_cons_eraseIdx hi y).flatMap_right f
  have hold : (f l[i] ++ (l.eraseIdx i).flatMap f).Perm (l.flatMap f) :=
    (List.getElem_cons_eraseIdx_perm hi).flatMap_right f
  exact (hset.append_left _).trans ((List.perm_append_comm_assoc ..).trans (hold.append_left _))

/-- A worker gives its report away. -/
theorem sent_perm {l : List (Worker σ)} {w : ℕ} {stats : σ}
    (hw : l[w]? = some (.sending stats)) :
    (stats :: (l.set w .idle).flatMap Worker.report).Perm (l.flatMap Worker.report) :=
  flatMap_set_perm Worker.report hw .idle

/-- A goroutine that waits gets one. -/
theorem received_perm {l : List (Waiter σ)} {v : ℕ} (hv : l[v]? = some .receiving) (stats : σ) :
    ((l.set v (.recording stats)).flatMap Waiter.report).Perm (stats :: l.flatMap Waiter.report) :=
  flatMap_set_perm Waiter.report hv (.recording stats)

theorem State.ReportsOf.lt {ks : List ℕ} (h : s.ReportsOf p ks) {k : ℕ} (hk : k ∈ ks) :
    k < s.calls.length :=
  List.mem_range.1 (h.split.subset (List.mem_append_left _ hk))

/-- What is reported has returned. -/
theorem State.ReportsOf.outcome {ks : List ℕ} (h : s.ReportsOf p ks) {k : ℕ} (hk : k ∈ ks) :
    ∃ c r, s.calls[k]? = some c ∧ p.handler.returned c.point = some r := by
  obtain ⟨stats, -, hstats⟩ := List.mem_map.1 (h.perm.subset (List.mem_map_of_mem hk))
  obtain ⟨c, hc, hreturned⟩ := Option.bind_eq_some_iff.1 hstats.symm
  obtain ⟨r, hr, -⟩ := Option.map_eq_some_iff.1 hreturned
  exact ⟨c, r, hc, hr⟩

/-- A report goes from one place to the next. -/
theorem Reported.of_calls (h : Reported p s)
    (hhandling : ∀ w k : ℕ, s'.workers[w]? = some (Worker.handling k) →
      s.workers[w]? = some (Worker.handling k))
    (hcall : (s'.workers.flatMap Worker.call).Perm (s.workers.flatMap Worker.call))
    (hcalls : s'.calls = s.calls) (hreports : s'.reports.Perm s.reports) : Reported p s' := by
  obtain ⟨ks, hks⟩ := h.once
  refine ⟨fun w k hw => ?_, ks, ?_, ?_⟩
  · rw [hcalls]
    exact h.handling w k (hhandling w k hw)
  · rw [hcalls]
    exact (hcall.append_left _).trans hks.split
  · rw [hcalls]
    exact hks.perm.trans (hreports.symm.map some)

/-- What is not in a call now was not given one. -/
theorem handling_of_set {l : List (Worker σ)} {w w' k : ℕ} {y : Worker σ} (hy : y.call = [])
    (h : (l.set w y)[w']? = some (.handling k)) : l[w']? = some (.handling k) := by
  by_cases hne : w = w'
  · subst hne
    have hlen : w < (l.set w y).length := (List.getElem?_eq_some_iff.1 h).1
    rw [List.getElem?_set_self (List.length_set.symm ▸ hlen)] at h
    cases Option.some.inj h
    cases hy
  · rwa [List.getElem?_set_ne hne] at h

theorem reported_begin (h : Reported p s) {w : ℕ} (hw : s.workers[w]? = some .idle)
    (task : ProxyTask) :
    Reported p (s.begin p w task) := by
  obtain ⟨ks, hks⟩ := h.once
  have hlen := (List.getElem?_eq_some_iff.1 hw).1
  refine ⟨fun w' k hk => ?_, ks, ?_, ?_⟩
  · have hk : (s.workers.set w (.handling s.calls.length))[w']? = some (.handling k) := hk
    show ∃ c : Call ζ, (s.calls ++ [_])[k]? = some c ∧ c.worker = w'
    by_cases hne : w = w'
    · subst hne
      rw [List.getElem?_set_self hlen] at hk
      obtain rfl := Worker.handling.inj (Option.some.inj hk)
      exact ⟨_, List.getElem?_concat_length, rfl⟩
    · rw [List.getElem?_set_ne hne] at hk
      obtain ⟨c, hc, hworker⟩ := h.handling w' k hk
      exact ⟨c, (List.getElem?_append_left (List.getElem?_eq_some_iff.1 hc).1).trans hc,
        hworker⟩
  · show (ks ++ (s.workers.set w (.handling s.calls.length)).flatMap Worker.call).Perm
      (List.range (s.calls ++ [_]).length)
    rw [List.length_append, List.length_singleton, List.range_succ]
    have hset : ((s.workers.set w (.handling s.calls.length)).flatMap Worker.call).Perm
      ([s.calls.length] ++ s.workers.flatMap Worker.call) := flatMap_set_perm Worker.call hw _
    exact (hset.append_left ks).trans ((List.perm_append_comm_assoc ..).trans
      ((hks.split.append_left _).trans List.perm_append_comm))
  · have hreports : (s.begin p w task).reports.Perm s.reports :=
      (flatMap_set_perm Worker.report hw (.handling s.calls.length)).append_left _
    have hcalls :
        (ks.map fun k => (s.calls ++ [⟨w, task, p.handler.start task⟩])[k]?.bind
          (Call.outcome p)) =
        ks.map fun k => s.calls[k]?.bind (Call.outcome p) :=
      List.map_congr_left fun k hk => by rw [List.getElem?_append_left (hks.lt hk)]
    show List.Perm (ks.map fun k => (s.calls ++ [_])[k]?.bind _) _
    rw [hcalls]
    exact hks.perm.trans (hreports.symm.map some)

theorem reported_call (h : Reported p s) (hstable : p.handler.Stable) {k : ℕ} {b : β}
    {c : Call ζ} {z : ζ} (hc : s.calls[k]? = some c) (hz : p.handler.step c.point b = some z) :
    Reported p { s with calls := s.calls.set k { c with point := z } } := by
  obtain ⟨ks, hks⟩ := h.once
  have hk := (List.getElem?_eq_some_iff.1 hc).1
  refine ⟨fun w k' hw => ?_, ks, ?_, ?_⟩
  · obtain ⟨c', hc', hworker⟩ := h.handling w k' hw
    show ∃ c' : Call ζ, (s.calls.set k _)[k']? = some c' ∧ c'.worker = w
    by_cases hne : k = k'
    · subst hne
      obtain rfl := Option.some.inj (hc.symm.trans hc')
      exact ⟨_, List.getElem?_set_self hk, hworker⟩
    · exact ⟨c', (List.getElem?_set_ne hne).trans hc', hworker⟩
  · show (ks ++ s.workers.flatMap Worker.call).Perm (List.range (s.calls.set k _).length)
    rw [List.length_set]
    exact hks.split
  · have hcalls :
      (ks.map fun k' => (s.calls.set k { c with point := z })[k']?.bind (Call.outcome p)) =
        ks.map fun k => s.calls[k]?.bind (Call.outcome p) := by
      refine List.map_congr_left fun k' hk' => ?_
      by_cases hne : k = k'
      · subst hne
        -- the call is reported, so it has returned
        obtain ⟨c', r, hc', hr⟩ := hks.outcome hk'
        obtain rfl := Option.some.inj (hc.symm.trans hc')
        rw [List.getElem?_set_self hk, hc, Option.bind_some, Option.bind_some]
        simp only [Call.outcome, hr, hstable _ _ _ _ hr hz]
      · rw [List.getElem?_set_ne hne]
    show List.Perm (ks.map fun k' => (s.calls.set k _)[k']?.bind _) _
    rw [hcalls]
    exact hks.perm

theorem reported_returns (h : Reported p s) {w k : ℕ} {r : ρ}
    (hw : s.workers[w]? = some (.handling k)) {c : Call ζ} (hc : s.calls[k]? = some c)
    (hr : p.handler.returned c.point = some r) :
    Reported p { s with workers := s.workers.set w (.sending (p.mode.report w r)) } := by
  obtain ⟨ks, hks⟩ := h.once
  obtain ⟨c', hc', hworker⟩ := h.handling w k hw
  obtain rfl := Option.some.inj (hc.symm.trans hc')
  refine ⟨fun w' k' hw' => h.handling w' k' (handling_of_set rfl hw'), k :: ks, ?_, ?_⟩
  · have hset : ([k] ++ (s.workers.set w (.sending (p.mode.report w r))).flatMap Worker.call).Perm
      (s.workers.flatMap Worker.call) := flatMap_set_perm Worker.call hw _
    exact (List.perm_append_comm_assoc [k] ks _).trans ((hset.append_left ks).trans hks.split)
  · have hset : ((s.workers.set w (.sending (p.mode.report w r))).flatMap Worker.report).Perm
      (p.mode.report w r :: s.workers.flatMap Worker.report) := flatMap_set_perm Worker.report hw _
    have hreports : (p.mode.report w r :: s.reports).Perm
        ({ s with workers := s.workers.set w (.sending (p.mode.report w r)) } :
          State ζ σ).reports :=
      List.perm_middle.symm.trans (hset.symm.append_left _)
    have houtcome : s.calls[k]?.bind (Call.outcome p) = some (p.mode.report w r) := by
      rw [hc, Option.bind_some, Call.outcome, hr, hworker]
      rfl
    show List.Perm (s.calls[k]?.bind (Call.outcome p) :: _) _
    rw [houtcome]
    exact (hks.perm.cons _).trans (hreports.map some)

/-- **Step.** A step moves a report on, or makes one for a call that its worker leaves. -/
theorem Reported.step {a : Act β} (h : Reported p s) (hstable : p.handler.Stable)
    (hcollects : p.mode.collects = true) (hs : Main.step p s a = some s') : Reported p s' := by
  classical
  cases step_of_step hs with
  | accept | acceptFails | count | enqueue =>
    exact h.of_calls (fun _ _ hw => hw) (.refl _) rfl (.refl _)
  | spawn =>
    refine h.of_calls (fun _ _ hw => hw) (.refl _) rfl ?_
    simp only [State.reports, List.flatMap_append, List.flatMap_cons, Waiter.report,
      List.flatMap_nil,
      List.append_nil]
    exact .refl _
  | handOff w task hl hw =>
    exact reported_begin (s := { s with loop := .spawn })
      (h.of_calls (fun _ _ hw => hw) (.refl _) rfl (.refl _)) hw task
  | take w task jobs hw =>
    exact reported_begin (s := { s with jobQueue := jobs })
      (h.of_calls (fun _ _ hw => hw) (.refl _) rfl (.refl _)) hw task
  | call k b c z hc hz => exact reported_call h hstable hc hz
  | returns w k r hw c hc hr => exact reported_returns h hw hc hr
  | send w stats hw =>
    refine h.of_calls (fun _ _ hk => handling_of_set rfl hk)
      (flatMap_set_perm Worker.call hw .idle) rfl ?_
    rw [List.perm_iff_count]
    intro x
    have hcount := (sent_perm hw).count_eq x
    simp only [State.reports, List.count_append, List.count_cons, List.count_nil] at hcount ⊢
    omega
  | sendTo w v stats hw hv hd =>
    refine h.of_calls (fun _ _ hk => handling_of_set rfl hk)
      (flatMap_set_perm Worker.call hw .idle) rfl ?_
    rw [List.perm_iff_count]
    intro x
    have hcount := (sent_perm hw).count_eq x
    have hcount' := (received_perm hv stats).count_eq x
    simp only [State.reports, List.count_append, List.count_cons] at hcount hcount' ⊢
    omega
  | receive v stats done hv hd =>
    refine h.of_calls (fun _ _ hw => hw) (.refl _) rfl ?_
    rw [List.perm_iff_count]
    intro x
    have hcount := (received_perm hv stats).count_eq x
    simp only [State.reports, hd, List.count_append, List.count_cons] at hcount ⊢
    omega
  | record v stats hv =>
    have hrecorded : (stats :: (s.waiters.set v .ended).flatMap Waiter.report).Perm
        (s.waiters.flatMap Waiter.report) := flatMap_set_perm Waiter.report hv .ended
    refine h.of_calls (fun _ _ hw => hw) (.refl _) rfl ?_
    rw [List.perm_iff_count]
    intro x
    have hcount := hrecorded.count_eq x
    simp only [State.reports, hcollects, if_true, List.count_append,
      List.count_cons, List.count_nil]
      at hcount ⊢
    omega

/-! ## The collected entries -/

/-- Where nothing is left over, the reports are the collected entries, and each call has one. -/
theorem Reported.collected (h : Reported p s) (hrest : s.AtRest) :
    (s.calls.map (Call.outcome p)).Perm (s.counter.collectedStats.map some) := by
  obtain ⟨ks, hks⟩ := h.once
  have hcall : s.workers.flatMap Worker.call = [] :=
    List.flatMap_eq_nil_iff.2 fun x hx => by rw [hrest.workers x hx]; rfl
  have hreport : s.workers.flatMap Worker.report = [] :=
    List.flatMap_eq_nil_iff.2 fun x hx => by rw [hrest.workers x hx]; rfl
  have hrecording : s.waiters.flatMap Waiter.report = [] :=
    List.flatMap_eq_nil_iff.2 fun x hx => by rw [hrest.waiters x hx]; rfl
  have hsplit := hks.split
  have hreports := hks.perm
  rw [hcall, List.append_nil] at hsplit
  rw [State.reports, hreport, hrecording, hrest.done, List.append_nil, List.append_nil,
    List.append_nil]
    at hreports
  have hall : (List.range s.calls.length).map (fun k => s.calls[k]?.bind (Call.outcome p)) =
      s.calls.map (Call.outcome p) := by
    refine List.ext_getElem (by rw [List.length_map, List.length_map, List.length_range])
      fun k hk _ => ?_
    rw [List.length_map, List.length_range] at hk
    rw [List.getElem_map, List.getElem_map, List.getElem_range, List.getElem?_eq_getElem hk,
      Option.bind_some]
  rw [← hall]
  exact (hsplit.map _).symm.trans hreports

/-- **Reports.** Where the entries are collected, each call that has been left is reported once, as
what it returned with its worker's number, and the others have a worker in them. When nothing is
left over, the collected entries are what the calls returned, one for each accepted connection. -/
theorem collected_once (p : Pool ζ β ρ σ) (hcollects : p.mode.collects = true)
    (hstable : p.handler.Stable) (s : State ζ σ) (h : (system p).Reachable s) :
    (∃ ks, s.ReportsOf p ks) ∧
    (s.AtRest → (s.calls.map (Call.outcome p)).Perm (s.counter.collectedStats.map some) ∧
      s.counter.collectedStats.length = s.accepted) := by
  have hreported : Reported p s :=
    h.invariant (reported_init p) fun _ _ _ hI hs => hI.step hstable hcollects hs
  refine ⟨hreported.once, fun hrest => ?_⟩
  have hcollected := hreported.collected hrest
  refine ⟨hcollected, ?_⟩
  calc s.counter.collectedStats.length
      = (s.counter.collectedStats.map some).length := by rw [List.length_map]
    _ = (s.calls.map (Call.outcome p)).length := hcollected.length_eq.symm
    _ = (s.calls.map fun c => c.task.conn).length := by rw [List.length_map, List.length_map]
    _ = (List.range s.accepted).length := hrest.handled.length_eq
    _ = s.accepted := List.length_range

/-- The pool in bypass mode with `TIMED`, of one worker. -/
def oneForwarder : Pool Forward ForwardAct ProxyStatsEntry ProxyStatsEntry :=
  bypass 1 1 1 timedProxyWorker { ProxyStatsEntry.zero with forwarded := true }

/-- One connection, whose entry is collected, and nothing is left over. -/
theorem collected_once_forwarded :
    ∃ s, (system oneForwarder).run (system oneForwarder).init (oneConnection false ++
        [.call 0 .ready, .returns 0, .send 0, .receive 0, .record 0]) = some s ∧
      s.AtRest ∧ s.counter.collectedStats.length = 1 ∧
      (s.calls.map (Call.outcome oneForwarder)).Perm (s.counter.collectedStats.map some) := by
  have hrest :
      (State.mk .accept 1 [] [.idle] [⟨0, ⟨0, 1⟩, ⟨.returned, .ended⟩⟩] [] [.ended]
        ⟨0, [{ ProxyStatsEntry.zero with forwarded := true }]⟩ 1 1 1 :
        State Forward ProxyStatsEntry).AtRest :=
    ⟨rfl, rfl, rfl, fun w hw => List.mem_singleton.1 hw,
      fun v hv => List.mem_singleton.1 hv, .refl _⟩
  refine ⟨_, rfl, hrest, rfl, ?_⟩
  exact ((collected_once oneForwarder rfl (forwardConnection_stable _) _ ⟨oneConnection false ++
    [.call 0 .ready, .returns 0, .send 0, .receive 0, .record 0], rfl⟩).2 hrest).1

end Main

end AutomaticCache
