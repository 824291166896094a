import AutomaticCache.Main.Accounting

/-!
# Bypass mode

`forwardConnection` copies both ways at once: itself from the target to the client, and a goroutine
of its own from the client to the target. The goroutine signals on `ready` only when its copy ended
without an error, and `forwardConnection` waits for that only when its own did. So one of them is
left waiting for the other exactly when one copy ends with an error and the other one without.
-/

namespace AutomaticCache

namespace Main

open Runs Proxy

/-- Where `forwardConnection` stands, with its destination at hand. -/
inductive Forwarding
  | dial
  | copying
  /-- At `<-ready`. -/
  | awaiting
  /-- Both connections are closed. -/
  | returned
  deriving DecidableEq

/-- Where its goroutine stands. -/
inductive Copier
  | absent
  | copying
  /-- At `ready <- struct{}{}`. -/
  | signalling
  | ended
  deriving DecidableEq

structure Forward where
  main : Forwarding
  copier : Copier
  deriving DecidableEq

/-- How a dial or a copy ends is the environment's choice. -/
inductive ForwardAct
  | dial (fails : Bool)
  /-- `io.Copy(conn, targetConn)` ends. -/
  | copied (fails : Bool)
  /-- `io.Copy(targetConn, conn)` ends. -/
  | sent (fails : Bool)
  /-- The two meet on `ready`. -/
  | ready

def Forward.step (z : Forward) : ForwardAct → Option Forward
  | .dial fails =>
    match z.main with
    | .dial => some (if fails then { z with main := .returned } else ⟨.copying, .copying⟩)
    | _ => none
  | .copied fails =>
    match z.main with
    | .copying => some { z with main := if fails then .returned else .awaiting }
    | _ => none
  | .sent fails =>
    match z.copier with
    | .copying => some { z with copier := if fails then .ended else .signalling }
    | _ => none
  | .ready =>
    match z.main, z.copier with
    | .awaiting, .signalling => some ⟨.returned, .ended⟩
    | _, _ => none

/-- A worker's handler in bypass mode, whose calls end with `r`. -/
def forwardConnection {ρ : Type} (r : ρ) : Handler Forward ForwardAct ρ where
  start := fun _ => ⟨.dial, .absent⟩
  step := Forward.step
  returned := fun z => if z.main = .returned then some r else none

def handleConnection : Handler Forward ForwardAct Unit := forwardConnection ()

def handleConnectionTimed : Handler Forward ForwardAct ProxyStatsEntry :=
  forwardConnection { ProxyStatsEntry.zero with forwarded := true }

/-! ## One connection -/

/-- One of the two waits for the other, which is gone. -/
def Forward.Stranded (z : Forward) : Prop :=
  (z.main = .awaiting ∧ z.copier = .ended) ∨ (z.main = .returned ∧ z.copier = .signalling)

/-- Both copies have ended, or were never begun. -/
def Forward.CopiesEnded (z : Forward) : Prop :=
  (z.main = .awaiting ∨ z.main = .returned) ∧ z.copier ≠ .copying

/-- Both connections are closed and the goroutine is gone. -/
def Forward.Over (z : Forward) : Prop :=
  z.main = .returned ∧ (z.copier = .absent ∨ z.copier = .ended)

/-- The second of the two copies to end does so with an error exactly if the first did. -/
def Forward.EndsAlike (z : Forward) : ForwardAct → Prop
  | .copied fails => (z.copier = .signalling → fails = false) ∧
      (z.copier = .ended → fails = true)
  | .sent fails => (z.main = .awaiting → fails = false) ∧ (z.main = .returned → fails = true)
  | _ => True

instance (z : Forward) : ∀ a, Decidable (z.EndsAlike a)
  | .copied fails => inferInstanceAs (Decidable
      ((z.copier = .signalling → fails = false) ∧ (z.copier = .ended → fails = true)))
  | .sent fails => inferInstanceAs (Decidable
      ((z.main = .awaiting → fails = false) ∧ (z.main = .returned → fails = true)))
  | .dial _ | .ready => isTrue trivial

/-- While `forwardConnection` dials there is no goroutine, and later there is one unless it has
returned. -/
def Forward.Sound (z : Forward) : Prop :=
  (z.main = .dial → z.copier = .absent) ∧
    (z.main = .copying ∨ z.main = .awaiting → z.copier ≠ .absent)

/-- How many steps it has left at most. -/
def Forward.left (z : Forward) : ℕ :=
  (match z.main with | .dial => 5 | .copying => 2 | .awaiting => 1 | .returned => 0) +
    match z.copier with | .copying => 2 | .signalling => 1 | .absent | .ended => 0

variable {z z' : Forward} {a : ForwardAct}

/-- What a step can do. -/
inductive Forward.Step (z : Forward) : ForwardAct → Forward → Prop
  | dialFails (h : z.main = .dial) : Step z (.dial true) { z with main := .returned }
  | dial (h : z.main = .dial) : Step z (.dial false) ⟨.copying, .copying⟩
  | copyFails (h : z.main = .copying) : Step z (.copied true) { z with main := .returned }
  | copied (h : z.main = .copying) : Step z (.copied false) { z with main := .awaiting }
  | sendFails (h : z.copier = .copying) : Step z (.sent true) { z with copier := .ended }
  | sent (h : z.copier = .copying) : Step z (.sent false) { z with copier := .signalling }
  | ready (hm : z.main = .awaiting) (hc : z.copier = .signalling) :
    Step z .ready ⟨.returned, .ended⟩

theorem Forward.step_of_step (h : z.step a = some z') : Forward.Step z a z' := by
  cases a with
  | dial fails =>
    simp only [Forward.step] at h
    split at h
    · cases h
      cases fails
      · exact .dial ‹_›
      · exact .dialFails ‹_›
    · cases h
  | copied fails =>
    simp only [Forward.step] at h
    split at h
    · cases h
      cases fails
      · exact .copied ‹_›
      · exact .copyFails ‹_›
    · cases h
  | sent fails =>
    simp only [Forward.step] at h
    split at h
    · cases h
      cases fails
      · exact .sent ‹_›
      · exact .sendFails ‹_›
    · cases h
  | ready =>
    simp only [Forward.step] at h
    split at h
    · cases h
      exact .ready ‹_› ‹_›
    · cases h

theorem Forward.Sound.step (h : z.Sound) (hs : z.step a = some z') : z'.Sound := by
  obtain ⟨main, copier⟩ := z
  cases Forward.step_of_step hs <;> simp_all [Forward.Sound]

theorem Forward.left_lt (hs : z.step a = some z') : z'.left < z.left := by
  cases Forward.step_of_step hs with
  | dialFails h | dial h | copyFails h | copied h | sendFails h | sent h =>
    simp only [Forward.left, h]
    omega
  | ready hm hc =>
    simp only [Forward.left, hm, hc]
    omega

/-- **One connection.** The step that strands one of the two is the end of the second copy, where
only one of them fails. -/
theorem Forward.not_stranded_iff (h : z.Sound) (hz : ¬z.Stranded) (hs : z.step a = some z') :
    ¬z'.Stranded ↔ z.EndsAlike a := by
  obtain ⟨main, copier⟩ := z
  cases Forward.step_of_step hs <;> cases main <;> cases copier <;>
    simp_all [Forward.Sound, Forward.Stranded, Forward.EndsAlike]

/-- Until both have gone, something can happen: a dial ends somehow, and a copy ends as the other
one did. -/
theorem Forward.over_of_stuck (h : z.Sound) (hz : ¬z.Stranded)
    (hstuck : ∀ a, z.EndsAlike a → z.step a = none) : z.Over := by
  obtain ⟨main, copier⟩ := z
  cases main with
  | dial => cases hstuck (.dial true) trivial
  | copying =>
    by_cases hc : copier = .ended
    · subst hc
      cases hstuck (.copied true) ⟨nofun, fun _ => rfl⟩
    · cases hstuck (.copied false) ⟨fun _ => rfl, fun h => absurd h hc⟩
  | awaiting =>
    cases copier with
    | absent => exact absurd rfl (h.2 (Or.inr rfl))
    | copying => cases hstuck (.sent false) ⟨fun _ => rfl, nofun⟩
    | signalling => cases hstuck .ready trivial
    | ended => exact absurd (Or.inl ⟨rfl, rfl⟩) hz
  | returned =>
    cases copier with
    | absent => exact ⟨rfl, Or.inl rfl⟩
    | copying => cases hstuck (.sent true) ⟨nofun, fun _ => rfl⟩
    | signalling => exact absurd (Or.inr ⟨rfl, rfl⟩) hz
    | ended => exact ⟨rfl, Or.inr rfl⟩

theorem Forward.Over.step (h : z.Over) (a : ForwardAct) : z.step a = none := by
  obtain ⟨main, copier⟩ := z
  obtain ⟨rfl, rfl | rfl⟩ := h <;> cases a <;> rfl

theorem Forward.CopiesEnded.step (h : z.CopiesEnded) (hs : z.step a = some z') :
    z.EndsAlike a ∧ z'.CopiesEnded := by
  obtain ⟨main, copier⟩ := z
  cases Forward.step_of_step hs <;> simp_all [Forward.CopiesEnded, Forward.EndsAlike]

/-- Once the copies have ended, both of them go. -/
theorem Forward.completes {ρ : Type} (r : ρ) (task : ProxyTask) (h : z.Sound) (hz : ¬z.Stranded)
    (hended : z.CopiesEnded) : ((forwardConnection r).call task).Completes z Forward.Over := by
  refine .of_measure (I := fun z => z.Sound ∧ ¬z.Stranded ∧ z.CopiesEnded) Forward.left
    (fun z a z' hI hs => ?_) (fun z hI hstuck => ?_) ⟨h, hz, hended⟩
  · obtain ⟨h, hz, hended⟩ := hI
    obtain ⟨halike, hended'⟩ := hended.step hs
    exact ⟨⟨h.step hs, (Forward.not_stranded_iff h hz hs).2 halike, hended'⟩,
      Forward.left_lt hs⟩
  · exact Forward.over_of_stuck hI.1 hI.2.1 fun a _ => hstuck a

/-! ## The pool -/

variable {ρ σ : Type}

/-- The worker pool in bypass mode. -/
def bypass (workers jobBuffer doneBuffer : ℕ) (mode : Mode ρ σ) (r : ρ) :
    Pool Forward ForwardAct ρ σ :=
  ⟨workers, jobBuffer, doneBuffer, forwardConnection r, mode⟩

/-- No call of `forwardConnection` has left a worker or a goroutine behind. -/
def State.NoneStranded (s : State Forward σ) : Prop :=
  ∀ c ∈ s.calls, ¬c.point.Stranded

/-- Where a step is the end of a connection's second copy, it is as the end of the first. -/
def State.EndsAlike (s : State Forward σ) : Act ForwardAct → Prop
  | .call k a => ∀ c ∈ s.calls[k]?, c.point.EndsAlike a
  | _ => True

instance (s : State Forward σ) : ∀ a, Decidable (s.EndsAlike a)
  | .call k a => inferInstanceAs (Decidable (∀ c ∈ s.calls[k]?, c.point.EndsAlike a))
  | .accept | .acceptFails | .count | .enqueue | .handOff _ | .spawn | .take
      _ | .returns _ | .send _
  | .sendTo _ _ | .receive _ | .record _ => isTrue trivial

/-- `listener.Accept` returns. -/
def Act.isAccept {β : Type} : Act β → Bool
  | .accept | .acceptFails => true
  | _ => false

/-- The pool when no connection comes any more, and copies end alike. -/
def draining (p : Pool Forward ForwardAct ρ σ) : System (State Forward σ) (Act ForwardAct) :=
  (system p).restrict fun s a => a.isAccept = false ∧ s.EndsAlike a

theorem calls_of_step {ζ β : Type} {p : Pool ζ β ρ σ} {s s' : State ζ σ} {b : Act β}
    (h : Main.step p s b = some s') :
    (∃ k a c z, b = .call k a ∧ s.calls[k]? = some c ∧ p.handler.step c.point a = some z ∧
      s'.calls = s.calls.set k { c with point := z }) ∨
    ((∀ k a, b ≠ .call k a) ∧
      (s'.calls = s.calls ∨ ∃ w task, s'.calls = s.calls ++
        [⟨w, task, p.handler.start task⟩])) := by
  cases step_of_step h with
  | call k a c z hc hz => exact Or.inl ⟨k, a, c, z, rfl, hc, hz, rfl⟩
  | handOff w task | take w task => exact Or.inr ⟨nofun, Or.inr ⟨w, task, rfl⟩⟩
  | accept | acceptFails | count | enqueue | spawn | returns | send | sendTo | receive | record =>
    exact Or.inr ⟨nofun, Or.inl rfl⟩

section bypass

variable {workers jobBuffer doneBuffer : ℕ} {mode : Mode ρ σ} {r : ρ}
    {s s' t : State Forward σ}
  {b : Act ForwardAct}

theorem Accounted.sound (h : Accounted (bypass workers jobBuffer doneBuffer mode r) s) :
    ∀ c ∈ s.calls, c.point.Sound := fun c hc =>
  (h.calls c hc).invariant ⟨fun _ => rfl, nofun⟩ fun _ _ _ hI hs => Forward.Sound.step hI hs

/-- **Step.** -/
theorem State.NoneStranded.step_iff (h : Accounted (bypass workers jobBuffer doneBuffer mode r) s)
    (hn : s.NoneStranded) (hs : Main.step (bypass workers jobBuffer doneBuffer mode r)
      s b = some s') :
    s'.NoneStranded ↔ s.EndsAlike b := by
  rcases calls_of_step hs with ⟨k, a, c, z, rfl, hc, hz, hcalls⟩ | ⟨hb, hcalls⟩
  · have hcs := List.mem_of_getElem? hc
    have hiff := Forward.not_stranded_iff (h.sound c hcs) (hn c hcs) hz
    constructor
    · intro hn' c' hc'
      obtain rfl : c = c' := Option.some.inj (hc.symm.trans hc')
      refine hiff.1 (hn' { c with point := z } ?_)
      rw [hcalls]
      exact List.mem_set (List.getElem?_eq_some_iff.1 hc).1 _
    · intro halike c' hc'
      rw [hcalls] at hc'
      rcases List.mem_or_eq_of_mem_set hc' with hc' | rfl
      · exact hn c' hc'
      · exact hiff.2 (halike c hc)
  · refine iff_of_true (fun c hc => ?_) ?_
    · rcases hcalls with hcalls | ⟨w, task, hcalls⟩
      · exact hn c (hcalls ▸ hc)
      · rw [hcalls] at hc
        rcases List.mem_append.1 hc with hc | hc
        · exact hn c hc
        · obtain rfl := List.mem_singleton.1 hc
          rintro (⟨h, -⟩ | ⟨h, -⟩) <;> cases h
    · cases b with
      | call k a => exact absurd rfl (hb k a)
      | _ => trivial

/-! ## Until nothing is left to do -/

theorem sum_map_set_add {α : Type} (f : α → ℕ) {l : List α} {i : ℕ} {x : α}
    (h : l[i]? = some x) (y : α) : ((l.set i y).map f).sum + f x = (l.map f).sum + f y := by
  induction l generalizing i with
  | nil => cases h
  | cons z l ih =>
    cases i with
    | zero =>
      obtain rfl := Option.some.inj h
      simp only [List.set_cons_zero, List.map_cons, List.sum_cons]
      omega
    | succ i =>
      have := ih h
      simp only [List.set_cons_succ, List.map_cons, List.sum_cons]
      omega

def Loop.left : Loop → ℕ
  | .accept => 0
  | .count _ => 13
  | .enqueue _ => 12
  | .spawn => 3

def Worker.left : Worker σ → ℕ
  | .idle => 0
  | .handling _ => 2
  | .sending _ => 1

def Waiter.left : Waiter σ → ℕ
  | .receiving => 2
  | .recording _ => 1
  | .ended => 0

/-- How many steps the pool has left at most, when no connection comes any more. -/
def State.left (s : State Forward σ) : ℕ :=
  s.loop.left + 8 * s.jobQueue.length + (s.workers.map Worker.left).sum +
    (s.calls.map fun c => c.point.left).sum + (s.waiters.map Waiter.left).sum

/-- A worker that begins with a task has the task's call to do and two steps of its own. -/
theorem left_begin {w : ℕ} (hw : s.workers[w]? = some .idle) (task : ProxyTask) :
    (s.begin (bypass workers jobBuffer doneBuffer mode r) w task).left = s.left + 7 := by
  have hworkers := sum_map_set_add Worker.left hw (.handling s.calls.length)
  simp only [Worker.left] at hworkers
  simp only [State.left, State.begin, List.map_append, List.sum_append, List.map_cons, List.map_nil,
    List.sum_cons, List.sum_nil]
  show _ + _ + _ + (_ + (5 + 0 + 0)) + _ = _
  omega

theorem State.left_lt (hb : b.isAccept = false)
    (hs : Main.step (bypass workers jobBuffer doneBuffer mode r) s b = some s') :
    s'.left < s.left := by
  cases step_of_step hs with
  | accept => cases hb
  | acceptFails => cases hb
  | count conn hl =>
    simp only [State.left, hl, Loop.left]
    omega
  | enqueue task hl =>
    simp only [State.left, hl, Loop.left, List.length_append, List.length_singleton]
    omega
  | handOff w task hl hw =>
    rw [left_begin (s := { s with loop := .spawn }) hw]
    simp only [State.left, hl, Loop.left]
    omega
  | spawn hl =>
    simp only [State.left, hl, Loop.left, List.map_append, List.sum_append,
      List.map_cons, List.map_nil,
      List.sum_cons, List.sum_nil, Waiter.left]
    omega
  | take w task jobs hw hq =>
    rw [left_begin (s := { s with jobQueue := jobs }) hw]
    simp only [State.left, hq, List.length_cons]
    omega
  | call k a c z hc hz =>
    have hcalls := sum_map_set_add (fun c => c.point.left) hc { c with point := z }
    have hlt := Forward.left_lt hz
    simp only [State.left] at hcalls ⊢
    omega
  | returns w k r' hw =>
    have hworkers := sum_map_set_add Worker.left hw (.sending (mode.report w r'))
    simp only [Worker.left] at hworkers
    simp only [State.left]
    show _ + (((s.workers.set w (.sending (mode.report w r'))).map Worker.left).sum) + _ + _ < _
    omega
  | send w stats hw =>
    have hworkers := sum_map_set_add Worker.left hw .idle
    simp only [Worker.left] at hworkers
    simp only [State.left]
    omega
  | sendTo w v stats hw hv =>
    have hworkers := sum_map_set_add Worker.left hw .idle
    have hwaiters := sum_map_set_add Waiter.left hv (.recording stats)
    simp only [Worker.left, Waiter.left] at hworkers hwaiters
    simp only [State.left]
    omega
  | receive v stats done hv hd =>
    have hwaiters := sum_map_set_add Waiter.left hv (.recording stats)
    simp only [Waiter.left] at hwaiters
    simp only [State.left]
    omega
  | record v stats hv =>
    have hwaiters := sum_map_set_add Waiter.left hv .ended
    simp only [Waiter.left] at hwaiters
    simp only [State.left]
    omega

/-- What holds from a run of the condition on. -/
def Unstranded (p : Pool Forward ForwardAct ρ σ) (s : State Forward σ) : Prop :=
  Accounted p s ∧ s.NoneStranded

theorem Unstranded.step (h : Unstranded (bypass workers jobBuffer doneBuffer mode r) s)
    (halike : s.EndsAlike b)
    (hs : Main.step (bypass workers jobBuffer doneBuffer mode r) s b = some s') :
    Unstranded (bypass workers jobBuffer doneBuffer mode r) s' :=
  ⟨h.1.step hs, (State.NoneStranded.step_iff h.1 h.2 hs).2 halike⟩

theorem unstranded_init : Unstranded (bypass workers jobBuffer doneBuffer mode r)
    (system (bypass workers jobBuffer doneBuffer mode r)).init :=
  ⟨accounted_init _, nofun⟩

theorem Unstranded.over (h : Unstranded (bypass workers jobBuffer doneBuffer mode r) s)
    (hstuck : ∀ b, (draining (bypass workers jobBuffer doneBuffer mode r)).step s b = none) :
    ∀ c ∈ s.calls, c.point.Over := by
  intro c hc
  obtain ⟨k, hk⟩ := List.getElem?_of_mem hc
  refine Forward.over_of_stuck (h.1.sound c hc) (h.2 c hc) fun a halike => ?_
  have hok : s.EndsAlike (.call k a) := by
    intro c' hc'
    obtain rfl : c = c' := Option.some.inj (hk.symm.trans hc')
    exact halike
  have hnone : (s.calls[k]?.bind fun c => (Forward.step c.point a).map fun z =>
      ({ s with calls := s.calls.set k { c with point := z } } : State Forward σ)) = none :=
    System.restrict_stuck hstuck ⟨rfl, hok⟩
  rwa [hk, Option.bind_some, Option.map_eq_none_iff] at hnone

theorem Unstranded.onlyAccepts (h : Unstranded (bypass workers jobBuffer doneBuffer mode r) s)
    (hstuck : ∀ b, (draining (bypass workers jobBuffer doneBuffer mode r)).step s b = none) :
    OnlyAccepts (bypass workers jobBuffer doneBuffer mode r) s := by
  intro b s' hs
  have hnone := System.restrict_stuck hstuck (a := b)
  cases b with
  | accept => exact Or.inl rfl
  | acceptFails => exact Or.inr rfl
  | call k a =>
    obtain ⟨c, hc, hz⟩ := Option.bind_eq_some_iff.1 hs
    obtain ⟨z, hz, -⟩ := Option.map_eq_some_iff.1 hz
    cases ((h.over hstuck c (List.mem_of_getElem? hc)).step a).symm.trans hz
  | _ => cases (hnone ⟨rfl, trivial⟩).symm.trans hs

theorem Unstranded.idle (h : Unstranded (bypass workers jobBuffer doneBuffer mode r) s)
    (hstuck : ∀ b, (draining (bypass workers jobBuffer doneBuffer mode r)).step s b = none) :
    s.workers = List.replicate workers .idle := by
  refine List.eq_replicate_iff.2 ⟨h.1.workers, fun x hx => ?_⟩
  have hlen : s.workers.length = workers := h.1.workers
  have hworkers : 0 < workers := hlen ▸ List.length_pos_of_mem hx
  refine (h.1.at_rest hworkers (fun c hc => ⟨[], c.point, rfl, ?_⟩)
    (h.onlyAccepts hstuck)).workers x hx
  show (if c.point.main = .returned then some r else none).isSome = true
  rw [if_pos (h.over hstuck c hc).1]
  rfl

theorem Unstranded.completes (h : Unstranded (bypass workers jobBuffer doneBuffer mode r) s) :
    (draining (bypass workers jobBuffer doneBuffer mode r)).Completes s fun u =>
      u.workers = List.replicate workers .idle ∧ ∀ c ∈ u.calls, c.point.Over := by
  refine .of_measure State.left (fun s b s' hI hs => ?_) (fun s hI hstuck => ?_) h
  · obtain ⟨⟨hb, halike⟩, hs⟩ := System.restrict_step.1 hs
    exact ⟨hI.step halike hs, State.left_lt hb hs⟩
  · exact ⟨hI.idle hstuck, hI.over hstuck⟩

end bypass

/-- **Bypass mode.** A run leaves no worker and no goroutine behind exactly if, of the two copies of
each connection, the second to end fails exactly if the first one did. Then both go once the copies
have ended, and when no connection comes any more all workers become idle. -/
theorem noneStranded_iff_endsAlike (workers jobBuffer doneBuffer : ℕ) (mode : Mode ρ σ) (r : ρ)
    (as : List (Act ForwardAct)) (t : State Forward σ)
    (h : (system (bypass workers jobBuffer doneBuffer mode r)).run
      (system (bypass workers jobBuffer doneBuffer mode r)).init as = some t) :
    ((system (bypass workers jobBuffer doneBuffer mode r)).States State.NoneStranded
        (system (bypass workers jobBuffer doneBuffer mode r)).init as ↔
      (system (bypass workers jobBuffer doneBuffer mode r)).Steps State.EndsAlike
        (system (bypass workers jobBuffer doneBuffer mode r)).init as) ∧
    ((system (bypass workers jobBuffer doneBuffer mode r)).Steps State.EndsAlike
        (system (bypass workers jobBuffer doneBuffer mode r)).init as →
      (∀ c ∈ t.calls, c.point.CopiesEnded →
        ((forwardConnection r).call c.task).Completes c.point Forward.Over) ∧
      (draining (bypass workers jobBuffer doneBuffer mode r)).Completes t fun u =>
        u.workers = List.replicate workers .idle ∧ ∀ c ∈ u.calls, c.point.Over) := by
  refine ⟨System.states_iff_steps (fun s b s' hI halike hs => hI.step halike hs)
    (fun s b s' hI hs => hI.2.step_iff hI.1 hs) unstranded_init h, fun halike => ?_⟩
  have ht := System.run_invariant (fun s b s' hI halike hs => hI.step halike hs) unstranded_init
    halike h
  refine ⟨fun c hc hended => ?_, ht.completes⟩
  exact Forward.completes r c.task (ht.1.sound c hc) (ht.2 c hc) hended

/-- The pool of `run` in bypass mode. -/
def bypassed : Pool Forward ForwardAct Unit ℤ :=
  ⟨maxWorkers, maxBufferSize, maxBufferSize, handleConnection, proxyWorker⟩

/-- The same with `TIMED`. -/
def bypassedTimed : Pool Forward ForwardAct ProxyStatsEntry ProxyStatsEntry :=
  ⟨maxWorkers, maxBufferSize, maxBufferSize, handleConnectionTimed, timedProxyWorker⟩

/-- One connection, whose copies both end without an error, or only the first one. -/
def oneConnection (fails : Bool) : List (Act ForwardAct) :=
  [.accept, .count, .enqueue, .spawn, .take 0, .call 0 (.dial false), .call 0 (.copied false),
    .call 0 (.sent fails)]

theorem noneStranded_iff_endsAlike_oneConnection :
    (∃ t, (system bypassed).run (system bypassed).init (oneConnection false) = some t ∧
      (draining bypassed).Completes t fun u =>
        u.workers = List.replicate maxWorkers .idle ∧ ∀ c ∈ u.calls, c.point.Over) ∧
    ∃ t, (system bypassedTimed).run (system bypassedTimed).init (oneConnection false) = some t ∧
      (draining bypassedTimed).Completes t fun u =>
        u.workers = List.replicate maxWorkers .idle ∧ ∀ c ∈ u.calls, c.point.Over :=
  ⟨⟨_, rfl, ((noneStranded_iff_endsAlike maxWorkers maxBufferSize maxBufferSize proxyWorker ()
      (oneConnection false) _ rfl).2 (by decide)).2⟩,
    ⟨_, rfl,
      ((noneStranded_iff_endsAlike maxWorkers maxBufferSize maxBufferSize timedProxyWorker _
      (oneConnection false) _ rfl).2 (by decide)).2⟩⟩

/-! ## A worker that is lost -/

/-- Worker `w` waits in call `k` for a goroutine that is gone. -/
structure State.Lost (s : State Forward σ) (w k : ℕ) : Prop where
  worker : s.workers[w]? = some (.handling k)
  call : ∃ c, s.calls[k]? = some c ∧ c.point = ⟨.awaiting, .ended⟩

/-- It waits forever. -/
theorem State.Lost.step {workers jobBuffer doneBuffer : ℕ} {mode : Mode ρ σ} {r : ρ}
    {s s' : State Forward σ} {w k : ℕ} {b : Act ForwardAct} (h : s.Lost w k)
    (hs : Main.step (bypass workers jobBuffer doneBuffer mode r) s b = some s') : s'.Lost w k := by
  obtain ⟨hw, c, hc, hz⟩ := h
  have hne : ∀ {v x}, s.workers[v]? = some x → x ≠ .handling k → v ≠ w := by
    rintro v x hv hx rfl
    exact hx (Option.some.inj (hv.symm.trans hw))
  have hk := (List.getElem?_eq_some_iff.1 hc).1
  cases step_of_step hs with
  | accept | acceptFails | count | enqueue | spawn | receive | record => exact ⟨hw, c, hc, hz⟩
  | handOff v task hl hv | take v task jobs hv =>
    exact ⟨(List.getElem?_set_ne (hne hv nofun)).trans hw, c,
      (List.getElem?_append_left hk).trans hc, hz⟩
  | call k' a c' z hc' hz' =>
    refine ⟨hw, c, (List.getElem?_set_ne fun hkk => ?_).trans hc, hz⟩
    subst hkk
    obtain rfl : c = c' := Option.some.inj (hc.symm.trans hc')
    rw [hz] at hz'
    cases a <;> cases hz'
  | returns v k' r' hv c' hc' hr =>
    refine ⟨(List.getElem?_set_ne fun hvw => ?_).trans hw, c, hc, hz⟩
    subst hvw
    obtain rfl := Worker.handling.inj (Option.some.inj (hw.symm.trans hv))
    obtain rfl : c = c' := Option.some.inj (hc.symm.trans hc')
    rw [hz] at hr
    cases hr
  | send v stats hv | sendTo v x stats hv =>
    exact ⟨(List.getElem?_set_ne (hne hv nofun)).trans hw, c, hc, hz⟩

/-- The target ends the connection, and then the client's next bytes cannot be sent on: the copies
have ended, and the worker is handling the connection for ever. -/
theorem bypassed_loses_worker :
    ∃ t, (system bypassed).run (system bypassed).init (oneConnection true) = some t ∧
      (∀ c ∈ t.calls, c.point.CopiesEnded) ∧ ¬t.NoneStranded ∧
      ∀ bs u, (system bypassed).run t bs = some u → u.workers[0]? = some (.handling 0) :=
  ⟨_, rfl, List.forall_mem_singleton.2 ⟨Or.inl rfl, nofun⟩,
    fun h => h _ (List.mem_singleton.2 rfl) (Or.inl ⟨rfl, rfl⟩), fun _ _ hu =>
    (System.run_keeps (I := fun s => State.Lost s 0 0) (fun _ _ _ hI hs => hI.step hs)
      ⟨rfl, ⟨0, ⟨0, 1⟩, ⟨.awaiting, .ended⟩⟩, rfl, rfl⟩ hu).worker⟩

end Main

end AutomaticCache
