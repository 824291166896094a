import AutomaticCache.Main.Pool
import Mathlib.Data.List.Perm.Basic
import Mathlib.Data.List.Count
import Mathlib.Algebra.GroupWithZero.Nat

/-!
# What the pool counts

Between being counted and being counted off, a connection is in the hand of the accepting loop, in
the queue, with a worker, on `done` or with a goroutine that has received it, and a goroutine waits
for each of them that the loop has let go of. From that it follows that the counter is right at all
times, and that the pool comes to rest only with nothing left over (`Accounted.at_rest`).
-/

namespace AutomaticCache

namespace Main

open Runs Proxy

variable {ζ β ρ σ : Type} {p : Pool ζ β ρ σ} {s s' : State ζ σ}

theorem countP_set_add {α : Type} (q : α → Bool) {l : List α} {i : ℕ} {x : α}
    (h : l[i]? = some x) (y : α) : (l.set i
      y).countP q + (q x).toNat = l.countP q + (q y).toNat := by
  obtain ⟨hi, rfl⟩ := List.getElem?_eq_some_iff.1 h
  have hpos : (q l[i]).toNat ≤ l.countP q := by
    cases hq : q l[i] with
    | false => exact Nat.zero_le _
    | true => exact List.countP_pos_iff.2 ⟨_, List.getElem_mem hi, hq⟩
  rw [List.countP_set hi]
  cases hq : q l[i] <;> cases hy : q y <;>
    simp only [hq, Bool.toNat_true, Bool.toNat_false, Bool.false_eq_true, if_true,
      if_false] at hpos ⊢ <;>
    omega

/-- The worker has a connection that it has not let go of. -/
def Worker.busy : Worker σ → Bool
  | .idle => false
  | .handling _ | .sending _ => true

def Waiter.isReceiving : Waiter σ → Bool
  | .receiving => true
  | _ => false

def Waiter.isRecording : Waiter σ → Bool
  | .recording _ => true
  | _ => false

/-- The connections that the loop has counted and not let go of. -/
def Loop.inHand : Loop → ℕ
  | .enqueue _ => 1
  | _ => 0

/-- The connections that the loop has counted and not started a goroutine for. -/
def Loop.unawaited : Loop → ℕ
  | .enqueue _ | .spawn => 1
  | _ => 0

/-- The connections that the loop has accepted and not let go of. -/
def Loop.conns : Loop → List ℕ
  | .count conn => [conn]
  | .enqueue task => [task.conn]
  | _ => []

/-- The accepted connections, where they are: in the loop's hand, in the queue, or in the handler
call of a worker. -/
def State.conns (s : State ζ σ) : List ℕ :=
  s.loop.conns ++ s.jobQueue.map ProxyTask.conn ++ s.calls.map fun c => c.task.conn

/-- The books of the pool. -/
structure Accounted (p : Pool ζ β ρ σ) (s : State ζ σ) : Prop where
  workers : s.workers.length = p.workers
  connections : s.counter.connections = (s.counted : ℤ) - s.recorded
  inFlight : s.counted = s.loop.inHand + s.jobQueue.length + s.workers.countP Worker.busy +
    s.done.length + s.waiters.countP Waiter.isRecording + s.recorded
  awaited : s.counted = s.loop.unawaited + s.waiters.countP Waiter.isReceiving +
    s.waiters.countP Waiter.isRecording + s.recorded
  collected : p.mode.collects = true → s.counter.collectedStats.length = s.recorded
  once : s.conns.Perm (List.range s.accepted)
  calls : ∀ c ∈ s.calls, (p.handler.call c.task).Reachable c.point
  handling : ∀ k, .handling k ∈ s.workers → k < s.calls.length

theorem accounted_init (p : Pool ζ β ρ σ) : Accounted p (system p).init where
  workers := List.length_replicate ..
  connections := rfl
  inFlight := by
    show 0 = 0 + 0 + (List.replicate p.workers Worker.idle).countP Worker.busy + 0 + 0 + 0
    rw [List.countP_replicate]
    rfl
  awaited := rfl
  collected := fun _ => rfl
  once := .refl _
  calls := fun _ hc => absurd hc List.not_mem_nil
  handling := fun k hk => by cases List.eq_of_mem_replicate hk

/-- A worker begins with a task. -/
theorem handling_begin (h : ∀ k, .handling k ∈ s.workers → k < s.calls.length) (w : ℕ)
    (task : ProxyTask) : ∀ k, .handling k ∈ (s.begin p w task).workers →
      k < (s.begin p w task).calls.length := by
  intro k hk
  show k < (s.calls ++ [_]).length
  rw [List.length_append, List.length_singleton]
  rcases List.mem_or_eq_of_mem_set hk with hk | hk
  · exact Nat.lt_succ_of_lt (h k hk)
  · obtain rfl := Worker.handling.inj hk
    exact Nat.lt_succ_self _

theorem calls_begin (h : ∀ c ∈ s.calls, (p.handler.call c.task).Reachable c.point) (w : ℕ)
    (task : ProxyTask) : ∀ c ∈ (s.begin p w task).calls,
    (p.handler.call c.task).Reachable c.point := by
  intro c hc
  rcases List.mem_append.1 hc with hc | hc
  · exact h c hc
  · obtain rfl := List.mem_singleton.1 hc
    exact System.Reachable.initial

/-- A connection that changes place is still there once. -/
theorem perm_queued (conn : ℕ) (queue calls : List ℕ) :
    (queue ++ [conn] ++ calls).Perm (conn :: (queue ++ calls)) := by
  rw [List.perm_iff_count]
  intro x
  simp only [List.count_append, List.count_cons, List.count_nil]
  omega

theorem perm_begun (conn : ℕ) (inHand queue calls : List ℕ) :
    (inHand ++ queue ++ (calls ++ [conn])).Perm (inHand ++ (conn :: queue) ++ calls) := by
  rw [List.perm_iff_count]
  intro x
  simp only [List.count_append, List.count_cons, List.count_nil]
  omega

/-- **Step.** The books stay in order. -/
theorem Accounted.step {a : Act β} (h : Accounted p s) (hs : Main.step p s a = some s') :
    Accounted p s' := by
  have hin := h.inFlight
  have hawaited := h.awaited
  have honce := h.once
  unfold State.conns at honce
  cases step_of_step hs with
  | accept hl =>
    rw [hl] at hin hawaited honce
    refine ⟨h.workers, h.connections, hin, hawaited, h.collected, ?_, h.calls, h.handling⟩
    show (_ :: _).Perm (List.range (s.accepted + 1))
    rw [List.range_succ]
    exact (List.Perm.cons _ honce).trans (List.perm_append_singleton ..).symm
  | acceptFails hl => exact h
  | count conn hl =>
    rw [hl] at hin hawaited honce
    refine ⟨h.workers, ?_, ?_, ?_, h.collected, honce, h.calls, h.handling⟩
    · show s.counter.connections + 1 = ((s.counted + 1 : ℕ) : ℤ) - s.recorded
      rw [h.connections]
      omega
    · dsimp only [Loop.inHand] at hin ⊢
      omega
    · dsimp only [Loop.unawaited] at hawaited ⊢
      omega
  | enqueue task hl =>
    rw [hl] at hin hawaited honce
    refine ⟨h.workers, h.connections, ?_, hawaited, h.collected, ?_, h.calls, h.handling⟩
    · dsimp only [Loop.inHand] at hin ⊢
      rw [List.length_append, List.length_singleton]
      omega
    · refine List.Perm.trans ?_ honce
      show ([] ++ (s.jobQueue ++ [task]).map ProxyTask.conn ++ _).Perm _
      rw [List.map_append, List.nil_append]
      exact perm_queued task.conn _ _
  | handOff w task hl hw =>
    rw [hl] at hin hawaited honce
    have hbusy := countP_set_add Worker.busy hw (.handling s.calls.length)
    refine ⟨(List.length_set ..).trans h.workers, h.connections, ?_, hawaited, h.collected, ?_,
      calls_begin h.calls w task, handling_begin h.handling w task⟩
    · simp only [Worker.busy, Bool.toNat_false, Bool.toNat_true] at hbusy
      dsimp only [Loop.inHand, State.begin] at hin ⊢
      omega
    · refine List.Perm.trans ?_ honce
      show ([] ++ _ ++ (s.calls ++ [_]).map _).Perm _
      rw [List.map_append]
      exact perm_begun task.conn [] _ _
  | spawn hl =>
    rw [hl] at hin hawaited honce
    refine ⟨h.workers, h.connections, ?_, ?_, h.collected, honce, h.calls, h.handling⟩
    · dsimp only
      rw [List.countP_append]
      exact hin
    · dsimp only [Loop.unawaited] at hawaited ⊢
      rw [List.countP_append, List.countP_append]
      show _ = 0 + (_ + 1) + (_ + 0) + _
      omega
  | take w task jobs hw hq =>
    rw [hq] at hin honce
    have hbusy := countP_set_add Worker.busy hw (.handling s.calls.length)
    refine ⟨(List.length_set ..).trans h.workers, h.connections, ?_, hawaited, h.collected, ?_,
      calls_begin h.calls w task, handling_begin h.handling w task⟩
    · simp only [Worker.busy, Bool.toNat_false, Bool.toNat_true] at hbusy
      rw [List.length_cons] at hin
      dsimp only [State.begin]
      omega
    · refine List.Perm.trans ?_ honce
      show (_ ++ _ ++ (s.calls ++ [_]).map _).Perm _
      rw [List.map_append]
      exact perm_begun task.conn _ _ _
  | call k b c z hc hz =>
    refine ⟨h.workers, h.connections, hin, hawaited, h.collected, ?_, fun c' hc' => ?_,
      fun k' hk' => ?_⟩
    · have hmap : (s.calls.set k { c with point := z }).map (fun c => c.task.conn) =
          s.calls.map fun c => c.task.conn := by
        obtain ⟨hk, rfl⟩ := List.getElem?_eq_some_iff.1 hc
        rw [List.map_set]
        refine List.ext_getElem? fun i => ?_
        grind
      unfold State.conns
      rw [hmap]
      exact honce
    · rcases List.mem_or_eq_of_mem_set hc' with hc' | rfl
      · exact h.calls c' hc'
      · exact (h.calls c (List.mem_of_getElem? hc)).step hz
    · rw [List.length_set]
      exact h.handling k' hk'
  | returns w k r hw =>
    have hbusy := countP_set_add Worker.busy hw (.sending (p.mode.report w r))
    refine ⟨(List.length_set ..).trans h.workers, h.connections, ?_, hawaited, h.collected, honce,
      h.calls, fun k' hk' => ?_⟩
    · simp only [Worker.busy, Bool.toNat_true] at hbusy
      dsimp only
      omega
    · rcases List.mem_or_eq_of_mem_set hk' with hk' | hk'
      · exact h.handling k' hk'
      · cases hk'
  | send w stats hw =>
    have hbusy := countP_set_add Worker.busy hw .idle
    refine ⟨(List.length_set ..).trans h.workers, h.connections, ?_, hawaited, h.collected, honce,
      h.calls, fun k' hk' => ?_⟩
    · simp only [Worker.busy, Bool.toNat_false, Bool.toNat_true] at hbusy
      dsimp only
      rw [List.length_append, List.length_singleton]
      omega
    · rcases List.mem_or_eq_of_mem_set hk' with hk' | hk'
      · exact h.handling k' hk'
      · cases hk'
  | sendTo w v stats hw hv =>
    have hbusy := countP_set_add Worker.busy hw .idle
    have hreceiving := countP_set_add Waiter.isReceiving hv (.recording stats)
    have hrecording := countP_set_add Waiter.isRecording hv (.recording stats)
    simp only [Worker.busy, Waiter.isReceiving, Waiter.isRecording, Bool.toNat_false,
      Bool.toNat_true] at hbusy hreceiving hrecording
    refine ⟨(List.length_set ..).trans h.workers, h.connections, ?_, ?_,
      h.collected, honce, h.calls,
      fun k' hk' => ?_⟩
    · dsimp only
      omega
    · dsimp only
      omega
    · rcases List.mem_or_eq_of_mem_set hk' with hk' | hk'
      · exact h.handling k' hk'
      · cases hk'
  | receive v stats done hv hd =>
    rw [hd, List.length_cons] at hin
    have hreceiving := countP_set_add Waiter.isReceiving hv (.recording stats)
    have hrecording := countP_set_add Waiter.isRecording hv (.recording stats)
    simp only [Waiter.isReceiving, Waiter.isRecording, Bool.toNat_false, Bool.toNat_true]
      at hreceiving hrecording
    refine ⟨h.workers, h.connections, ?_, ?_, h.collected, honce, h.calls, h.handling⟩
    · dsimp only
      omega
    · dsimp only
      omega
  | record v stats hv =>
    have hreceiving := countP_set_add Waiter.isReceiving hv .ended
    have hrecording := countP_set_add Waiter.isRecording hv .ended
    simp only [Waiter.isReceiving, Waiter.isRecording, Bool.toNat_false, Bool.toNat_true]
      at hreceiving hrecording
    refine ⟨h.workers, ?_, ?_, ?_, fun hcollects => ?_, honce, h.calls, h.handling⟩
    · show s.counter.connections - 1 = (s.counted : ℤ) - ((s.recorded + 1 : ℕ) : ℤ)
      rw [h.connections]
      omega
    · dsimp only
      omega
    · dsimp only
      omega
    · dsimp only
      rw [if_pos hcollects, List.length_append, h.collected hcollects, List.length_singleton]

theorem accounted_of_reachable (h : (system p).Reachable s) : Accounted p s :=
  h.invariant (accounted_init p) fun _ _ _ hI hs => hI.step hs

/-! ## Rest -/

/-- Nothing can happen but that a connection comes, or fails to. -/
def OnlyAccepts (p : Pool ζ β ρ σ) (s : State ζ σ) : Prop :=
  ∀ a s', Main.step p s a = some s' → a = .accept ∨ a = .acceptFails

/-- Every handler call can still return. -/
def State.CallsReturn (p : Pool ζ β ρ σ) (s : State ζ σ) : Prop :=
  ∀ c ∈ s.calls, ∃ as z, (p.handler.call c.task).run c.point as = some z ∧
    (p.handler.returned z).isSome = true

theorem Accounted.callsReturn (h : Accounted p s) (hreturns : p.handler.Returns) :
    s.CallsReturn p :=
  fun c hc => hreturns _ _ (h.calls c hc)

/-- Nothing is left over: every accepted connection was handled, once, and is counted off. -/
structure State.AtRest (s : State ζ σ) : Prop where
  connections : s.counter.connections = 0
  jobQueue : s.jobQueue = []
  done : s.done = []
  workers : ∀ w ∈ s.workers, w = .idle
  waiters : ∀ v ∈ s.waiters, v = .ended
  handled : (s.calls.map fun c => c.task.conn).Perm (List.range s.accepted)

section rest

variable (honly : OnlyAccepts p s)

include honly

theorem not_recording (v : ℕ) (stats : σ) : s.waiters[v]? ≠ some (.recording stats) := by
  intro hv
  rcases honly (.record v) _ (by simp only [Main.step, hv]; rfl) with h | h <;> cases h

/-- A handler call that can still return keeps the pool from rest. -/
theorem not_handling (h : Accounted p s) (hreturns : s.CallsReturn p) (w k : ℕ) :
    s.workers[w]? ≠ some (.handling k) := by
  intro hw
  have hk := h.handling k (List.mem_of_getElem? hw)
  have hc := List.getElem?_eq_getElem hk
  obtain ⟨as, z, hrun, hreturned⟩ := hreturns _ (List.getElem_mem hk)
  cases as with
  | nil =>
    obtain ⟨r, hr⟩ := Option.isSome_iff_exists.1 hreturned
    obtain rfl := Option.some.inj hrun
    have hstep : Main.step p s (.returns w) =
        some { s with workers := s.workers.set w (.sending (p.mode.report w r)) } := by
      simp only [Main.step, hw, hc, Option.bind_some, hr, Option.map_some]
    rcases honly _ _ hstep with h | h <;> cases h
  | cons b as =>
    obtain ⟨z', hz, -⟩ := System.run_cons_some.1 hrun
    have hstep : Main.step p s (.call k b) =
        some { s with calls := s.calls.set k { s.calls[k] with point := z' } } := by
      have hz : p.handler.step s.calls[k].point b = some z' := hz
      simp only [Main.step, hc, Option.bind_some, hz, Option.map_some]
    rcases honly _ _ hstep with h | h <;> cases h

/-- A worker with a result finds a goroutine that waits for it, or room on `done`. -/
theorem not_sending (hwait : s.workers.countP Worker.busy + s.done.length ≤
    s.waiters.countP Waiter.isReceiving) (w : ℕ) (stats : σ) :
    s.workers[w]? ≠ some (.sending stats) := by
  intro hw
  have hbusy : 0 < s.workers.countP Worker.busy :=
    List.countP_pos_iff.2 ⟨_, List.mem_of_getElem? hw, rfl⟩
  have hpos : 0 < s.waiters.countP Waiter.isReceiving := by omega
  obtain ⟨x, hx, hreceiving⟩ := List.countP_pos_iff.1 hpos
  obtain ⟨v, hv⟩ := List.getElem?_of_mem hx
  cases x with
  | recording _ => cases hreceiving
  | ended => cases hreceiving
  | receiving =>
    cases hd : s.done with
    | nil =>
      rcases honly (.sendTo w v) _ (by simp only [Main.step, hw, hv, hd]; rfl) with
        h | h <;> cases h
    | cons stats' done =>
      rcases honly (.receive v) _ (by simp only [Main.step, hv, hd]; rfl) with h | h <;> cases h

/-- The loop waits for a connection, or for room in the queue. -/
theorem loop_of_only : s.loop = .accept ∨ ∃ task, s.loop = .enqueue task := by
  cases hl : s.loop with
  | accept => exact Or.inl rfl
  | count conn => rcases honly .count _ (by simp only [Main.step, hl]; rfl) with h | h <;> cases h
  | enqueue task => exact Or.inr ⟨task, rfl⟩
  | spawn => rcases honly .spawn _ (by simp only [Main.step, hl]; rfl) with h | h <;> cases h

theorem waiting_of_only (h : Accounted p s) : s.jobQueue.length + s.workers.countP Worker.busy +
    s.done.length = s.waiters.countP Waiter.isReceiving := by
  have hin := h.inFlight
  have hawaited := h.awaited
  rcases loop_of_only honly with hl | ⟨task, hl⟩
  · rw [hl] at hin hawaited
    dsimp only [Loop.inHand, Loop.unawaited] at hin hawaited
    omega
  · rw [hl] at hin hawaited
    dsimp only [Loop.inHand, Loop.unawaited] at hin hawaited
    omega

end rest

/-- **Rest.** Where only a new connection can come, nothing is left over. -/
theorem Accounted.at_rest (h : Accounted p s) (hworkers : 0 < p.workers)
    (hreturns : s.CallsReturn p) (honly : OnlyAccepts p s) : s.AtRest := by
  have hwaiting := waiting_of_only honly h
  have hidle : ∀ x ∈ s.workers, x = .idle := by
    intro x hx
    obtain ⟨w, hw⟩ := List.getElem?_of_mem hx
    cases x with
    | idle => rfl
    | handling k => exact absurd hw (not_handling honly h hreturns w k)
    | sending stats => exact absurd hw (not_sending honly (by omega) w stats)
  have hbusy : s.workers.countP Worker.busy = 0 :=
    List.countP_eq_zero.2 fun x hx => by rw [hidle x hx]; exact Bool.false_ne_true
  -- there is an idle worker for what is queued or in the loop's hand
  have h0 : s.workers[0]? = some .idle := by
    have hlen : 0 < s.workers.length := h.workers ▸ hworkers
    rw [List.getElem?_eq_getElem hlen, hidle _ (List.getElem_mem hlen)]
  have hqueue : s.jobQueue = [] := by
    cases hq : s.jobQueue with
    | nil => rfl
    | cons task jobs =>
      rcases honly (.take 0) _ (by simp only [Main.step, h0, hq]; rfl) with h | h <;> cases h
  have hloop : s.loop = .accept := by
    rcases loop_of_only honly with hl | ⟨task, hl⟩
    · exact hl
    · rcases honly (.handOff 0) _ (by simp only [Main.step, hl, h0, hqueue]; rfl) with
        h | h <;> cases h
  -- and a goroutine that waits for what is on `done`
  have hdone : s.done = [] := by
    cases hd : s.done with
    | nil => rfl
    | cons stats done =>
      rw [hd, List.length_cons] at hwaiting
      have hpos : 0 < s.waiters.countP Waiter.isReceiving := by omega
      obtain ⟨x, hx, hreceiving⟩ := List.countP_pos_iff.1 hpos
      obtain ⟨v, hv⟩ := List.getElem?_of_mem hx
      cases x with
      | recording _ => cases hreceiving
      | ended => cases hreceiving
      | receiving =>
        rcases honly (.receive v) _ (by simp only [Main.step, hv, hd]; rfl) with h | h <;> cases h
  have hended : ∀ x ∈ s.waiters, x = .ended := by
    intro x hx
    obtain ⟨v, hv⟩ := List.getElem?_of_mem hx
    cases x with
    | receiving =>
      have hpos : 0 < s.waiters.countP Waiter.isReceiving := List.countP_pos_iff.2 ⟨_, hx, rfl⟩
      rw [hqueue, hdone, hbusy] at hwaiting
      simp at hwaiting
      omega
    | recording stats => exact absurd hv (not_recording honly v stats)
    | ended => rfl
  have hawaited : s.counted = s.recorded := by
    have hawaited := h.awaited
    rw [hloop, List.countP_eq_zero.2 fun x hx => by rw [hended x hx]; exact Bool.false_ne_true,
      List.countP_eq_zero.2 fun x hx => by rw [hended x hx]; exact Bool.false_ne_true] at hawaited
    dsimp only [Loop.unawaited] at hawaited
    omega
  refine ⟨?_, hqueue, hdone, hidle, hended, ?_⟩
  · rw [h.connections, hawaited, sub_self]
  · have honce := h.once
    unfold State.conns at honce
    rw [hloop, hqueue] at honce
    exact honce

/-- **Accounting.** With any number of workers, buffers of any size, and any handler, in either
mode: the counter is what was counted and not counted off, each accepted connection is in one place,
the collected entries and the counter add up to what was counted, and with a worker at all and a
handler that returns, the pool comes to rest only with nothing left over. -/
theorem pool_accounting (p : Pool ζ β ρ σ) (s : State ζ σ) (h : (system p).Reachable s) :
    s.counter.connections = (s.counted : ℤ) - s.recorded ∧
    0 ≤ s.counter.connections ∧
    s.conns.Perm (List.range s.accepted) ∧
    (p.mode.collects = true →
      (s.counter.collectedStats.length : ℤ) + s.counter.connections = s.counted) ∧
    (0 < p.workers → p.handler.Returns → OnlyAccepts p s → s.AtRest) := by
  have hbooks := accounted_of_reachable h
  have hawaited := hbooks.awaited
  have hconnections := hbooks.connections
  refine ⟨hconnections, by omega, hbooks.once, fun hcollects => ?_,
    fun hworkers hreturns honly => hbooks.at_rest hworkers (hbooks.callsReturn hreturns) honly⟩
  rw [hbooks.collected hcollects]
  omega

/-- A pool in the timed mode, with one worker whose handler returns at once. -/
def oneWorker : Pool Unit Empty ProxyStatsEntry ProxyStatsEntry where
  workers := 1
  jobBuffer := 1
  doneBuffer := 1
  handler := ⟨fun _ => (), fun _ _ => none, fun _ => some .zero⟩
  mode := timedProxyWorker

theorem oneWorker_returns : oneWorker.handler.Returns := fun _ z _ => ⟨[], z, rfl, rfl⟩

/-- One connection, from its being accepted to its being counted off. -/
def oneHandled : List (Act Empty) :=
  [.accept, .count, .enqueue, .spawn, .take 0, .returns 0, .send 0, .receive 0, .record 0]

def afterHandled : State Unit ProxyStatsEntry where
  loop := .accept
  jobIndex := 1
  jobQueue := []
  workers := [.idle]
  calls := [⟨0, ⟨0, 1⟩, ()⟩]
  done := []
  waiters := [.ended]
  counter := ⟨0, [.zero]⟩
  accepted := 1
  counted := 1
  recorded := 1

theorem onlyAccepts_afterHandled : OnlyAccepts oneWorker afterHandled := by
  intro a s' hstep
  cases step_of_step hstep with
  | accept => exact Or.inl rfl
  | acceptFails => exact Or.inr rfl
  | count conn h | enqueue task h | handOff w task h | spawn h => cases h
  | take w task jobs hw hq => cases hq
  | call k b => exact b.elim
  | returns w k r hw => cases List.mem_singleton.1 (List.mem_of_getElem? hw)
  | send w stats hw | sendTo w v stats hw => cases List.mem_singleton.1 (List.mem_of_getElem? hw)
  | receive v stats done hv hd => cases hd
  | record v stats hv => cases List.mem_singleton.1 (List.mem_of_getElem? hv)

/-- The pool is at rest after one connection; a second one is counted but not collected yet. -/
theorem pool_accounting_oneWorker :
    (system oneWorker).run (system oneWorker).init oneHandled = some afterHandled ∧
      afterHandled.counter.connections = (afterHandled.counted : ℤ) - afterHandled.recorded ∧
      afterHandled.conns.Perm [0] ∧ afterHandled.AtRest ∧
    ∃ s, (system oneWorker).run (system oneWorker).init
      (oneHandled ++ [.accept, .count]) = some s ∧
      s.counter.connections = 1 ∧ s.conns.Perm [0, 1] ∧
      (s.counter.collectedStats.length : ℤ) + s.counter.connections = s.counted := by
  obtain ⟨hcounter, -, hconns, -, hrest⟩ :=
    pool_accounting oneWorker afterHandled ⟨oneHandled, by rfl⟩
  refine ⟨by rfl, hcounter, hconns, hrest Nat.one_pos oneWorker_returns onlyAccepts_afterHandled,
    ?_⟩
  obtain ⟨-, -, hconns, hcollected, -⟩ := pool_accounting oneWorker _
    ⟨oneHandled ++ [.accept, .count], rfl⟩
  exact ⟨_, rfl, rfl, hconns, hcollected rfl⟩

end Main

end AutomaticCache
