import AutomaticCache.Lib.Run
import AutomaticCache.Proxy.Handlers

/-!
# The worker pool

The loop of `run` that accepts connections, the workers that handle them, and the goroutines that
wait on `done` to count them off again. What a handler call does is a `Handler`, a machine whose
steps interleave with everything else and which may go on after it has returned.

Both channels are buffered. A send to one whose buffer is empty may meet its receiver at once, which
is all that a buffer of size 0 allows.
-/

namespace AutomaticCache

namespace Main

open Runs Proxy

/-- `MAX_WORKERS`. -/
def maxWorkers : ℕ := 1000

/-- `MAX_BUFFER_SIZE`. -/
def maxBufferSize : ℕ := 100000

/-- A connection is known by its number in the order of being accepted. -/
structure ProxyTask where
  conn : ℕ
  id : ℕ
  deriving DecidableEq

structure ConnectionCounter (σ : Type) where
  connections : ℤ
  collectedStats : List σ

/-- `handleConnection` or `handleConnectionTimed`: a call for a task begins at `start task`. -/
structure Handler (ζ β ρ : Type) where
  start : ProxyTask → ζ
  step : ζ → β → Option ζ
  returned : ζ → Option ρ

/-- A call of the handler on its own. -/
def Handler.call {ζ β ρ : Type} (H : Handler ζ β ρ) (task : ProxyTask) : System ζ β :=
  ⟨H.start task, H.step⟩

/-- Each call returns, if it keeps going. -/
def Handler.Returns {ζ β ρ : Type} (H : Handler ζ β ρ) : Prop :=
  ∀ task z, (H.call task).Reachable z →
    ∃ as z', (H.call task).run z as = some z' ∧ (H.returned z').isSome = true

/-- What a worker sends for what its handler returned, and whether it is collected. -/
structure Mode (ρ σ : Type) where
  report : ℕ → ρ → σ
  collects : Bool

/-- `proxyWorker`. -/
def proxyWorker : Mode Unit ℤ := ⟨fun _ _ => 0, false⟩

/-- `timedProxyWorker`. -/
def timedProxyWorker : Mode ProxyStatsEntry ProxyStatsEntry :=
  ⟨fun id stats => { stats with workerID := id }, true⟩

structure Pool (ζ β ρ σ : Type) where
  /-- `maxWorkers` in `run`. -/
  workers : ℕ
  /-- `maxBufferSize` for both channels in `run`. -/
  jobBuffer : ℕ
  doneBuffer : ℕ
  handler : Handler ζ β ρ
  mode : Mode ρ σ

/-! ## Goroutines -/

/-- Where the accepting loop stands. -/
inductive Loop
  | accept
  | count (conn : ℕ)
  | enqueue (task : ProxyTask)
  /-- It has queued the connection, and starts the goroutine that waits. -/
  | spawn

inductive Worker (σ : Type)
  /-- At `range jobs`. -/
  | idle
  /-- In the handler's call number `k`. -/
  | handling (k : ℕ)
  | sending (stats : σ)

/-- A goroutine that waits on `done`. -/
inductive Waiter (σ : Type)
  | receiving
  | recording (stats : σ)
  | ended

structure Call (ζ : Type) where
  worker : ℕ
  task : ProxyTask
  point : ζ

/-- The last three fields are ghosts: how many connections were accepted, counted, and counted
off. -/
structure State (ζ σ : Type) where
  loop : Loop
  jobIndex : ℕ
  jobQueue : List ProxyTask
  workers : List (Worker σ)
  calls : List (Call ζ)
  done : List σ
  waiters : List (Waiter σ)
  counter : ConnectionCounter σ
  accepted : ℕ
  counted : ℕ
  recorded : ℕ

inductive Act (β : Type)
  | accept
  | acceptFails
  | count
  | enqueue
  /-- The loop gives its task to worker `w`. -/
  | handOff (w : ℕ)
  | spawn
  /-- Worker `w` takes a task. -/
  | take (w : ℕ)
  /-- Call `k` makes a step. -/
  | call (k : ℕ) (b : β)
  | returns (w : ℕ)
  | send (w : ℕ)
  /-- Worker `w` gives its result to waiter `v`. -/
  | sendTo (w v : ℕ)
  | receive (v : ℕ)
  | record (v : ℕ)

variable {ζ β ρ σ : Type} (p : Pool ζ β ρ σ)

/-- Worker `w` begins to handle the task. -/
def State.begin (s : State ζ σ) (w : ℕ) (task : ProxyTask) : State ζ σ :=
  { s with
    workers := s.workers.set w (.handling s.calls.length)
    calls := s.calls ++ [⟨w, task, p.handler.start task⟩] }

def step (s : State ζ σ) : Act β → Option (State ζ σ)
  | .accept =>
    match s.loop with
    | .accept => some { s with loop := .count s.accepted, accepted := s.accepted + 1 }
    | _ => none
  | .acceptFails =>
    match s.loop with
    | .accept => some s
    | _ => none
  | .count =>
    match s.loop with
    | .count conn => some { s with
        loop := .enqueue ⟨conn, s.jobIndex + 1⟩
        jobIndex := s.jobIndex + 1
        counter := { s.counter with connections := s.counter.connections + 1 }
        counted := s.counted + 1 }
    | _ => none
  | .enqueue =>
    match s.loop with
    | .enqueue task =>
      if s.jobQueue.length < p.jobBuffer then
        some { s with loop := .spawn, jobQueue := s.jobQueue ++ [task] }
      else none
    | _ => none
  | .handOff w =>
    match s.loop, s.workers[w]?, s.jobQueue with
    | .enqueue task, some .idle, [] => some ({ s with loop := .spawn }.begin p w task)
    | _, _, _ => none
  | .spawn =>
    match s.loop with
    | .spawn => some { s with loop := .accept, waiters := s.waiters ++ [.receiving] }
    | _ => none
  | .take w =>
    match s.workers[w]?, s.jobQueue with
    | some .idle, task :: jobs => some ({ s with jobQueue := jobs }.begin p w task)
    | _, _ => none
  | .call k b => s.calls[k]?.bind fun c => (p.handler.step c.point b).map fun z =>
      { s with calls := s.calls.set k { c with point := z } }
  | .returns w =>
    match s.workers[w]? with
    | some (.handling k) => s.calls[k]?.bind fun c => (p.handler.returned c.point).map fun r =>
        { s with workers := s.workers.set w (.sending (p.mode.report w r)) }
    | _ => none
  | .send w =>
    match s.workers[w]? with
    | some (.sending stats) =>
      if s.done.length < p.doneBuffer then
        some { s with workers := s.workers.set w .idle, done := s.done ++ [stats] }
      else none
    | _ => none
  | .sendTo w v =>
    match s.workers[w]?, s.waiters[v]?, s.done with
    | some (.sending stats), some .receiving, [] => some { s with
        workers := s.workers.set w .idle
        waiters := s.waiters.set v (.recording stats) }
    | _, _, _ => none
  | .receive v =>
    match s.waiters[v]?, s.done with
    | some .receiving, stats :: done => some { s with
        waiters := s.waiters.set v (.recording stats)
        done := done }
    | _, _ => none
  | .record v =>
    match s.waiters[v]? with
    | some (.recording stats) => some { s with
        waiters := s.waiters.set v .ended
        counter :=
          { connections := s.counter.connections - 1
            collectedStats :=
              if p.mode.collects then s.counter.collectedStats ++
                [stats] else s.counter.collectedStats }
        recorded := s.recorded + 1 }
    | _ => none

/-- All workers idle, and no connection yet. -/
def system : System (State ζ σ) (Act β) where
  init := ⟨.accept, 0, [], List.replicate p.workers .idle, [], [], [], ⟨0, []⟩, 0, 0, 0⟩
  step := step p

/-! ## What a step can do -/

/-- The steps, each with what it finds. -/
inductive Step (s : State ζ σ) : Act β → State ζ σ → Prop
  | accept (h : s.loop = .accept) :
    Step s .accept { s with loop := .count s.accepted, accepted := s.accepted + 1 }
  | acceptFails (h : s.loop = .accept) : Step s .acceptFails s
  | count (conn : ℕ) (h : s.loop = .count conn) :
    Step s .count { s with
      loop := .enqueue ⟨conn, s.jobIndex + 1⟩
      jobIndex := s.jobIndex + 1
      counter := { s.counter with connections := s.counter.connections + 1 }
      counted := s.counted + 1 }
  | enqueue (task : ProxyTask) (h : s.loop = .enqueue task)
    (hroom : s.jobQueue.length < p.jobBuffer) :
    Step s .enqueue { s with loop := .spawn, jobQueue := s.jobQueue ++ [task] }
  | handOff (w : ℕ) (task : ProxyTask) (h : s.loop = .enqueue task)
    (hw : s.workers[w]? = some .idle) (hq : s.jobQueue = []) :
    Step s (.handOff w) ({ s with loop := .spawn }.begin p w task)
  | spawn (h : s.loop = .spawn) :
    Step s .spawn { s with loop := .accept, waiters := s.waiters ++ [.receiving] }
  | take (w : ℕ) (task : ProxyTask) (jobs : List ProxyTask) (hw : s.workers[w]? = some .idle)
    (hq : s.jobQueue = task :: jobs) :
    Step s (.take w) ({ s with jobQueue := jobs }.begin p w task)
  | call (k : ℕ) (b : β) (c : Call ζ) (z : ζ) (hc : s.calls[k]? = some c)
    (hz : p.handler.step c.point b = some z) :
    Step s (.call k b) { s with calls := s.calls.set k { c with point := z } }
  | returns (w k : ℕ) (r : ρ) (hw : s.workers[w]? = some (.handling k)) (c : Call ζ)
    (hc : s.calls[k]? = some c) (hr : p.handler.returned c.point = some r) :
    Step s (.returns w) { s with workers := s.workers.set w (.sending (p.mode.report w r)) }
  | send (w : ℕ) (stats : σ) (hw : s.workers[w]? = some (.sending stats))
    (hroom : s.done.length < p.doneBuffer) :
    Step s (.send w) { s with workers := s.workers.set w .idle, done := s.done ++ [stats] }
  | sendTo (w v : ℕ) (stats : σ) (hw : s.workers[w]? = some (.sending stats))
    (hv : s.waiters[v]? = some .receiving) (hd : s.done = []) :
    Step s (.sendTo w v) { s with
      workers := s.workers.set w .idle
      waiters := s.waiters.set v (.recording stats) }
  | receive (v : ℕ) (stats : σ) (done : List σ) (hv : s.waiters[v]? = some .receiving)
    (hd : s.done = stats :: done) :
    Step s (.receive v) { s with waiters := s.waiters.set v (.recording stats), done := done }
  | record (v : ℕ) (stats : σ) (hv : s.waiters[v]? = some (.recording stats)) :
    Step s (.record v) { s with
      waiters := s.waiters.set v .ended
      counter :=
        { connections := s.counter.connections - 1
          collectedStats :=
            if p.mode.collects then s.counter.collectedStats ++
              [stats] else s.counter.collectedStats }
      recorded := s.recorded + 1 }

variable {p} {s s' : State ζ σ}

theorem step_of_step {a : Act β} (h : step p s a = some s') : Step p s a s' := by
  cases a with
  | accept =>
    simp only [step] at h
    split at h
    · cases h; exact .accept ‹_›
    · cases h
  | acceptFails =>
    simp only [step] at h
    split at h
    · cases h; exact .acceptFails ‹_›
    · cases h
  | count =>
    simp only [step] at h
    split at h
    · cases h; exact .count _ ‹_›
    · cases h
  | enqueue =>
    simp only [step] at h
    split at h
    · split_ifs at h with hroom
      cases h
      exact .enqueue _ ‹_› hroom
    · cases h
  | handOff w =>
    simp only [step] at h
    split at h
    · cases h; exact .handOff w _ ‹_› ‹_› ‹_›
    · cases h
  | spawn =>
    simp only [step] at h
    split at h
    · cases h; exact .spawn ‹_›
    · cases h
  | take w =>
    simp only [step] at h
    split at h
    · cases h; exact .take w _ _ ‹_› ‹_›
    · cases h
  | call k b =>
    obtain ⟨c, hc, h⟩ := Option.bind_eq_some_iff.1 h
    obtain ⟨z, hz, rfl⟩ := Option.map_eq_some_iff.1 h
    exact .call k b c z hc hz
  | returns w =>
    simp only [step] at h
    split at h
    · rename_i k hw
      obtain ⟨c, hc, h⟩ := Option.bind_eq_some_iff.1 h
      obtain ⟨r, hr, rfl⟩ := Option.map_eq_some_iff.1 h
      exact .returns w k r hw c hc hr
    · cases h
  | send w =>
    simp only [step] at h
    split at h
    · split_ifs at h with hroom
      cases h
      exact .send w _ ‹_› hroom
    · cases h
  | sendTo w v =>
    simp only [step] at h
    split at h
    · cases h; exact .sendTo w v _ ‹_› ‹_› ‹_›
    · cases h
  | receive v =>
    simp only [step] at h
    split at h
    · cases h; exact .receive v _ _ ‹_› ‹_›
    · cases h
  | record v =>
    simp only [step] at h
    split at h
    · cases h; exact .record v _ ‹_›
    · cases h

end Main

end AutomaticCache
