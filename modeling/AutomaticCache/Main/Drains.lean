import AutomaticCache.Main.Process
import AutomaticCache.Proxy.Asked

/-!
# The process comes to rest

A handler and its goroutine make some ninety steps at most, whatever the network answers and
whatever else goes on, and neither is left waiting for the other. So once no connection comes any
more, the process has only so many steps left, and if no handler panics, then every accepted
connection has been handled and closed, once, when they are done (`process_drains`). Evictions may
happen at any time and do not count.
-/

namespace AutomaticCache

open Runs

namespace Proxy

/-! ## How long a handler takes -/

theorem perform_within (i : ProxyOp) : (perform i).Within 1 := .op fun r => .ret 0 r

theorem forward_within (targetAddr : Addr) (req : Request) :
    (forward perform targetAddr req).Within 4 := by
  refine .bind (m := 1) (n := 3) (perform_within (.dial targetAddr)) fun dialed => ?_
  cases dialed with
  | error _ => exact .bind (m := 1) (n := 2) (perform_within
      (.write serviceUnavailable)) fun _ => .ret 2 _
  | ok targetConn =>
    refine .bind (m := 1) (n := 2) (perform_within (.writeRequest targetConn req)) fun _ => ?_
    refine .bind (m := 1) (n := 1) (perform_within (.readResponse targetConn req)) fun read => ?_
    cases read with
    | error _ => exact .bind (m := 1) (n := 0) (perform_within
        (.write serviceUnavailable)) fun _ => .ret 0 _
    | ok res => exact .bind (m := 1) (n := 0) (perform_within (.respond res)) fun _ => .ret 0 _

theorem retrieveObjectFromRemote_within (req : Request) (targetAddr : Addr) (objectKey : Bytes) :
    (retrieveObjectFromRemote req targetAddr objectKey).Within 3 := by
  refine .bind (m := 1) (n := 2) (.op fun r => .ret 0 r) fun _ => ?_
  refine .bind (m := 1) (n := 1) (.op fun r => .ret 0 r) fun err => ?_
  cases err with
  | some err => exact .ret 1 _
  | none => exact .bind (m := 1) (n := 0) (.op fun r => .ret 0 r) fun _ => .ret 0 _

theorem get_within (key : Bytes) {init : Initializer HandlerM} (hinit : init.Within 3) :
    ((CacheKind.bigcache.cache perform).Get key (some init)).Within 6 := by
  refine .bind (m := 1) (n := 5) (perform_within (.get key)) fun found => ?_
  cases found with
  | ok o => exact .ret 5 _
  | error _ =>
    refine .bind (m := 1) (n := 4) (perform_within (.get key)) fun found => ?_
    cases found with
    | ok o => exact .ret 4 _
    | error _ =>
      refine .bind (m := 3) (n := 1) hinit fun fetched => ?_
      cases fetched with
      | error err => exact .ret 1 _
      | ok obj => exact .bind (m := 1) (n := 0) (perform_within (.goPut obj)) fun _ => .ret 0 _

theorem handleHttpInternal_within (adapters : List ObjectStorage) (targetAddr : Addr) :
    (handleHttpInternal .bigcache adapters targetAddr).Within 13 := by
  have hforward (req : Request) (n : ℕ) (hn : 4 ≤ n) :
      (do forward perform targetAddr req; return .ok () : HandlerM (Except Panic Unit)).Within n :=
    .mono hn (.bind (m := 4) (n := 0) (forward_within targetAddr req) fun _ => .ret 0 _)
  refine .bind (m := 12) (n := 1)
    (.bind (m := 1) (n := 11) (perform_within .readRequest) fun read => ?_)
    fun outcome => .bind (m := 1) (n := 0) (perform_within .close) fun _ => .ret 0 _
  cases read with
  | error _ => exact .ret 11 _
  | ok request =>
    dsimp only [handleRequest]
    cases shouldIntercept adapters request with
    | none => exact hforward request 11 (by omega)
    | some adapter =>
      refine .bind (m := 6) (n := 5)
        (get_within _ (retrieveObjectFromRemote_within ..)) fun got => ?_
      cases got with
      | error _ => exact hforward request 5 (by omega)
      | ok cachedObj =>
        dsimp only
        cases adapter.createLocalResponse cachedObj with
        | error panic => exact .ret 5 _
        | ok result =>
          cases result with
          | error _ => exact hforward request 5 (by omega)
          | ok response =>
            refine .bind (m := 1) (n := 4) (perform_within (.respond response)) fun sent => ?_
            cases sent with
            | some _ => exact hforward request 4 (by omega)
            | none => exact .ret 4 _

theorem goroutine_leaf (r : Retrieval) : Goroutines.Leaf r.goroutine 5 := by
  have hone {c : Goroutines.Comm ProxyOp Chan Retrieval Chan.Val} (hc : c.isGo = false) {n : ℕ}
      {next : c.Ans ProxyOp.Ans → HandlerM Unit} (h : ∀ r, Goroutines.Leaf (next r) n) :
      Goroutines.Leaf (.op c next) (n + 1) :=
        ⟨.op fun r => (h r).within, .op hc fun r => (h r).only⟩
  have hret (n : ℕ) : Goroutines.Leaf (.ret () : HandlerM Unit) n := ⟨.ret n (), .ret ()⟩
  refine hone rfl fun dialed => ?_
  cases dialed with
  | error err => exact hone rfl fun _ => hret 3
  | ok targetConn =>
    refine hone rfl fun written => ?_
    cases written with
    | some err => exact hone rfl fun _ => hret 2
    | none =>
      refine hone rfl fun read => ?_
      cases read with
      | error err => exact hone rfl fun _ => hret 1
      | ok res =>
        dsimp only [Prog.bind]
        cases receive r.objectKey res with
        | error err => exact hone rfl fun _ => hret 1
        | ok object => exact hone rfl fun _ => hone rfl fun _ => hret 0

/-! ## A step of a handler -/

/-- What is left of the handler, in line, and that the connection is closed, or will be. -/
structure Connection.Sound (conn : Connection) : Prop where
  rest : ∃ p, Goroutines.Behaves Retrieval.goroutine conn.main conn.goroutines p ∧
    (p.Must (· = .close) ∨ ∃ e ∈ conn.asked, e.1 = .close)
  bounded : Goroutines.Bounded conn.main conn.goroutines

/-- How many steps the handler has left at most. -/
noncomputable def Connection.left (conn : Connection) : ℕ :=
  Goroutines.work 5 conn.main conn.goroutines

theorem Connection.sound_accepted (adapters : List ObjectStorage) (targetAddr : Addr) :
    (accepted adapters targetAddr).Sound where
  rest := by
    have hm := handleWith_behavesAs (get_behavesAs .bigcache) adapters targetAddr
    have hb := hm.behaves .ret .ret (fun a gs hgs => .ret a hgs) [] Goroutines.ended_nil
    rw [Prog.bind_ret, Prog.bind_ret] at hb
    exact ⟨_, hb, Or.inl (handleWith_must_close _ adapters targetAddr)⟩
  bounded := ⟨⟨13, handleHttpInternal_within adapters targetAddr⟩, nofun⟩

theorem Connection.left_accepted (adapters : List ObjectStorage) (targetAddr : Addr) :
    (accepted adapters targetAddr).left ≤ 78 := by
  have hdepth := (handleHttpInternal_within adapters targetAddr).depth_le
  show 6 * (handleHttpInternal .bigcache adapters targetAddr).depth + 0 ≤ 78
  omega

/-- An operation adds one pending put at most. -/
theorem Shared.puts_answer_le (oracle : (i : ProxyOp) → i.Ans) (i : ProxyOp) (w : Shared) :
    (w.answer oracle i).2.puts.length ≤ w.puts.length + 1 := by
  cases i with
  | goPut o =>
    show (w.puts ++ [o]).length ≤ _
    rw [List.length_append, List.length_singleton]
  | _ => exact Nat.le_succ _

theorem Connection.Sound.step {conn conn' : Connection} {w w' : Shared}
    {oracle : (i : ProxyOp) → i.Ans} {a : Goroutines.Act} (h : conn.Sound)
    (hs : conn.step oracle w a = some (w', conn')) :
    conn'.Sound ∧ conn'.left < conn.left ∧ w'.puts.length ≤ w.puts.length + 1 := by
  obtain ⟨s, hgo, he⟩ := Option.map_eq_some_iff.1 hs
  cases he
  obtain ⟨p, hb, hclose⟩ := h.rest
  obtain ⟨hbounded, hlt⟩ :=
    Goroutines.Bounded.step (s := ⟨conn.main, conn.goroutines, (w, conn.asked)⟩)
    goroutine_leaf h.bounded hgo
  rcases hb.step (s := ⟨conn.main, conn.goroutines, (w, conn.asked)⟩) hgo with
    ⟨hb, hw⟩ | ⟨i, next, rfl, hb, hw⟩
  · refine ⟨⟨⟨p, hb, ?_⟩, hbounded⟩, hlt, ?_⟩
    · rw [hw]
      exact hclose
    · rw [hw]
      exact Nat.le_succ _
  · refine ⟨⟨⟨_, hb, ?_⟩, hbounded⟩, hlt, ?_⟩
    · rw [hw]
      rcases hclose with hmust | ⟨e, he, hclose⟩
      · cases hmust with
        | here hi => exact Or.inr ⟨_, List.mem_append_right _ (List.mem_singleton_self _), hi⟩
        | later hmust => exact Or.inl (hmust _)
      · exact Or.inr ⟨e, List.mem_append_left _ he, hclose⟩
    · rw [hw]
      exact Shared.puts_answer_le oracle i w

/-- No step is left only where the handler has returned. -/
theorem Connection.Sound.ended {conn : Connection} {w : Shared} {oracle : (i : ProxyOp) → i.Ans}
    (h : conn.Sound) (hstuck : ∀ a, conn.step oracle w a = none) :
    (∃ outcome, conn.main = .ret outcome) ∧ Goroutines.Ended conn.goroutines ∧
      ∃ e ∈ conn.asked, e.1 = .close := by
  obtain ⟨p, hb, hclose⟩ := h.rest
  obtain ⟨outcome, hmain, rfl, hended⟩ :=
    hb.ended (s := ⟨conn.main, conn.goroutines, (w, conn.asked)⟩)
    (h := Prog.recording (Shared.answer oracle)) fun a => Option.map_eq_none_iff.1 (hstuck a)
  refine ⟨⟨outcome, hmain⟩, hended, hclose.resolve_left fun hmust => ?_⟩
  cases hmust

/-- Where the handler and its goroutines have returned, nothing goes on. -/
theorem Connection.step_of_ended {conn : Connection} {outcome : Except Panic Unit}
    (hmain : conn.main = .ret outcome) (hended : Goroutines.Ended conn.goroutines)
    (oracle : (i : ProxyOp) → i.Ans) (w : Shared) (a : Goroutines.Act) :
    conn.step oracle w a = none := by
  refine Option.map_eq_none_iff.2 ?_
  rw [hmain]
  by_contra hs
  obtain ⟨s', hs⟩ := Option.ne_none_iff_exists'.1 hs
  obtain rfl := Goroutines.step_of_ended hended hs
  cases hs

end Proxy

namespace Main

open Proxy

/-! ## How much the pool has left -/

section remaining

variable {ζ β ρ σ : Type} {p : Pool ζ β ρ σ} {s s' : State ζ σ} {b : Act β}

def Loop.remaining (d : ℕ) : Loop → ℕ
  | .accept => 0
  | .count _ => d + 8
  | .enqueue _ => d + 7
  | .spawn => 3

/-- How many steps the pool has left at most, when no connection comes any more, where a call takes
`d`, and `f` at a point of it. -/
def State.remaining (d : ℕ) (f : ζ → ℕ) (s : State ζ σ) : ℕ :=
  s.loop.remaining d + (d + 3) * s.jobQueue.length + (s.workers.map Worker.left).sum +
    (s.calls.map fun c => f c.point).sum + (s.waiters.map Waiter.left).sum

variable {d : ℕ} {f : ζ → ℕ}

theorem remaining_begin (hfresh : ∀ task, f (p.handler.start task) ≤ d) {w : ℕ}
    (hw : s.workers[w]? = some .idle) (task : ProxyTask) :
    (s.begin p w task).remaining d f ≤ s.remaining d f + d + 2 := by
  have hworkers := sum_map_set_add Worker.left hw (.handling s.calls.length)
  have hcall := hfresh task
  simp only [Worker.left] at hworkers
  simp only [State.remaining, State.begin, List.map_append, List.sum_append,
    List.map_cons, List.map_nil,
    List.sum_cons, List.sum_nil]
  omega

theorem State.remaining_lt (hfresh : ∀ task, f (p.handler.start task) ≤ d)
    (hb : b.isAccept = false) (hcall : b.isCall = false) (hs : Main.step p s b = some s') :
    s'.remaining d f < s.remaining d f := by
  cases step_of_step hs with
  | accept | acceptFails => cases hb
  | call => cases hcall
  | count conn hl =>
    simp only [State.remaining, hl, Loop.remaining]
    omega
  | enqueue task hl =>
    simp only [State.remaining, hl, Loop.remaining, List.length_append,
      List.length_singleton, Nat.mul_add]
    omega
  | handOff w task hl hw =>
    have hle := remaining_begin (s := { s with loop := .spawn }) hfresh hw task
    simp only [State.remaining, hl, Loop.remaining] at hle ⊢
    omega
  | spawn hl =>
    simp only [State.remaining, hl, Loop.remaining, List.map_append, List.sum_append, List.map_cons,
      List.map_nil, List.sum_cons, List.sum_nil, Waiter.left]
    omega
  | take w task jobs hw hq =>
    have hle := remaining_begin (s := { s with jobQueue := jobs }) hfresh hw task
    simp only [State.remaining, hq, List.length_cons, Nat.mul_add] at hle ⊢
    omega
  | returns w k r' hw =>
    have hworkers := sum_map_set_add Worker.left hw (.sending (p.mode.report w r'))
    simp only [Worker.left] at hworkers
    simp only [State.remaining]
    omega
  | send w stats hw =>
    have hworkers := sum_map_set_add Worker.left hw .idle
    simp only [Worker.left] at hworkers
    simp only [State.remaining]
    omega
  | sendTo w v stats hw hv =>
    have hworkers := sum_map_set_add Worker.left hw .idle
    have hwaiters := sum_map_set_add Waiter.left hv (.recording stats)
    simp only [Worker.left, Waiter.left] at hworkers hwaiters
    simp only [State.remaining]
    omega
  | receive v stats done hv hd =>
    have hwaiters := sum_map_set_add Waiter.left hv (.recording stats)
    simp only [Waiter.left] at hwaiters
    simp only [State.remaining]
    omega
  | record v stats hv =>
    have hwaiters := sum_map_set_add Waiter.left hv .ended
    simp only [Waiter.left] at hwaiters
    simp only [State.remaining]
    omega

end remaining

/-! ## The process -/

/-- `listener.Accept` returns. -/
def ProcessAct.isAccept : ProcessAct → Bool
  | .pool a => a.isAccept
  | .turn _ _ _ | .put _ | .putFails _ | .drop _ => false

/-- An eviction. -/
def ProcessAct.isDrop : ProcessAct → Bool
  | .drop _ => true
  | .pool _ | .turn _ _ _ | .put _ | .putFails _ => false

/-- The process when no connection comes any more. -/
def closing (p : Pool Connection Turn Unit ℤ) : System Process ProcessAct :=
  (process p).restrict fun _ a => a.isAccept = false

/-- Nothing can happen but that a connection comes, or an entry goes. -/
def Process.Idle (p : Pool Connection Turn Unit ℤ) (s : Process) : Prop :=
  ∀ a s', s.step p a = some s' → a.isAccept = true ∨ a.isDrop = true

/-- Nothing is left over: every accepted connection was handled, once, and is closed and counted
off, no goroutine waits, and what was to be stored is, or could not be. -/
structure Process.AtRest (s : Process) : Prop where
  pool : s.pool.AtRest
  calls : ∀ c ∈ s.pool.calls, c.point.main = .ret (.ok ()) ∧
    Goroutines.Ended c.point.goroutines ∧
    ∃ e ∈ c.point.asked, e.1 = .close
  puts : s.shared.puts = []

/-- What holds of every run. -/
structure Process.Sound (p : Pool Connection Turn Unit ℤ) (s : Process) : Prop where
  accounted : Accounted p s.pool
  calls : ∀ c ∈ s.pool.calls, c.point.Sound

/-- How many steps are left at most; a step of a handler may leave a put to do. -/
noncomputable def Process.left (s : Process) : ℕ :=
  s.pool.remaining 156 (fun conn => 2 * conn.left) + s.shared.puts.length

section drains

variable {adapters : List ObjectStorage} {dest : ℕ → Addr} {workers jobBuffer doneBuffer : ℕ}
  {s s' : Process} {a : ProcessAct}

theorem Process.sound_init : Sound (httpPool adapters dest workers jobBuffer doneBuffer)
    (process (httpPool adapters dest workers jobBuffer doneBuffer)).init :=
  ⟨accounted_init _, nofun⟩

theorem Process.Sound.calls_step (h : Sound (httpPool adapters dest workers jobBuffer doneBuffer) s)
    (hs : Step (httpPool adapters dest workers jobBuffer doneBuffer) s a s') :
    ∀ c ∈ s'.pool.calls, c.point.Sound := by
  cases hs with
  | @pool b t ha ht =>
    rcases calls_of_step ht with ⟨k, b, c, z, rfl, -⟩ | ⟨-, hcalls | ⟨w, task, hcalls⟩⟩
    · cases ha
    · exact hcalls.symm ▸ h.calls
    · intro c hc
      have hc : c ∈ t.calls := hc
      rw [hcalls] at hc
      rcases List.mem_append.1 hc with hc | hc
      · exact h.calls c hc
      · obtain rfl := List.mem_singleton.1 hc
        exact Connection.sound_accepted adapters (dest task.conn)
  | turn hc hn =>
    intro c' hc'
    rcases List.mem_or_eq_of_mem_set hc' with hc' | rfl
    · exact h.calls c' hc'
    · exact ((h.calls _ (List.mem_of_getElem? hc)).step hn).1
  | put | putFails | drop => exact h.calls

theorem Process.Sound.step (h : Sound (httpPool adapters dest workers jobBuffer doneBuffer) s)
    (hs : s.step (httpPool adapters dest workers jobBuffer doneBuffer) a = some s') :
    Sound (httpPool adapters dest workers jobBuffer doneBuffer) s' := by
  obtain ⟨as, hpool⟩ := run_pool hs
  have hkeeps : ∀ s b s', Accounted (httpPool adapters dest workers jobBuffer doneBuffer) s →
      Main.step (httpPool adapters dest workers jobBuffer doneBuffer) s b = some s' →
      Accounted (httpPool adapters dest workers jobBuffer doneBuffer) s' :=
        fun _ _ _ hI hs => hI.step hs
  exact ⟨System.run_keeps hkeeps h.accounted hpool, h.calls_step (step_of_step hs).2⟩

/-- Every step but an eviction is one less. -/
theorem Process.Sound.left_le (h : Sound (httpPool adapters dest workers jobBuffer doneBuffer) s)
    (ha : a.isAccept = false)
    (hs : s.step (httpPool adapters dest workers jobBuffer doneBuffer) a = some s') :
    s'.left + (!a.isDrop).toNat ≤ s.left := by
  cases (step_of_step hs).2 with
  | @pool b t hcall ht =>
    have hfresh : ∀ task, 2 * ((httpPool adapters dest workers jobBuffer doneBuffer).handler.start
        task).left ≤ 156 := by
      intro task
      have hle := Connection.left_accepted adapters (dest task.conn)
      show 2 * (Connection.accepted adapters (dest task.conn)).left ≤ 156
      omega
    have hlt := State.remaining_lt (f := fun conn => 2 * conn.left) hfresh ha hcall ht
    show t.remaining 156 (fun conn => 2 * conn.left) + s.shared.puts.length + 1 ≤
      s.pool.remaining 156 (fun conn => 2 * conn.left) + s.shared.puts.length
    omega
  | @turn k oracle b c shared conn hc hn =>
    obtain ⟨-, hlt, hputs⟩ := (h.calls _ (List.mem_of_getElem? hc)).step hn
    have hcalls := sum_map_set_add (fun c => 2 * c.point.left) hc { c with point := conn }
    simp only [left, State.remaining] at hcalls ⊢
    show _ + 1 ≤ _
    omega
  | put ho | putFails ho =>
    have hlen := List.length_eraseIdx_of_lt (List.getElem?_eq_some_iff.1 ho).1
    have hpos : 0 < s.shared.puts.length := Nat.zero_lt_of_lt (List.getElem?_eq_some_iff.1 ho).1
    show _ + (s.shared.puts.eraseIdx _).length + 1 ≤ _ + s.shared.puts.length
    dsimp only
    omega
  | drop key => exact le_rfl

/-- Where only a connection can come, no handler waits for anything. -/
theorem Process.Sound.at_rest (h : Sound (httpPool adapters dest workers jobBuffer doneBuffer) s)
    (hworkers : 0 < workers) (hidle : s.Idle (httpPool adapters dest workers jobBuffer doneBuffer))
    (hpanic : s.panicked = false) : s.AtRest := by
  have hnone {b : ProcessAct} {s' : Process} (hb : b.isAccept = false ∧ b.isDrop = false)
      (hs : Step (httpPool adapters dest workers jobBuffer doneBuffer) s b s') : False := by
    rcases hidle b s' (hs.step_eq hpanic) with h | h
    · cases hb.1.symm.trans h
    · cases hb.2.symm.trans h
  have hcalls : ∀ c ∈ s.pool.calls, c.point.main = .ret (.ok ()) ∧
      Goroutines.Ended c.point.goroutines ∧
      ∃ e ∈ c.point.asked, e.1 = .close := by
    intro c hc
    obtain ⟨k, hk⟩ := List.getElem?_of_mem hc
    have hstuck : ∀ b, c.point.step (brings getObject (okResponse [])) s.shared b = none := by
      intro b
      by_contra hne
      obtain ⟨⟨shared, conn⟩, hn⟩ := Option.ne_none_iff_exists'.1 hne
      exact hnone ⟨rfl, rfl⟩ (.turn hk hn)
    obtain ⟨⟨outcome, hmain⟩, hended, hclosed⟩ := (h.calls c hc).ended hstuck
    refine ⟨?_, hended, hclosed⟩
    cases outcome with
    | ok => exact hmain
    | error panic =>
      have hnot := List.any_eq_false.1 hpanic c hc
      simp only [Connection.panicked, hmain, not_true_eq_false] at hnot
  have honly : OnlyAccepts (httpPool adapters dest workers jobBuffer doneBuffer) s.pool := by
    intro b t ht
    cases hcall : b.isCall with
    | true =>
      rcases calls_of_step ht with ⟨k, turn, c, z, rfl, hc, hz, -⟩ | ⟨hb, -⟩
      · obtain ⟨hmain, hended, -⟩ := hcalls c (List.mem_of_getElem? hc)
        have hstep := Connection.step_of_ended hmain hended turn.oracle turn.shared turn.act
        obtain ⟨next, hnext, -⟩ := Option.map_eq_some_iff.1 hz
        cases hstep.symm.trans hnext
      · cases b with
        | call k turn => exact absurd rfl (hb k turn)
        | _ => cases hcall
    | false =>
      have haccept : b.isAccept = true := by
        by_contra hb
        exact hnone (b := .pool b) ⟨Bool.eq_false_iff.2 hb, rfl⟩ (.pool hcall ht)
      cases b with
      | accept => exact Or.inl rfl
      | acceptFails => exact Or.inr rfl
      | _ => cases haccept
  refine ⟨h.accounted.at_rest hworkers (fun c hc => ⟨[], c.point, rfl, ?_⟩) honly, hcalls,
    ?_⟩
  · have hreturned := handleHttp_returned adapters dest (hcalls c hc).1
    show ((handleHttp adapters dest).returned c.point).isSome = true
    rw [hreturned]
    rfl
  · cases hputs : s.shared.puts with
    | nil => rfl
    | cons o puts =>
      have hfirst : s.shared.puts[0]? = some o := by rw [hputs]; rfl
      exact (hnone ⟨rfl, rfl⟩ (.putFails hfirst)).elim

/-- A run in which no connection comes has only so many steps that are no evictions. -/
theorem Process.Sound.closing (h : Sound (httpPool adapters dest workers jobBuffer doneBuffer) s)
    {as : List ProcessAct} {t : Process}
    (hrun : (closing (httpPool adapters dest workers jobBuffer doneBuffer)).run s as = some t) :
    Sound (httpPool adapters dest workers jobBuffer doneBuffer) t ∧
      t.left + as.countP (fun a => !a.isDrop) ≤ s.left := by
  refine System.run_countP_le (S := Main.closing
    (httpPool adapters dest workers jobBuffer doneBuffer)) (fun s a s' hI hs => ?_) h hrun
  obtain ⟨ha, hs⟩ := System.restrict_step.1 hs
  exact ⟨hI.step hs, hI.left_le ha hs⟩

/-- **Rest.** Once no connection comes any more, the process has a bounded number of steps left, but
for evictions, whatever the network answers and in whatever order they come. Where it cannot go on,
a handler has panicked, or every connection it ever accepted was handled once and is closed and
counted off. -/
theorem process_drains (adapters : List ObjectStorage) (dest : ℕ → Addr)
    (workers jobBuffer doneBuffer : ℕ) (hworkers : 0 < workers) (s : Process)
    (h : (process (httpPool adapters dest workers jobBuffer doneBuffer)).Reachable s) :
    ∃ n, ∀ as t, (closing (httpPool adapters dest workers jobBuffer doneBuffer)).run
      s as = some t →
      as.countP (fun a => !a.isDrop) ≤ n ∧
        (t.Idle (httpPool adapters dest workers jobBuffer doneBuffer) →
          t.panicked = true ∨ t.AtRest) := by
  have hsound : Process.Sound (httpPool adapters dest workers jobBuffer doneBuffer) s :=
    h.invariant Process.sound_init fun _ _ _ hI hs => hI.step hs
  refine ⟨s.left, fun as t hrun => ?_⟩
  obtain ⟨ht, hle⟩ := hsound.closing hrun
  refine ⟨by omega, fun hidle => ?_⟩
  cases hpanic : t.panicked with
  | true => exact Or.inl rfl
  | false => exact Or.inr (ht.at_rest hworkers hidle hpanic)

end drains

/-- From where the first connection has been answered, and nothing has been stored yet. -/
theorem process_drains_miss :
    ∃ s, (process oneHandler).run (process oneHandler).init takesAndFetches = some s ∧
      ∃ n, ∀ as t, (closing oneHandler).run s as = some t →
        as.countP (fun a => !a.isDrop) ≤ n ∧
        (t.Idle oneHandler → t.panicked = true ∨ t.AtRest) :=
  ⟨_, rfl, process_drains [minio] (fun _ => ⟨0x0a000001, 9000⟩) 1 1 1 (by decide) _
    ⟨takesAndFetches, rfl⟩⟩

end Main

end AutomaticCache
