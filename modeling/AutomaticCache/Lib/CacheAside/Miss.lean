import AutomaticCache.Lib.CacheAside.Design

/-!
# A miss

What a call of a design comes to, on its own, when its key cannot be read: it runs the initializer
and then stores what that gives, or has another goroutine store it.
-/

namespace CacheAside

variable {σ κ ο δ ε : Type}

/-- A store on its own, with what is left to other goroutines. -/
def Store.world (S : Store σ κ ο δ ε) : (i : Op κ ο) → σ × List ο →
    Op.Ans δ ε i × (σ × List ο)
  | .lookup key, w => (S.lookup w.1 key, w)
  | .initializer, w => ((), w)
  | .store o, w =>
    match S.put w.1 o with
    | .ok s => (.ok (), s, w.2)
    | .error e => (.error e, w)
  | .spawn o, w => ((), w.1, w.2 ++ [o])

/-- What a call returns on its own, and the world it leaves. -/
def Store.exec (S : Store σ κ ο δ ε) (p : Prog (Op κ ο) (Op.Ans δ ε) (Result ο ε))
    (w : σ × List ο) :
    Result ο ε × (σ × List ο) := p.exec S.world w

namespace Design

variable (d : Design κ ο ε) {S : Store σ κ ο δ ε} {w : σ × List ο}

/-- A key that cannot be read is looked up twice, and the initializer runs. -/
theorem exec_of_miss {key : κ} {x : δ} (hmiss : S.lookup w.1 key = .error x) (r : Except ε ο) :
    S.exec (d.program δ (.start (.get key (some r)))) w = S.exec (d.running δ r) w := by
  have hlookup : S.world (.lookup key) w = (.error x, w) := Prod.ext hmiss rfl
  unfold Store.exec Stage.start program
  rw [Prog.exec_op, hlookup]
  dsimp only
  rw [if_neg fun h => Bool.false_ne_true h.2]
  unfold second
  rw [Prog.exec_op, hlookup]

theorem exec_running_error (e : ε) (w : σ × List ο) :
    S.exec (d.running δ (.error e)) w = (.error (d.initError e), w) := rfl

theorem exec_running_ok (o : ο) (w : σ × List ο) :
    S.exec (d.running δ (.ok o)) w = S.exec (d.storing δ o) w := rfl

theorem exec_storing_background (hb : d.background = true) (o : ο) (w : σ × List ο) :
    S.exec (d.storing δ o) w = (.ok (some o), w.1, w.2 ++ [o]) := by
  unfold Store.exec storing
  rw [if_pos hb]
  rfl

section foreground

variable (hb : d.background = false) {o : ο}

include hb in
theorem exec_storing_ok {s : σ} (hput : S.put w.1 o = .ok s) :
    S.exec (d.storing δ o) w = (.ok (some o), s, w.2) := by
  have hstore : S.world (.store o) w = (.ok (), s, w.2) := by
    simp only [Store.world, hput]
  unfold Store.exec storing
  rw [if_neg (Bool.eq_false_iff.1 hb), Prog.exec_op, hstore]
  rfl

include hb in
theorem exec_storing_error {e : ε} (hput : S.put w.1 o = .error e) :
    S.exec (d.storing δ o) w = ((d.unstored o e).map some, w) := by
  have hstore : S.world (.store o) w = (.error e, w) := by
    simp only [Store.world, hput]
  unfold Store.exec storing
  rw [if_neg (Bool.eq_false_iff.1 hb), Prog.exec_op, hstore]
  rfl

end foreground

end Design

end CacheAside
