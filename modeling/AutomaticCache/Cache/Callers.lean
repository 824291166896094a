import AutomaticCache.Cache.Calls
import Mathlib.Data.Finmap

/-!
# The caches under concurrent calls

Each cache as a store of `CacheAside` with the programs of its methods: a lookup and a put are one
step each, which is what the store's own lock, or the memcached server, makes of them. The programs
are those of a design (`program_eq`), so that what holds of the design in every run holds of the
code.
-/

namespace AutomaticCache

open Bytes CacheAside

/-- A call of `Get` or `Put`, with what its initializer will return. -/
abbrev CacheCall := Call Bytes Object GoError

/-- Programs against a store whose lookups fail with a `δ`. -/
abbrev CacheM (δ : Type) := Prog (Op Bytes Object) (Op.Ans δ GoError)

/-- An initializer that will return `r`. -/
def initializerOf {δ : Type} (r : Except GoError Object) : Initializer (CacheM δ) := do
  Prog.perform Op.initializer
  return r

/-- The store as one operation each. -/
def storeOps : StoreOps (CacheM GoError) where
  get := fun key => .perform (Op.lookup key)
  put := fun o => .perform (Op.store o)
  goPut := fun o => .perform (Op.spawn o)

namespace BigcacheWrapper

def store {σ : Type} (bc : Backend σ Gob.Message) : Store σ Bytes Object GoError GoError where
  keyOf := Object.key
  lookup := BigcacheWrapper.get bc
  put := BigcacheWrapper.put bc

def program : CacheCall → CacheM GoError (Result Object GoError)
  | .get key init => do return (← Get storeOps key (init.map initializerOf)).map some
  | .put o => do return (← Put storeOps o).map fun _ => none

def design : Design Bytes Object GoError where
  nilFirst := true
  nilError := fun _ => errInitializerNil
  initError := fun err => err
  background := true
  unstored := fun _ err => .error err
  notPut := .error

theorem program_eq (call : CacheCall) : program call = design.program GoError (.start call) := by
  cases call with
  | get key init =>
    refine congrArg (Prog.op (Op.lookup key)) (funext fun r => ?_)
    cases r with
    | ok o => rfl
    | error e =>
      cases init with
      | none => rfl
      | some r =>
        refine congrArg (Prog.op (Op.lookup key)) (funext fun r' => ?_)
        cases r' with
        | ok o => rfl
        | error e => exact congrArg (Prog.op Op.initializer) (funext fun _ => by cases r <;> rfl)
  | put o =>
    refine congrArg (Prog.op (Op.store o)) (funext fun r : Except GoError Unit => ?_)
    cases r <;> rfl

end BigcacheWrapper

namespace MemcachedClient

def store {σ : Type} (client : Backend σ Item) (ttl : ℤ) :
    Store σ Bytes Object GoError GoError where
  keyOf := Object.key
  lookup := MemcachedClient.get client
  put := fun s o => MemcachedClient.set client ttl s (some o)

def program : CacheCall → CacheM GoError (Result Object GoError)
  | .get key init => do return (← Get storeOps key (init.map initializerOf)).map some
  | .put o => do return (← Put storeOps o).map fun _ => none

def design : Design Bytes Object GoError where
  nilFirst := true
  nilError := fun _ => errInitializerNil
  initError := wrapError errInitializer
  background := false
  unstored := fun _ err => .error err
  notPut := .error

theorem program_eq (call : CacheCall) : program call = design.program GoError (.start call) := by
  cases call with
  | get key init =>
    refine congrArg (Prog.op (Op.lookup key)) (funext fun r => ?_)
    cases r with
    | ok o => rfl
    | error e =>
      cases init with
      | none => rfl
      | some r =>
        refine congrArg (Prog.op (Op.lookup key)) (funext fun r' => ?_)
        cases r' with
        | ok o => rfl
        | error e =>
          refine congrArg (Prog.op Op.initializer) (funext fun _ => ?_)
          cases r with
          | error err => rfl
          | ok obj => exact congrArg (Prog.op (Op.store obj)) (funext fun r => by cases r <;> rfl)
  | put o =>
    refine congrArg (Prog.op (Op.store o)) (funext fun r : Except GoError Unit => ?_)
    cases r <;> rfl

end MemcachedClient

namespace DummyPrinterCache

/-- The map of the cache. -/
abbrev Objects := Finmap fun _ : Bytes => Object

def get (store : Objects) (key : Bytes) : Option Object := store.lookup key

def put (store : Objects) (o : Object) : Objects := store.insert o.key o

/-- A lookup says nothing of a key that does not exist, and a put does not fail. -/
def store : Store Objects Bytes Object Unit GoError where
  keyOf := Object.key
  lookup := fun s key => (get s key).elim (.error ()) .ok
  put := fun s o => .ok (put s o)

theorem lookup_put (s : Objects) (o : Object) : store.lookup (put s o) o.key = .ok o := by
  unfold store get put
  dsimp only
  rw [Finmap.lookup_insert]
  rfl

theorem lookup_put_of_ne (s : Objects) (o : Object) {key : Bytes} (h : key ≠ o.key) :
    store.lookup (put s o) key = store.lookup s key := by
  unfold store get put
  dsimp only
  rw [Finmap.lookup_insert_of_ne _ h]

def ops : Ops (CacheM Unit) where
  get := fun key => .op (Op.lookup key) fun r : Except Unit Object => .ret r.toOption
  put := fun o => .op (Op.store o) fun _ => .ret ()

def program : CacheCall → CacheM Unit (Result Object GoError)
  | .get key init => do return (← Get ops key (init.map initializerOf)).map some
  | .put o => do return (← Put ops o).map fun _ => none

def design : Design Bytes Object GoError where
  nilFirst := false
  nilError := notFound
  initError := fun err => err
  background := false
  unstored := fun o _ => .ok o
  notPut := fun _ => .ok none

theorem program_eq (call : CacheCall) : program call = design.program Unit (.start call) := by
  cases call with
  | get key init =>
    refine congrArg (Prog.op (Op.lookup key)) (funext fun r => ?_)
    cases r with
    | ok o => rfl
    | error e =>
      refine congrArg (Prog.op (Op.lookup key)) (funext fun r' => ?_)
      cases r' with
      | ok o => rfl
      | error e =>
        cases init with
        | none => rfl
        | some r =>
          refine congrArg (Prog.op Op.initializer) (funext fun _ => ?_)
          cases r with
          | error err => rfl
          | ok obj => exact congrArg (Prog.op (Op.store obj)) (funext fun r => by cases r <;> rfl)
  | put o =>
    refine congrArg (Prog.op (Op.store o)) (funext fun r : Except GoError Unit => ?_)
    cases r <;> rfl

end DummyPrinterCache

namespace FakePasstroughCache

/-- There is nothing in it, and nothing gets in. -/
def store : Store Unit Bytes Object Unit GoError where
  keyOf := Object.key
  lookup := fun _ key => (get key).elim (.error ()) .ok
  put := fun s _ => .ok s

def program : CacheCall → CacheM Unit (Result Object GoError)
  | .get key init => do return (← Get key (init.map initializerOf)).map some
  | .put o => do return (← Put o).map fun _ => none

end FakePasstroughCache

end AutomaticCache
