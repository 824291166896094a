import AutomaticCache.Cache.Clients
import AutomaticCache.Lib.CacheAside.Design

/-!
# Get and Put

The methods of `cache.Cache` as `BigcacheWrapper`, `MemcachedClient`, `DummyPrinterCache` and
`FakePasstroughCache` implement them, in any monad `m` with what they ask of their store. An
initializer is what it does in `m`.

In the monad of programs each method follows the design of `CacheAside`: only `BigcacheWrapper`
leaves the store of a fill to another goroutine, and only `DummyPrinterCache` looks the key up twice
before it looks at the initializer.
-/

namespace AutomaticCache

open Bytes CacheAside

/-- What the methods of a cache ask of its store: to look a key up, to store an object, and to store
one in another goroutine. -/
structure StoreOps (m : Type → Type) where
  get : Bytes → m (Except GoError Object)
  put : Object → m (Except GoError Unit)
  goPut : Object → m Unit

/-- `Initializer`, not nil. -/
abbrev Initializer (m : Type → Type) := m (Except GoError Object)

section methods

variable {m : Type → Type} [Monad m]

namespace BigcacheWrapper

variable (bw : StoreOps m)

def initializeKey (key : Bytes) (initializer : Option (Initializer m)) :
    m (Except GoError Object) :=
  match initializer with
  | none => return .error errInitializerNil
  | some initializer => do
    match ← bw.get key with
    | .error _ =>
      match ← initializer with
      | .error err => return .error err
      | .ok obj =>
        bw.goPut obj
        return .ok obj
    | .ok obj => return .ok obj

def Get (key : Bytes) (initializer : Option (Initializer m)) : m (Except GoError Object) := do
  match ← bw.get key with
  | .error _ => initializeKey bw key initializer
  | .ok data => return .ok data

/-- With what was measured, in nanoseconds, around the lookup and around `initialize`. -/
def GetTimed (now : m ℤ) (key : Bytes) (initializer : Option (Initializer m)) :
    m (Except GoError Object × ℤ × ℤ) := do
  let start ← now
  let data ← bw.get key
  let elapsed := (← now) - start
  match data with
  | .error _ =>
    let start ← now
    let obj ← initializeKey bw key initializer
    let initElapsed := (← now) - start
    return (obj, elapsed, initElapsed)
  | .ok data => return (.ok data, elapsed, 0)

def Put (o : Object) : m (Except GoError Unit) := bw.put o

end BigcacheWrapper

namespace MemcachedClient

variable (mw : StoreOps m)

def initializeKey (key : Bytes) (initializer : Option (Initializer m)) :
    m (Except GoError Object) :=
  match initializer with
  | none => return .error errInitializerNil
  | some initializer => do
    match ← mw.get key with
    | .error _ =>
      match ← initializer with
      | .error err => return .error (wrapError errInitializer err)
      | .ok obj =>
        match ← mw.put obj with
        | .error err => return .error err
        | .ok () => return .ok obj
    | .ok obj => return .ok obj

def Get (key : Bytes) (initializer : Option (Initializer m)) : m (Except GoError Object) := do
  match ← mw.get key with
  | .error _ => initializeKey mw key initializer
  | .ok obj => return .ok obj

def GetTimed (now : m ℤ) (key : Bytes) (initializer : Option (Initializer m)) :
    m (Except GoError Object × ℤ × ℤ) := do
  let start ← now
  let data ← mw.get key
  let elapsed := (← now) - start
  match data with
  | .error _ =>
    let start ← now
    let obj ← initializeKey mw key initializer
    let initElapsed := (← now) - start
    return (obj, elapsed, initElapsed)
  | .ok data => return (.ok data, elapsed, 0)

def Put (obj : Object) : m (Except GoError Unit) := mw.put obj

end MemcachedClient

namespace DummyPrinterCache

/-- What the methods ask of the map, under its lock. -/
structure Ops (m : Type → Type) where
  get : Bytes → m (Option Object)
  put : Object → m Unit

variable (dpc : Ops m)

def Put (o : Object) : m (Except GoError Unit) := do
  dpc.put o
  return .ok ()

def notFound (key : Bytes) : GoError :=
  .leaf (ascii "Object with key " ++ key ++ ascii " not found")

def initializeKey (key : Bytes) (initializer : Option (Initializer m)) :
    m (Except GoError Object) := do
  match ← dpc.get key with
  | some data => return .ok data
  | none =>
    match initializer with
    | some initializer =>
      match ← initializer with
      | .error err => return .error err
      | .ok obj =>
        let _ ← Put dpc obj
        return .ok obj
    | none => return .error (notFound key)

def Get (key : Bytes) (initializer : Option (Initializer m)) : m (Except GoError Object) := do
  match ← dpc.get key with
  | none => initializeKey dpc key initializer
  | some obj => return .ok obj

end DummyPrinterCache

namespace FakePasstroughCache

/-- It never has an object. -/
def get (_key : Bytes) : Option Object := none

def put (_o : Object) : m Unit := return

def Put (o : Object) : m (Except GoError Unit) := do
  put o
  return .ok ()

def initializeKey (key : Bytes) (initializer : Option (Initializer m)) :
    m (Except GoError Object) :=
  match get key with
  | some data => return .ok data
  | none =>
    match initializer with
    | some initializer => do
      match ← initializer with
      | .error err => return .error err
      | .ok obj =>
        put obj
        return .ok obj
    | none => return .error (DummyPrinterCache.notFound key)

def Get (key : Bytes) (initializer : Option (Initializer m)) : m (Except GoError Object) :=
  match get key with
  | none => initializeKey key initializer
  | some obj => return .ok obj

end FakePasstroughCache

end methods

end AutomaticCache
