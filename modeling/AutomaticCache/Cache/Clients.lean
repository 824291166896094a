import AutomaticCache.Cache.Object

/-!
# The cache clients

`BigcacheWrapper` and `MemcachedClient` over the stores they are clients of. A store is a `Backend`;
what the clients rely on in it is that a value that was set can be read back (`ReadsBack`).
-/

namespace AutomaticCache

open Bytes

/-- A key-value store with state `σ`. -/
structure Backend (σ ν : Type) where
  set : σ → Bytes → ν → Except GoError σ
  get : σ → Bytes → Except GoError ν

/-- What was set, and not dropped, is what a read returns. -/
def Backend.ReadsBack {σ ν : Type} (b : Backend σ ν) : Prop :=
  ∀ s k v s', b.set s k v = .ok s' → b.get s' k = .ok v

/-- Setting one key leaves what is read at the others. -/
def Backend.KeepsOthers {σ ν : Type} (b : Backend σ ν) : Prop :=
  ∀ s k v s' k', b.set s k v = .ok s' → k' ≠ k → b.get s' k' = b.get s k'

/-- Setting a valid key never fails. -/
def Backend.Accepts {σ ν : Type} (b : Backend σ ν) (valid : Bytes → Prop) : Prop :=
  ∀ s k v, valid k → ∃ s', b.set s k v = .ok s'

/-- A store that never drops anything. -/
def mapBackend (ν : Type) (miss : GoError) : Backend (Finmap fun _ : Bytes => ν) ν where
  set := fun s k v => .ok (s.insert k v)
  get := fun s k =>
    match s.lookup k with
    | none => .error miss
    | some v => .ok v

theorem mapBackend_readsBack (ν : Type) (miss : GoError) : (mapBackend ν miss).ReadsBack := by
  intro s k v s' h
  obtain rfl := Except.ok.inj h
  unfold mapBackend
  dsimp only
  rw [Finmap.lookup_insert]

theorem mapBackend_keepsOthers (ν : Type) (miss : GoError) : (mapBackend ν miss).KeepsOthers := by
  intro s k v s' k' h hne
  obtain rfl := Except.ok.inj h
  unfold mapBackend
  dsimp only
  rw [Finmap.lookup_insert_of_ne _ hne]

theorem mapBackend_accepts (ν : Type) (miss : GoError) (valid : Bytes → Prop) :
    (mapBackend ν miss).Accepts valid := fun s k v _ => ⟨s.insert k v, rfl⟩

variable {σ : Type}

/-! ## `BigcacheWrapper` -/

namespace BigcacheWrapper

/-- `bigcache.ErrEntryNotFound`. -/
def errEntryNotFound : GoError := .new "Entry not found"

def serializeObj (o : Object) : Except GoError Gob.Message := .ok o.encode

def deserializeObj (serialized : Gob.Message) : Except GoError Object := Object.decode serialized

def put (bc : Backend σ Gob.Message) (s : σ) (o : Object) : Except GoError σ :=
  match serializeObj o with
  | .error err => .error (wrapError errSerialization err)
  | .ok serializedObj => bc.set s o.key serializedObj

def get (bc : Backend σ Gob.Message) (s : σ) (key : Bytes) : Except GoError Object :=
  match bc.get s key with
  | .error err => .error err
  | .ok data =>
    match deserializeObj data with
    | .error err => .error (wrapError errDeserialization err)
    | .ok o => .ok o

/-- What was put comes back normalized. -/
theorem get_of_put {bc : Backend σ Gob.Message} (hbc : bc.ReadsBack) {s s' : σ} {o : Object}
    (h : put bc s o = .ok s') : get bc s' o.key = .ok o.normalize := by
  have hset : bc.set s o.key o.encode = .ok s' := h
  unfold get deserializeObj
  rw [hbc _ _ _ _ hset]
  dsimp only
  rw [Object.decode_encode]

end BigcacheWrapper

/-! ## `MemcachedClient` -/

/-- `memcache.Item`, without its key. -/
structure Item where
  value : Gob.Message
  expiration : ℤ
  deriving DecidableEq

namespace MemcachedClient

def serializeObj (o : Object) : Except GoError Gob.Message := .ok o.encode

def deserializeObj (serialized : Gob.Message) : Except GoError Object := Object.decode serialized

/-- The test of `get` and `Delete` on a key. -/
def invalidKey (key : Bytes) : Bool := key = [] || (key.splitOn (byte '/')).length < 3

def set (client : Backend σ Item) (ttl : ℤ) (s : σ) : Option Object → Except GoError σ
  | none => .error errObjectNil
  | some obj =>
    if obj.key = [] then .error errInvalidKey
    else if obj.data = none then .error errDataNil
    else
      match serializeObj obj with
      | .error err => .error (wrapError errSerialization err)
      | .ok serialized => client.set s obj.key ⟨serialized, ttl⟩

def get (client : Backend σ Item) (s : σ) (key : Bytes) : Except GoError Object :=
  if invalidKey key then .error errInvalidKey
  else
    match client.get s key with
    | .error err => .error err
    | .ok serialized =>
      match deserializeObj serialized.value with
      | .error err => .error (wrapError errDeserialization err)
      | .ok obj => .ok obj

/-- `memcache.ErrCacheMiss`. -/
def memcacheErrCacheMiss : GoError := .new "memcache: cache miss"

/-- `delete` is what the server does with the `Delete` of its client. -/
def Delete (delete : σ → Bytes → Except GoError σ) (s : σ) (key : Bytes) :
    Except GoError σ :=
  if invalidKey key then .error errInvalidKey
  else
    match delete s key with
    | .error err => .error (if err = memcacheErrCacheMiss then errCacheMiss else err)
    | .ok s' => .ok s'

/-- What was set under a valid key comes back normalized. -/
theorem get_of_set {client : Backend σ Item} (hclient : client.ReadsBack) {ttl : ℤ} {s s' : σ}
    {obj : Object} (hkey : invalidKey obj.key = false) (h : set client ttl s (some obj) = .ok s') :
    get client s' obj.key = .ok obj.normalize := by
  unfold set at h
  dsimp only at h
  split_ifs at h with hk hd
  have hset : client.set s obj.key ⟨obj.encode, ttl⟩ = .ok s' := h
  unfold get deserializeObj
  rw [hkey, hclient _ _ _ _ hset]
  dsimp only
  rw [Object.decode_encode]
  rfl

end MemcachedClient

end AutomaticCache
