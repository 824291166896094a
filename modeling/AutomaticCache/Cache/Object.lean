import AutomaticCache.Lib.Gob

/-!
# Cached objects

`cache.Object`, the errors of `cacheInterface.go` and the serialization that both clients use.
Storing an object keeps all of it but a pointer to an empty slice (`decode_encode`).
-/

namespace AutomaticCache

open Bytes

structure Object where
  key : Bytes
  data : Option Bytes
  originalHeaders : Option Gob.StringMap
  deriving DecidableEq

def errInitializerNil : GoError := .new "initializer is nil"
def errInvalidKey : GoError := .new "key is invalid"
def errObjectNil : GoError := .new "object is nil"
def errDataNil : GoError := .new "data is nil"
def errInitializer : GoError := .new "initializer error"
def errCacheMiss : GoError := .new "cache miss"
def errSerialization : GoError := .new "serialization error"
def errDeserialization : GoError := .new "deserialization error"

/-- `fmt.Errorf("%v: %w", outer, err)`. -/
def wrapError (outer err : GoError) : GoError := .wrap (outer.text ++ ascii ": " ++ err.text) err

namespace Object

/-- The zero `Object{}`, which decoding starts from. -/
def zero : Object := ⟨[], none, none⟩

/-- `gob.NewEncoder(..).Encode(o)`: the fields in the order of their declaration. -/
def encode (o : Object) : Gob.Message :=
  Gob.stringField (ascii "Key") o.key ++ (Gob.bytesField (ascii "Data") o.data ++
    Gob.mapField (ascii "OriginalHeaders") o.originalHeaders)

/-- `gob.NewDecoder(..).Decode(&o)` on a zero object. -/
def decode (msg : Gob.Message) : Except GoError Object := do
  let key ← Gob.readString (ascii "Key") msg
  let data ← Gob.readBytes (ascii "Data") msg
  let originalHeaders ← Gob.readMap (ascii "OriginalHeaders") msg
  return { zero with key := key, data := data, originalHeaders := originalHeaders }

/-- The object with a nil pointer for one to an empty slice. -/
def normalize (o : Object) : Object := { o with data := o.data.filter (· ≠ []) }

theorem decode_encode (o : Object) : decode o.encode = .ok o.normalize := by
  have hheaders (name : Bytes) (h : name ≠ ascii "OriginalHeaders") :
      (Gob.mapField (ascii "OriginalHeaders") o.originalHeaders).lookup name = none := by
    cases o.originalHeaders with
    | none => rfl
    | some m => exact Gob.lookup_cons_of_ne [] h
  have hkey : Gob.readString (ascii "Key") o.encode = .ok o.key := by
    refine Gob.readString_stringField _ o.key ?_
    rw [Gob.lookup_bytesField _ o.data (by decide)]
    exact hheaders _ (by decide)
  have hdata : Gob.readBytes (ascii "Data") o.encode = .ok (o.data.filter (· ≠ [])) := by
    rw [← Gob.readBytes_bytesField _ o.data (hheaders (ascii "Data") (by decide))]
    unfold Gob.readBytes encode
    rw [Gob.lookup_stringField _ o.key (by decide)]
  have hmap : Gob.readMap (ascii "OriginalHeaders") o.encode = .ok o.originalHeaders := by
    rw [← Gob.readMap_mapField (ascii "OriginalHeaders") o.originalHeaders]
    unfold Gob.readMap encode
    rw [Gob.lookup_stringField _ o.key (by decide), Gob.lookup_bytesField _ o.data (by decide)]
  unfold decode
  rw [hkey, hdata, hmap]
  rfl

end Object

end AutomaticCache
