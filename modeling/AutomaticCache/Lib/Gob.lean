import AutomaticCache.Lib.Bytes
import Mathlib.Data.Finmap

/-!
# Gob messages

The encoding of a struct with `encoding/gob`, as the list of the fields it transmits. A pointer is
flattened to what it points to; a nil pointer, a nil map, an empty string and an empty byte slice
are not transmitted. A field that a message lacks decodes to its zero value, so that a pointer to an
empty slice comes back as nil (`readBytes_bytesField`).
-/

namespace Gob

/-- `map[string][]string`, where it is not nil. -/
abbrev StringMap := Finmap fun _ : Bytes => List Bytes

inductive Value
  | string (s : Bytes)
  | bytes (b : Bytes)
  | map (m : StringMap)
  deriving DecidableEq

/-- The transmitted fields, by name. -/
abbrev Message := List (Bytes × Value)

def stringField (name s : Bytes) : Message := if s = [] then [] else [(name, .string s)]

/-- A field of type `*[]byte`. -/
def bytesField (name : Bytes) : Option Bytes → Message
  | none => []
  | some b => if b = [] then [] else [(name, .bytes b)]

def mapField (name : Bytes) : Option StringMap → Message
  | none => []
  | some m => [(name, .map m)]

/-- The field has another type in the message than in the struct. -/
def typeMismatch : GoError := .new "gob: type mismatch in decoder"

def readString (name : Bytes) (msg : Message) : Except GoError Bytes :=
  match msg.lookup name with
  | none => .ok []
  | some (.string s) => .ok s
  | some _ => .error typeMismatch

def readBytes (name : Bytes) (msg : Message) : Except GoError (Option Bytes) :=
  match msg.lookup name with
  | none => .ok none
  | some (.bytes b) => .ok (some b)
  | some _ => .error typeMismatch

def readMap (name : Bytes) (msg : Message) : Except GoError (Option StringMap) :=
  match msg.lookup name with
  | none => .ok none
  | some (.map m) => .ok (some m)
  | some _ => .error typeMismatch

variable {name name' : Bytes} (msg : Message)

theorem lookup_cons_of_ne {v : Value} (h : name' ≠ name) :
    ((name, v) :: msg).lookup name' = msg.lookup name' := by
  rw [List.lookup_cons, beq_false_of_ne h]

/-! ## A field is not seen under another name -/

theorem lookup_stringField (s : Bytes) (h : name' ≠ name) :
    (stringField name s ++ msg).lookup name' = msg.lookup name' := by
  unfold stringField
  split_ifs
  · rfl
  · exact lookup_cons_of_ne msg h

theorem lookup_bytesField (b : Option Bytes) (h : name' ≠ name) :
    (bytesField name b ++ msg).lookup name' = msg.lookup name' := by
  cases b with
  | none => rfl
  | some b =>
    unfold bytesField
    dsimp only
    split_ifs
    · rfl
    · exact lookup_cons_of_ne msg h

/-! ## A field under its own name -/

theorem readString_stringField (s : Bytes) (h : msg.lookup name = none) :
    readString name (stringField name s ++ msg) = .ok s := by
  unfold readString stringField
  split_ifs with hs
  · rw [List.nil_append, h, hs]
  · rw [List.cons_append, List.lookup_cons, beq_self_eq_true]

/-- An empty slice is lost with the pointer to it. -/
theorem readBytes_bytesField (b : Option Bytes) (h : msg.lookup name = none) :
    readBytes name (bytesField name b ++ msg) = .ok (b.filter (· ≠ [])) := by
  unfold readBytes
  cases b with
  | none => rw [bytesField, List.nil_append, h]; rfl
  | some b =>
    unfold bytesField
    dsimp only
    split_ifs with hb
    · rw [List.nil_append, h, hb]; rfl
    · rw [List.cons_append, List.lookup_cons, beq_self_eq_true, Option.filter_some,
        if_pos (decide_eq_true hb)]

theorem readMap_mapField (name : Bytes) (m : Option StringMap) :
    readMap name (mapField name m) = .ok m := by
  unfold readMap
  cases m with
  | none => rfl
  | some m => rw [mapField, List.lookup_cons, beq_self_eq_true]

end Gob
