import Mathlib.Data.List.Infix
import Mathlib.Tactic.SplitIfs

/-!
# Byte strings and errors

Go strings are byte strings. `strings.Split` at one byte is `List.splitOn`, `strings.Join` is
`List.intercalate`, and a text in the source is the list of its ASCII codes. An error is its text,
with the error it wraps, if any.
-/

abbrev Bytes := List UInt8

namespace Bytes

/-- The code of an ASCII character. -/
def byte (c : Char) : UInt8 := c.toNat.toUInt8

/-- An ASCII text. -/
def ascii (s : String) : Bytes := s.toList.map byte

/-- `strings.Contains`. -/
def contains (s sub : Bytes) : Bool := sub <:+: s

/-- A string splits into one part more than it has separators. -/
theorem length_splitOn {α : Type*} [BEq α] (sep : α) (s : List α) :
    (s.splitOn sep).length = s.count sep + 1 := by
  induction s with
  | nil => rw [List.splitOn_nil]; rfl
  | cons b s ih =>
    rw [List.splitOn_cons_eq_if_modifyHead, List.count_cons]
    split_ifs with h
    · rw [List.length_cons, ih]
    · rw [List.length_modifyHead, ih]

/-- A string has one way to be cut at its first separator. -/
theorem append_cons_inj {sep : UInt8} {a a' t t' : Bytes} (ha : sep ∉ a) (ha' : sep ∉ a') :
    a ++ sep :: t = a' ++ sep :: t' ↔ a = a' ∧ t = t' := by
  constructor
  · intro h
    induction a generalizing a' with
    | nil =>
      cases a' with
      | nil => exact ⟨rfl, (List.cons.inj h).2⟩
      | cons c a' => exact absurd ((List.cons.inj h).1 ▸ List.mem_cons_self) ha'
    | cons c a ih =>
      cases a' with
      | nil => exact absurd ((List.cons.inj h).1 ▸ List.mem_cons_self) ha
      | cons c' a' =>
        obtain ⟨rfl, htail⟩ := List.cons.inj h
        obtain ⟨rfl, rfl⟩ := ih (fun hm => ha (List.mem_cons_of_mem _ hm))
          (fun hm => ha' (List.mem_cons_of_mem _ hm)) htail
        exact ⟨rfl, rfl⟩
  · rintro ⟨rfl, rfl⟩
    rfl

end Bytes

/-- What `errors.New` and `fmt.Errorf` build: a text, and with `%w` the wrapped error. -/
inductive GoError
  | leaf (text : Bytes)
  | wrap (text : Bytes) (inner : GoError)
  deriving DecidableEq, Repr

namespace GoError

/-- `Error()`. -/
def text : GoError → Bytes
  | leaf t => t
  | wrap t _ => t

/-- The error and all that it wraps, as `errors.Unwrap` goes through it. -/
def chain : GoError → List GoError
  | leaf t => [leaf t]
  | wrap t inner => wrap t inner :: chain inner

theorem mem_chain (err : GoError) : err ∈ err.chain := by
  cases err <;> exact List.mem_cons_self

/-- `errors.New`. -/
def new (s : String) : GoError := leaf (Bytes.ascii s)

end GoError

/-- Why a goroutine, and with it the process, ends. -/
inductive Panic
  | nilDereference
  deriving DecidableEq, Repr
