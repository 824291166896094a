import AutomaticCache.Lib.Bytes
import Mathlib.Data.List.Flatten
import Mathlib.Data.List.Forall2

/-!
# Tables as text

A table is printed row by row: one symbol stands between the fields of a row, another one ends it.
Nothing is quoted, and reading cuts the text at these symbols. What is read has the rows and fields
that were printed exactly if no field contains either symbol (`alike_read_print_iff`), and is then
the table itself (`read_print`).
-/

namespace Table

variable {α : Type*} [DecidableEq α] (sep stop : α)

def printRow (row : List (List α)) : List α := [sep].intercalate row ++ [stop]

def print (rows : List (List (List α))) : List α := rows.flatMap (printRow sep stop)

/-- What comes after the last `stop` is not a row. -/
def read (text : List α) : List (List (List α)) :=
  (text.splitOn stop).dropLast.map (List.splitOn sep)

/-- There are as many rows, and each has as many fields. -/
def Alike : List (List (List α)) → List (List (List α)) → Prop :=
  List.Forall₂ fun row row' => row.length = row'.length

/-! ## What is printed -/

theorem count_intercalate (a : α) (row : List (List α)) : ([sep].intercalate row).count a =
    row.flatten.count a + (List.replicate (row.length - 1) sep).count a := by
  induction row with
  | nil => rfl
  | cons field row ih =>
    cases row with
    | nil => simp
    | cons field' row =>
      rw [List.intercalate_cons_cons, List.flatten_cons, List.count_append, List.count_append,
        List.count_append, ih]
      simp only [List.length_cons, Nat.add_sub_cancel, List.replicate_succ, List.count_cons,
        List.count_nil]
      omega

variable {sep stop} {rows : List (List (List α))}

theorem count_sep {row : List (List α)} (hrow : row ≠ []) :
    ([sep].intercalate row).count sep + 1 = row.flatten.count sep + row.length := by
  have hlength := List.length_pos_iff.2 hrow
  rw [count_intercalate, List.count_replicate_self]
  omega

theorem count_stop (hne : sep ≠ stop) :
    (print sep stop rows).count stop = rows.flatten.flatten.count stop + rows.length := by
  induction rows with
  | nil => rfl
  | cons row rows ih =>
    have hsep : (List.replicate (row.length - 1) sep).count stop = 0 :=
      List.count_eq_zero.2 fun h => hne (List.eq_of_mem_replicate h).symm
    rw [print, List.flatMap_cons, List.count_append, ← print, ih, printRow, List.count_append,
      count_intercalate, hsep, List.count_singleton_self, List.flatten_cons, List.flatten_append,
      List.count_append, List.length_cons]
    omega

/-! ## What is read -/

variable (sep) in
theorem length_read (text : List α) : (read sep stop text).length = text.count stop := by
  rw [read, List.length_map, List.length_dropLast, Bytes.length_splitOn, Nat.add_sub_cancel]

/-- Rows that the ends of rows leave whole. -/
theorem read_print_rows (hne : sep ≠ stop) (hrows : stop ∉ rows.flatten.flatten) :
    read sep stop (print sep stop rows) = rows.map fun row =>
      ([sep].intercalate row).splitOn sep := by
  induction rows with
  | nil => rfl
  | cons row rows ih =>
    rw [List.flatten_cons, List.flatten_append, List.mem_append, not_or] at hrows
    have hrow : stop ∉ [sep].intercalate row := by
      rw [← List.count_eq_zero, count_intercalate, List.count_eq_zero.2 hrows.1, Nat.zero_add,
        List.count_eq_zero]
      exact fun h => hne (List.eq_of_mem_replicate h).symm
    rw [print, List.flatMap_cons, printRow, List.append_assoc, List.singleton_append,
      ← print, read,
      List.splitOn_append_cons_self_of_not_mem hrow, List.dropLast_cons_of_ne_nil
      (List.splitOn_ne_nil _ _), List.map_cons, List.map_cons, ← ih hrows.2, read]

theorem read_print (hne : sep ≠ stop) (hrows : ∀ row ∈ rows, row ≠ [])
    (hfields : ∀ row ∈ rows, ∀ field ∈ row, sep ∉ field ∧ stop ∉ field) :
    read sep stop (print sep stop rows) = rows := by
  have hstop : stop ∉ rows.flatten.flatten := by
    simp only [List.mem_flatten, not_exists, not_and]
    rintro field ⟨row, hrow, hfield⟩
    exact (hfields row hrow field hfield).2
  rw [read_print_rows hne hstop]
  calc rows.map (fun row => ([sep].intercalate row).splitOn sep)
    _ = rows.map id := List.map_congr_left fun row hrow =>
        List.splitOn_intercalate sep (fun field hfield => (hfields row hrow field hfield).1)
          (hrows row hrow)
    _ = rows := List.map_id rows

/-- Each symbol in a field makes one row or one field more. -/
theorem alike_read_print_iff (hne : sep ≠ stop) (hrows : ∀ row ∈ rows, row ≠ []) :
    Alike (read sep stop (print sep stop rows)) rows ↔
      ∀ row ∈ rows, ∀ field ∈ row, sep ∉ field ∧ stop ∉ field := by
  constructor
  · intro h
    have hlength := h.length_eq
    rw [length_read, count_stop hne, Nat.add_eq_right, List.count_eq_zero] at hlength
    rw [read_print_rows hne hlength, Alike, List.forall₂_map_left_iff, List.forall₂_same] at h
    intro row hrow field hfield
    have hfields := h row hrow
    rw [Bytes.length_splitOn, count_sep (hrows row hrow), Nat.add_eq_right,
      List.count_eq_zero] at hfields
    have hrow' : field ∈ rows.flatten := List.mem_flatten_of_mem hrow hfield
    exact ⟨fun h => hfields (List.mem_flatten_of_mem hfield h),
      fun h => hlength (List.mem_flatten_of_mem hrow' h)⟩
  · intro h
    rw [read_print hne hrows h]
    exact List.forall₂_refl _

end Table
