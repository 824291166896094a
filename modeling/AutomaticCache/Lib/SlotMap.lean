import Mathlib.Logic.Function.Basic
import Mathlib.Tactic.SplitIfs

/-!
# Maps with value slots

A hash map whose elements live in slots `ρ` that are allocated once and reused. A lookup returns
the slot, and what is read through it is whatever the slot holds at the time of the read (`load`): a
removed element's slot keeps its value until another element is put there.

`SlotMap.get` is the map as a reader of plain values sees it. An update may put the element in any
slot that no other key occupies, its key's own included.
-/

structure SlotMap (κ ν ρ : Type) where
  index : κ → Option ρ
  /-- The key of the element in a slot, `none` where it is free. -/
  owner : ρ → Option κ
  store : ρ → ν
  coherent : ∀ k r, index k = some r ↔ owner r = some k

namespace SlotMap

variable {κ ν ρ : Type}

/-- No element yet, and every slot holds `v`. -/
def empty (v : ν) : SlotMap κ ν ρ where
  index := fun _ => none
  owner := fun _ => none
  store := fun _ => v
  coherent := fun _ _ => ⟨nofun, nofun⟩

/-- What is read through a reference to the slot. -/
def load (m : SlotMap κ ν ρ) (r : ρ) : ν := m.store r

/-- The value at `k`. -/
def get (m : SlotMap κ ν ρ) (k : κ) : Option ν := (m.index k).map m.store

/-- No other key occupies the slot. -/
def Available (m : SlotMap κ ν ρ) (k : κ) (r : ρ) : Prop :=
  m.owner r = none ∨ m.owner r = some k

theorem get_of_index {m : SlotMap κ ν ρ} {k : κ} {r : ρ} (h : m.index k = some r) :
    m.get k = some (m.load r) := by
  unfold get; rw [h]; rfl

theorem get_eq_none {m : SlotMap κ ν ρ} {k : κ} : m.get k = none ↔ m.index k = none := by
  unfold get; rw [Option.map_eq_none_iff]

theorem get_eq_some {m : SlotMap κ ν ρ} {k : κ} {v : ν} :
    m.get k = some v ↔ ∃ r, m.index k = some r ∧ m.load r = v := Option.map_eq_some_iff

variable [DecidableEq κ]

instance (m : SlotMap κ ν ρ) (k : κ) (r : ρ) : Decidable (m.Available k r) := by
  unfold Available; infer_instance

/-- Remove `k`. Its slot is free, and keeps its value. -/
def delete (m : SlotMap κ ν ρ) (k : κ) : SlotMap κ ν ρ where
  index := Function.update m.index k none
  owner := fun r => if m.owner r = some k then none else m.owner r
  store := m.store
  coherent := fun k' r => by
    by_cases hk : k' = k
    · subst hk
      rw [Function.update_self]
      split_ifs with h
      · exact ⟨nofun, nofun⟩
      · exact ⟨nofun, fun h' => absurd h' h⟩
    · rw [Function.update_of_ne hk, m.coherent]
      split_ifs with h
      · rw [h, Option.some.injEq]
        exact ⟨fun e => absurd e.symm hk, nofun⟩
      · exact Iff.rfl

@[simp] theorem get_delete (m : SlotMap κ ν ρ) (k : κ) : (m.delete k).get k = none := by
  rw [get_eq_none]; exact Function.update_self _ _ _

theorem get_delete_of_ne {m : SlotMap κ ν ρ} {k k' : κ} (h : k' ≠ k) :
    (m.delete k).get k' = m.get k' := by
  show (Function.update m.index k none k').map m.store = _
  rw [Function.update_of_ne h]; rfl

/-- Removing an element does not change what is read through any reference. -/
@[simp] theorem load_delete (m : SlotMap κ ν ρ) (k : κ) (r : ρ) :
    (m.delete k).load r = m.load r :=
  rfl

variable [DecidableEq ρ]

/-- Put `v` at `k`, in slot `r`. -/
def update (m : SlotMap κ ν ρ) (k : κ) (v : ν) (r : ρ) (h : m.Available k r) :
    SlotMap κ ν ρ where
  index := Function.update m.index k (some r)
  owner := Function.update (m.delete k).owner r (some k)
  store := Function.update m.store r v
  coherent := fun k' r' => by
    have hfree : (m.delete k).owner r = none := by
      show (if m.owner r = some k then none else m.owner r) = none
      rcases h with h | h
      · rw [h]; rfl
      · rw [if_pos h]
    by_cases hr : r' = r
    · subst hr
      rw [Function.update_self, Option.some.injEq]
      by_cases hk : k' = k
      · subst hk
        rw [Function.update_self]
        exact ⟨fun _ => rfl, fun _ => rfl⟩
      · rw [Function.update_of_ne hk]
        have hold := (m.delete k).coherent k' r'
        rw [hfree] at hold
        have hidx : (m.delete k).index k' = m.index k' := Function.update_of_ne hk _ _
        rw [hidx] at hold
        exact ⟨fun e => absurd (hold.1 e) (by simp), fun e => absurd e.symm hk⟩
    · rw [Function.update_of_ne hr, ← (m.delete k).coherent]
      by_cases hk : k' = k
      · subst hk
        rw [Function.update_self, Option.some.injEq]
        show r = r' ↔ Function.update m.index k' none k' = some r'
        rw [Function.update_self]
        exact ⟨fun e => absurd e.symm hr, nofun⟩
      · show _ ↔ Function.update m.index k none k' = some r'
        rw [Function.update_of_ne hk, Function.update_of_ne hk]

theorem get_update {m : SlotMap κ ν ρ} {k : κ} {v : ν} {r : ρ} (h : m.Available k r) :
    (m.update k v r h).get k = some v := by
  show (Function.update m.index k (some r) k).map (Function.update m.store r v) = some v
  rw [Function.update_self, Option.map_some, Function.update_self]

/-- The slot that is written belongs to no other key. -/
theorem get_update_of_ne {m : SlotMap κ ν ρ} {k k' : κ} {v : ν} {r : ρ} (h : m.Available k r)
    (hk : k' ≠ k) : (m.update k v r h).get k' = m.get k' := by
  show (Function.update m.index k (some r) k').map (Function.update m.store r v) = _
  rw [Function.update_of_ne hk]
  unfold get
  cases hi : m.index k' with
  | none => rfl
  | some r' =>
    have hr : r' ≠ r := by
      rintro rfl
      have ho := (m.coherent k' r').1 hi
      rcases h with h | h
      · rw [h] at ho; cases ho
      · rw [h, Option.some.injEq] at ho; exact hk ho.symm
    rw [Option.map_some, Option.map_some, Function.update_of_ne hr]

theorem load_update {m : SlotMap κ ν ρ} {k : κ} {v : ν} {r : ρ} (h : m.Available k r) :
    (m.update k v r h).load r = v := Function.update_self _ _ _

theorem load_update_of_ne {m : SlotMap κ ν ρ} {k : κ} {v : ν} {r r' : ρ} (h : m.Available k r)
    (hr : r' ≠ r) : (m.update k v r h).load r' = m.load r' := Function.update_of_ne hr _ _

end SlotMap
