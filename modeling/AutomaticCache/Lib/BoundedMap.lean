import Mathlib.Data.Finmap

/-!
# Finite maps of bounded size

A `BoundedMap κ ν cap` holds at most `cap` keys, by a field. Writing a new key into a full map
fails and changes nothing; writing a key that is present replaces its value at any size.
-/

/-- A finite map with at most `cap` keys. -/
structure BoundedMap (κ ν : Type) (cap : ℕ) where
  entries : Finmap fun _ : κ => ν
  bound : entries.keys.card ≤ cap

namespace BoundedMap

variable {κ ν : Type} {cap : ℕ}

@[ext] theorem ext_entries {m m' : BoundedMap κ ν cap} (h : m.entries = m'.entries) : m = m' := by
  cases m; cases m'; cases h; rfl

instance [DecidableEq κ] [DecidableEq ν] : DecidableEq (BoundedMap κ ν cap) := fun m m' =>
  decidable_of_iff (m.entries = m'.entries) ⟨ext_entries, fun h => h ▸ rfl⟩

instance : EmptyCollection (BoundedMap κ ν cap) :=
  ⟨⟨∅, by rw [Finmap.keys_empty, Finset.card_empty]; exact Nat.zero_le _⟩⟩

/-- As many keys as the map may hold. -/
def Full (m : BoundedMap κ ν cap) : Prop := cap ≤ m.entries.keys.card

instance (m : BoundedMap κ ν cap) : Decidable m.Full := by unfold Full; infer_instance

variable [DecidableEq κ]

/-- The value at `k`. -/
def lookup (m : BoundedMap κ ν cap) (k : κ) : Option ν := m.entries.lookup k

/-- `k` has a value. -/
instance : Membership κ (BoundedMap κ ν cap) := ⟨fun m k => m.lookup k ≠ none⟩

instance (m : BoundedMap κ ν cap) (k : κ) : Decidable (k ∈ m) :=
  inferInstanceAs (Decidable (m.lookup k ≠ none))

/-- Can a value be written at `k`? -/
def Admits (m : BoundedMap κ ν cap) (k : κ) : Prop := k ∈ m ∨ ¬ m.Full

instance (m : BoundedMap κ ν cap) (k : κ) : Decidable (m.Admits k) := by
  unfold Admits; infer_instance

theorem mem_iff_lookup {m : BoundedMap κ ν cap} {k : κ} : k ∈ m ↔ m.lookup k ≠ none :=
  Iff.rfl

theorem mem_of_lookup {m : BoundedMap κ ν cap} {k : κ} {v : ν} (h : m.lookup k = some v) :
    k ∈ m := by
  rw [mem_iff_lookup, h]; exact Option.some_ne_none v

theorem mem_iff_exists {m : BoundedMap κ ν cap} {k : κ} :
    k ∈ m ↔ ∃ v, m.lookup k = some v :=
  Option.ne_none_iff_exists'

theorem mem_iff_keys {m : BoundedMap κ ν cap} {k : κ} : k ∈ m ↔ k ∈ m.entries.keys := by
  rw [mem_iff_lookup, Finmap.mem_keys, ← Finmap.lookup_isSome, Option.isSome_iff_ne_none]; rfl

@[simp] theorem lookup_empty (k : κ) : (∅ : BoundedMap κ ν cap).lookup k = none :=
  Finmap.lookup_empty k

@[simp] theorem notMem_empty (k : κ) : k ∉ (∅ : BoundedMap κ ν cap) :=
  fun h => h (lookup_empty k)

theorem ext_lookup {m m' : BoundedMap κ ν cap} (h : ∀ k, m.lookup k = m'.lookup k) : m = m' :=
  ext_entries (Finmap.ext_lookup h)

/-- A map no key belongs to is empty. -/
theorem eq_empty {m : BoundedMap κ ν cap} (h : ∀ k, k ∉ m) : m = ∅ :=
  ext_lookup fun k => by rw [lookup_empty]; exact not_not.1 (h k)

theorem keys_insert (m : BoundedMap κ ν cap) (k : κ) (v : ν) :
    (m.entries.insert k v).keys = insert k m.entries.keys := by
  ext x
  rw [Finmap.mem_keys, Finmap.mem_insert, Finset.mem_insert, Finmap.mem_keys]

/-- Write `v` at `k`; `none` when `k` is new and the map is full. -/
def update (m : BoundedMap κ ν cap) (k : κ) (v : ν) : Option (BoundedMap κ ν cap) :=
  if h : m.Admits k then
    some ⟨m.entries.insert k v, by
      rw [keys_insert]
      rcases h with h | h
      · rw [Finset.insert_eq_of_mem (mem_iff_keys.1 h)]; exact m.bound
      · exact (Finset.card_insert_le _ _).trans (Nat.lt_of_not_le h)⟩
  else none

/-- Remove `k`. -/
def delete (m : BoundedMap κ ν cap) (k : κ) : BoundedMap κ ν cap :=
  ⟨m.entries.erase k, by
    rw [Finmap.keys_erase]; exact (Finset.card_erase_le).trans m.bound⟩

/-! ## Writing -/

theorem update_eq_none {m : BoundedMap κ ν cap} {k : κ} {v : ν} :
    m.update k v = none ↔ ¬ m.Admits k := by
  unfold update; split_ifs with h <;> simp [h]

theorem lookup_update {m m' : BoundedMap κ ν cap} {k : κ} {v : ν} (h : m.update k v = some m') :
    m'.lookup k = some v := by
  unfold update at h
  split_ifs at h with hk
  obtain rfl := Option.some.inj h
  exact Finmap.lookup_insert _

theorem lookup_update_of_ne {m m' : BoundedMap κ ν cap} {k k' : κ} {v : ν}
    (h : m.update k v = some m') (hne : k' ≠ k) : m'.lookup k' = m.lookup k' := by
  unfold update at h
  split_ifs at h with hk
  obtain rfl := Option.some.inj h
  exact Finmap.lookup_insert_of_ne _ hne

/-- A new key takes one more place. -/
theorem card_update {m m' : BoundedMap κ ν cap} {k : κ} {v : ν} (h : m.update k v = some m')
    (hk : k ∉ m) : m'.entries.keys.card = m.entries.keys.card + 1 := by
  unfold update at h
  split_ifs at h with hadm
  obtain rfl := Option.some.inj h
  rw [keys_insert, Finset.card_insert_of_notMem fun hm => hk (mem_iff_keys.2 hm)]

/-- The map after an attempt to write `v` at `k` whose failure nobody looks at. -/
def put (m : BoundedMap κ ν cap) (k : κ) (v : ν) : BoundedMap κ ν cap := (m.update k v).getD m

theorem lookup_put {m : BoundedMap κ ν cap} {k : κ} (v : ν) (h : m.Admits k) :
    (m.put k v).lookup k = some v := by
  unfold put
  cases hu : m.update k v with
  | none => exact absurd h (update_eq_none.1 hu)
  | some m' => exact lookup_update hu

theorem lookup_put_of_ne {m : BoundedMap κ ν cap} {k k' : κ} (v : ν) (hne : k' ≠ k) :
    (m.put k v).lookup k' = m.lookup k' := by
  unfold put
  cases hu : m.update k v with
  | none => rfl
  | some m' => exact lookup_update_of_ne hu hne

theorem put_eq_self {m : BoundedMap κ ν cap} {k : κ} (v : ν) (h : ¬ m.Admits k) :
    m.put k v = m := by
  unfold put; rw [update_eq_none.2 h]; rfl

/-- After an attempted write of a key that was absent, the key is there or nothing changed. -/
theorem lookup_put_cases (m : BoundedMap κ ν cap) (k : κ) (v : ν) :
    (m.put k v).lookup k = some v ∨ m.put k v = m := by
  by_cases h : m.Admits k
  · exact Or.inl (lookup_put v h)
  · exact Or.inr (put_eq_self v h)

/-- A key of the map after an attempted write is the written one or was there before. -/
theorem mem_of_mem_put {m : BoundedMap κ ν cap} {k k' : κ} {v : ν} (h : k' ∈ m.put k v) :
    k' = k ∨ k' ∈ m := by
  by_cases hk : k' = k
  · exact Or.inl hk
  · rw [mem_iff_lookup, lookup_put_of_ne v hk] at h
    exact Or.inr h

theorem mem_put_of_mem {m : BoundedMap κ ν cap} {k k' : κ} (v : ν) (h : k' ∈ m) :
    k' ∈ m.put k v := by
  by_cases hk : k' = k
  · subst hk; exact mem_of_lookup (lookup_put v (Or.inl h))
  · rwa [mem_iff_lookup, lookup_put_of_ne v hk]

/-- A write takes one more place at most. -/
theorem card_put_le (m : BoundedMap κ ν cap) (k : κ) (v : ν) :
    (m.put k v).entries.keys.card ≤ m.entries.keys.card + 1 := by
  unfold put update
  split_ifs with h
  · show (m.entries.insert k v).keys.card ≤ _
    rw [keys_insert]
    exact Finset.card_insert_le _ _
  · exact Nat.le_succ _

/-- Where there is room, every key is admitted. -/
theorem admits_of_card_lt {m : BoundedMap κ ν cap} (h : m.entries.keys.card < cap) (k : κ) :
    m.Admits k := Or.inr (Nat.not_le.2 h)

/-! ## Removing -/

@[simp] theorem lookup_delete (m : BoundedMap κ ν cap) (k : κ) : (m.delete k).lookup k = none :=
  Finmap.lookup_erase k _

theorem lookup_delete_of_ne {m : BoundedMap κ ν cap} {k k' : κ} (hne : k' ≠ k) :
    (m.delete k).lookup k' = m.lookup k' :=
  Finmap.lookup_erase_ne hne

theorem mem_delete {m : BoundedMap κ ν cap} {k k' : κ} :
    k' ∈ m.delete k ↔ k' ≠ k ∧ k' ∈ m := by
  by_cases h : k' = k
  · subst h
    rw [mem_iff_lookup, lookup_delete]
    exact ⟨fun h => absurd rfl h, fun h => absurd rfl h.1⟩
  · rw [mem_iff_lookup, lookup_delete_of_ne h]
    exact ⟨fun hm => ⟨h, hm⟩, And.right⟩

theorem card_delete_le (m : BoundedMap κ ν cap) (k : κ) :
    (m.delete k).entries.keys.card ≤ m.entries.keys.card := by
  show (m.entries.erase k).keys.card ≤ _
  rw [Finmap.keys_erase]
  exact Finset.card_erase_le

/-- Removing a key that has a value changes the map. -/
theorem delete_ne_self {m : BoundedMap κ ν cap} {k : κ} (h : k ∈ m) : m.delete k ≠ m := by
  intro he
  rw [← he] at h
  exact h (lookup_delete m k)

end BoundedMap
