import Koval.Sql.Table

/-!
This module contains what the changes of a table keep for all of its rows, and which keys they keep.
-/

namespace Table

variable {ρ : Type u} {κ : Type v} {key : ρ → κ} [DecidableEq κ] {P : ρ → Prop}
  {table table' : Table key} {row : ρ} {change : ρ → ρ}

theorem forall_of_insert? (h : table.insert? row = some table') (hall : ∀ old ∈ table.rows, P old)
    (hrow : P row)
    : ∀ old ∈ table'.rows, P old := by
  intro old hold
  rw [rows_of_insert? h, List.mem_append, List.mem_singleton] at hold
  rcases hold with hold | rfl
  . exact hall old hold
  . exact hrow

theorem forall_replace (hall : ∀ old ∈ table.rows, P old) (hrow : P row)
    : ∀ old ∈ (table.replace row).rows, P old := by
  intro old hold
  rcases mem_or_eq_of_mem_replace hold with hold | rfl
  . exact hall old hold
  . exact hrow

theorem forall_updateKey {k : κ} (hkey : ∀ row, key (change row) = key row)
    (hall : ∀ old ∈ table.rows, P old) (hchange : ∀ old, P old → P (change old))
    : ∀ old ∈ (table.updateKey k change hkey).rows, P old := by
  intro row hrow
  rcases exists_of_mem_updateKey hkey hrow with ⟨old, hold, rfl⟩
  split
  . exact hchange old (hall old hold)
  . exact hall old hold

theorem forall_upsert {hkey : ∀ row, key (change row) = key row} (hall : ∀ old ∈ table.rows, P old)
    (hrow : P row) (hchange : ∀ old, P old → P (change old))
    : ∀ old ∈ (table.upsert row change hkey).rows, P old := by
  intro old hold
  unfold upsert at hold
  split at hold
  . next hinsert => exact forall_of_insert? hinsert hall hrow old hold
  . exact forall_updateKey hkey hall hchange old hold

theorem contains_iff {k : κ} : table.contains k ↔ ∃ row, table.find? k = some row := by
  unfold contains
  rw [Option.isSome_iff_exists]

theorem contains_of_insert? (h : table.insert? row = some table') {k : κ} (hk : table.contains k)
    : table'.contains k := by
  rw [contains_iff] at hk ⊢
  rcases hk with ⟨old, hold⟩
  rw [find?_of_insert? h]
  split
  . exact ⟨row, rfl⟩
  . exact ⟨old, hold⟩

theorem contains_key_of_insert? (h : table.insert? row = some table') : table'.contains (key row) := by
  rw [contains_iff, find?_of_insert? h, if_pos rfl]
  exact ⟨row, rfl⟩

theorem contains_replace {k : κ} (hk : table.contains k) : (table.replace row).contains k := by
  rw [contains_iff] at hk ⊢
  rcases hk with ⟨old, hold⟩
  rw [find?_replace]
  split
  . exact ⟨row, rfl⟩
  . exact ⟨old, hold⟩

theorem find?_of_insert?_of_some (h : table.insert? row = some table') {k : κ} {old : ρ}
    (hold : table.find? k = some old)
    : table'.find? k = some old := by
  rw [find?_of_insert? h, if_neg]
  . exact hold
  . rintro rfl
    rw [find?_fresh_of_insert? h] at hold
    contradiction

theorem find?_updateKey_of_some {k k' : κ} (hkey : ∀ row, key (change row) = key row) {old : ρ}
    (hold : table.find? k' = some old)
    : (table.updateKey k change hkey).find? k' = some (if k' = k then change old else old) := by
  rw [find?_updateKey]
  split
  . rw [hold]
    rfl
  . exact hold

end Table
