import Mathlib.Data.List.Basic
import Mathlib.Data.List.Nodup
import Mathlib.Algebra.Order.Ring.Nat

/-!
This module contains tables with a primary key: lists of rows no two of which have the same key.
-/

structure Table {ρ : Type u} {κ : Type v} (key : ρ → κ) where
  rows : List ρ
  nodup : (rows.map key).Nodup

namespace Table

variable {ρ : Type u} {κ : Type v} {key : ρ → κ}

def empty : Table key := ⟨[], List.nodup_nil⟩

instance : Inhabited (Table key) := ⟨empty⟩

theorem eq_iff {table table' : Table key} : table = table' ↔ table.rows = table'.rows := by
  cases table
  cases table'
  simp

instance [DecidableEq ρ] : DecidableEq (Table key) := fun _ _ => decidable_of_iff' _ eq_iff

/-- `DELETE` of the rows that `keep` does not hold of. -/
def filter (table : Table key) (keep : ρ → Bool) : Table key where
  rows := table.rows.filter keep
  nodup := table.nodup.sublist (List.filter_sublist.map key)

/-- `UPDATE` of the columns outside the key. -/
def update (table : Table key) (change : ρ → ρ) (hkey : ∀ row, key (change row) = key row) :
    Table key where
  rows := table.rows.map change
  nodup := by
    have : key ∘ change = key := funext hkey
    rw [List.map_map, this]
    exact table.nodup

@[simp]
theorem rows_filter (table : Table key) (keep : ρ → Bool)
    : (table.filter keep).rows = table.rows.filter keep := rfl

@[simp]
theorem rows_update (table : Table key) (change : ρ → ρ) (hkey : ∀ row, key (change row) = key row)
    : (table.update change hkey).rows = table.rows.map change := rfl

theorem key_inj {table : Table key} {row row' : ρ} (h : row ∈ table.rows) (h' : row' ∈ table.rows)
    (hkey : key row = key row')
    : row = row' := List.inj_on_of_nodup_map table.nodup h h' hkey

/-- `SUM` of a column over the rows whose keys `p` holds of. -/
def sum (table : Table key) (column : ρ → Nat) (p : κ → Bool) : Nat :=
  ((table.rows.filter fun row => p (key row)).map column).sum

theorem sum_eq_zero {table : Table key} {p : κ → Bool} (h : ∀ row ∈ table.rows, p (key row) = false)
    (column : ρ → Nat)
    : table.sum column p = 0 := by
  have hnil : (table.rows.filter fun row => p (key row)) = [] := by
    rw [List.filter_eq_nil_iff]
    intro row hrow
    exact Bool.eq_false_iff.mp (h row hrow)
  unfold sum
  rw [hnil]
  rfl

theorem sum_filter (table : Table key) (column : ρ → Nat) (keep p : κ → Bool)
    : (table.filter fun row => keep (key row)).sum column p
        =
      table.sum column fun k => keep k && p k := by
  unfold sum
  rw [rows_filter, List.filter_filter]
  simp only [Bool.and_comm]

variable [DecidableEq κ]

def find? (table : Table key) (k : κ) : Option ρ := table.rows.find? fun row => key row = k

def contains (table : Table key) (k : κ) : Bool := (table.find? k).isSome

theorem find?_eq_some_iff {table : Table key} {k : κ} {row : ρ}
    : table.find? k = some row ↔ row ∈ table.rows ∧ key row = k := by
  unfold find?
  constructor
  . intro h
    have hkey := List.find?_some h
    rw [decide_eq_true_eq] at hkey
    exact ⟨List.mem_of_find?_eq_some h, hkey⟩
  . rintro ⟨hmem, hkey⟩
    cases hfind : table.rows.find? fun row => decide (key row = k) with
    | none =>
      rw [List.find?_eq_none] at hfind
      have := hfind row hmem
      rw [decide_eq_true_eq] at this
      contradiction
    | some found =>
      have hfound := List.find?_some hfind
      rw [decide_eq_true_eq] at hfound
      rw [key_inj (List.mem_of_find?_eq_some hfind) hmem (hfound.trans hkey.symm)]

theorem find?_eq_none_iff {table : Table key} {k : κ}
    : table.find? k = none ↔ ∀ row ∈ table.rows, key row ≠ k := by
  unfold find?
  rw [List.find?_eq_none]
  simp

theorem key_of_find? {table : Table key} {k : κ} {row : ρ} (h : table.find? k = some row)
    : key row = k := (find?_eq_some_iff.mp h).right

theorem mem_of_find? {table : Table key} {k : κ} {row : ρ} (h : table.find? k = some row)
    : row ∈ table.rows := (find?_eq_some_iff.mp h).left

theorem find?_of_mem {table : Table key} {row : ρ} (h : row ∈ table.rows)
    : table.find? (key row) = some row := find?_eq_some_iff.mpr ⟨h, rfl⟩

/-- `INSERT` of a row, which fails if there is a row with its key. -/
def insert? (table : Table key) (row : ρ) : Option (Table key) :=
  if h : table.find? (key row) = none then
    some {
      rows := table.rows ++ [row]
      nodup := by
        rw [List.map_append, List.nodup_append']
        refine ⟨table.nodup, List.nodup_singleton _, ?_⟩
        intro k hk hk'
        rw [List.mem_map] at hk
        rcases hk with ⟨old, hold, rfl⟩
        have := find?_eq_none_iff.mp h old hold
        simp at hk'
        contradiction
    }
  else
    none

/-- `INSERT OR REPLACE` of a row. -/
def replace (table : Table key) (row : ρ) : Table key where
  rows := (table.rows.filter fun old => key old ≠ key row) ++ [row]
  nodup := by
    rw [List.map_append, List.nodup_append']
    refine ⟨table.nodup.sublist (List.filter_sublist.map key), List.nodup_singleton _, ?_⟩
    intro k hk hk'
    simp at hk hk'
    rcases hk with ⟨old, ⟨_, hne⟩, rfl⟩
    contradiction

/-- `UPDATE` of the row with key `k`. -/
def updateKey (table : Table key) (k : κ) (change : ρ → ρ) (hkey : ∀ row, key (change row) = key row) :
    Table key :=
  table.update (fun row => if key row = k then change row else row) (by
    intro row
    split
    . exact hkey row
    . rfl)

/-- `INSERT` of a row, or `UPDATE` by `change` of the one that has its key. -/
def upsert (table : Table key) (row : ρ) (change : ρ → ρ)
    (hkey : ∀ row, key (change row) = key row) : Table key :=
  match table.insert? row with
  | some table => table
  | none => table.updateKey (key row) change hkey

theorem insert?_eq_none_iff {table : Table key} {row : ρ}
    : table.insert? row = none ↔ table.contains (key row) := by
  unfold insert? contains
  split
  . next h => simp [h]
  . next h => simpa [Option.isSome_iff_ne_none] using h

theorem rows_of_insert? {table table' : Table key} {row : ρ} (h : table.insert? row = some table')
    : table'.rows = table.rows ++ [row] := by
  unfold insert? at h
  split at h
  . injection h with h
    rw [← h]
  . contradiction

theorem find?_fresh_of_insert? {table table' : Table key} {row : ρ}
    (h : table.insert? row = some table')
    : table.find? (key row) = none := by
  unfold insert? at h
  split at h
  . assumption
  . contradiction

theorem find?_of_insert? {table table' : Table key} {row : ρ}
    (h : table.insert? row = some table') (k : κ)
    : table'.find? k = if k = key row then some row else table.find? k := by
  have hrows := rows_of_insert? h
  split
  . next hk =>
    rw [hk, find?_eq_some_iff, hrows]
    simp
  . next hk =>
    unfold find?
    rw [hrows, List.find?_append]
    simp [Ne.symm hk]

theorem mem_or_eq_of_mem_replace {table : Table key} {row row' : ρ}
    (h : row' ∈ (table.replace row).rows)
    : row' ∈ table.rows ∨ row' = row := by
  unfold replace at h
  rw [List.mem_append, List.mem_singleton] at h
  rcases h with h | h
  . exact .inl (List.mem_filter.mp h).left
  . exact .inr h

theorem find?_replace (table : Table key) (row : ρ) (k : κ)
    : (table.replace row).find? k = if k = key row then some row else table.find? k := by
  split
  . next hk =>
    rw [hk, find?_eq_some_iff]
    simp [replace]
  . next hk =>
    cases hfind : table.find? k with
    | none =>
      rw [find?_eq_none_iff] at hfind ⊢
      intro old hold
      simp only [replace, List.mem_append, List.mem_filter, List.mem_singleton] at hold
      rcases hold with ⟨hold, _⟩ | rfl
      . exact hfind old hold
      . exact Ne.symm hk
    | some old =>
      rw [find?_eq_some_iff] at hfind ⊢
      rcases hfind with ⟨hold, rfl⟩
      refine ⟨?_, rfl⟩
      simp [replace, hold, hk]

theorem find?_update (table : Table key) (change : ρ → ρ) (hkey : ∀ row, key (change row) = key row)
    (k : κ)
    : (table.update change hkey).find? k = (table.find? k).map change := by
  cases hfind : table.find? k with
  | none =>
    rw [find?_eq_none_iff] at hfind
    rw [Option.map_none, find?_eq_none_iff]
    intro row hrow
    rw [rows_update, List.mem_map] at hrow
    rcases hrow with ⟨old, hold, rfl⟩
    rw [hkey]
    exact hfind old hold
  | some old =>
    rw [find?_eq_some_iff] at hfind
    rw [Option.map_some, find?_eq_some_iff, rows_update, hkey]
    exact ⟨List.mem_map_of_mem hfind.left, hfind.right⟩

theorem find?_updateKey (table : Table key) (k : κ) (change : ρ → ρ)
    (hkey : ∀ row, key (change row) = key row) (k' : κ)
    : (table.updateKey k change hkey).find? k'
        =
      if k' = k then (table.find? k').map change else table.find? k' := by
  unfold updateKey
  rw [find?_update]
  cases hfind : table.find? k' with
  | none => simp
  | some row =>
    rw [Option.map_some, key_of_find? hfind]
    split <;> simp

theorem filter_updateKey (table : Table key) (k : κ) {change : ρ → ρ}
    (hkey : ∀ row, key (change row) = key row) {keep : ρ → Bool}
    (hkeep : ∀ row, keep (change row) = keep row)
    : (table.updateKey k change hkey).rows.filter keep
        =
      (table.rows.filter keep).map fun row => if key row = k then change row else row := by
  unfold updateKey
  rw [rows_update, List.filter_map]
  congr 1
  apply List.filter_congr
  intro row _
  dsimp only [Function.comp_apply]
  split
  . exact hkeep row
  . rfl

theorem filter_updateKey_eq_self {table : Table key} {k : κ} {change : ρ → ρ}
    {hkey : ∀ row, key (change row) = key row} {keep : ρ → Bool}
    (hkeep : ∀ row, keep (change row) = keep row)
    (h : ∀ row ∈ table.rows, key row = k → keep row → change row = row)
    : (table.updateKey k change hkey).rows.filter keep = table.rows.filter keep := by
  rw [filter_updateKey table k hkey hkeep]
  conv => rhs; rw [← List.map_id (table.rows.filter keep)]
  apply List.map_congr_left
  intro row hrow
  rw [List.mem_filter] at hrow
  split
  . next hk => exact h row hrow.left hk hrow.right
  . rfl

theorem filter_of_insert? {table table' : Table key} {row : ρ} (h : table.insert? row = some table')
    (keep : ρ → Bool)
    : table'.rows.filter keep = table.rows.filter keep ++ if keep row then [row] else [] := by
  rw [rows_of_insert? h, List.filter_append]
  cases hrow : keep row with
  | false => simp [hrow]
  | true => simp [hrow]

theorem find?_eq_find?_filter {table : Table key} {k : κ} {keep : ρ → Bool}
    (h : ∀ row ∈ table.rows, key row = k → keep row)
    : table.find? k = (table.rows.filter keep).find? fun row => key row = k := by
  unfold find?
  rw [List.find?_filter]
  generalize table.rows = rows at h
  induction rows with
  | nil => rfl
  | cons row rows ih =>
    rw [List.forall_mem_cons] at h
    rw [List.find?_cons, List.find?_cons, ih h.right]
    by_cases hk : key row = k
    . simp [hk, h.left hk]
    . simp [hk]

theorem exists_of_mem_updateKey {table : Table key} {k : κ} {change : ρ → ρ}
    (hkey : ∀ row, key (change row) = key row) {row : ρ}
    (h : row ∈ (table.updateKey k change hkey).rows)
    : ∃ old ∈ table.rows, row = if key old = k then change old else old := by
  unfold updateKey at h
  rw [rows_update, List.mem_map] at h
  rcases h with ⟨old, hold, hrow⟩
  exact ⟨old, hold, hrow.symm⟩

theorem exists_of_mem_upsert {table : Table key} {row row' : ρ} {change : ρ → ρ}
    {hkey : ∀ row, key (change row) = key row} (h : row' ∈ (table.upsert row change hkey).rows)
    : row' = row ∨ ∃ old ∈ table.rows, row' = old ∨ row' = change old := by
  unfold upsert at h
  split at h
  . next hinsert =>
    rw [rows_of_insert? hinsert, List.mem_append, List.mem_singleton] at h
    rcases h with hold | hnew
    . exact .inr ⟨row', hold, .inl rfl⟩
    . exact .inl hnew
  . rcases exists_of_mem_updateKey hkey h with ⟨old, hold, hrow⟩
    split at hrow
    . exact .inr ⟨old, hold, .inr hrow⟩
    . exact .inr ⟨old, hold, .inl hrow⟩

theorem sum_of_insert? {table table' : Table key} {row : ρ} (h : table.insert? row = some table')
    (column : ρ → Nat) (p : κ → Bool)
    : table'.sum column p = table.sum column p + if p (key row) then column row else 0 := by
  unfold sum
  rw [rows_of_insert? h, List.filter_append, List.map_append, List.sum_append]
  cases hp : p (key row) <;> simp [hp]

theorem sum_update_rows {rows : List ρ} (hnodup : (rows.map key).Nodup) {old : ρ} (hold : old ∈ rows)
    {change : ρ → ρ} (hkey : ∀ row, key (change row) = key row) {column : ρ → Nat} {n : Nat}
    (hcolumn : ∀ row, column (change row) = column row + n) (p : κ → Bool)
    : (((rows.map fun row => if key row = key old then change row else row).filter
          fun row => p (key row)).map column).sum
        =
      ((rows.filter fun row => p (key row)).map column).sum + if p (key old) then n else 0 := by
  induction rows with
  | nil => contradiction
  | cons row rows ih =>
    rw [List.map_cons, List.nodup_cons] at hnodup
    rw [List.map_cons, List.filter_cons, List.filter_cons]
    by_cases heq : key row = key old
    . have hrest : (rows.map fun row => if key row = key old then change row else row) = rows := by
        conv => rhs; rw [← List.map_id rows]
        apply List.map_congr_left
        intro other hother
        have : key other ≠ key old := by
          intro hother'
          apply hnodup.left
          rw [heq, ← hother']
          exact List.mem_map_of_mem hother
        rw [if_neg this]
        rfl
      rw [hrest, if_pos heq, hkey, heq]
      cases p (key old) with
      | false => simp
      | true =>
        simp only [ite_true, List.map_cons, List.sum_cons, hcolumn]
        omega
    . have hmem : old ∈ rows := by
        cases hold with
        | head => contradiction
        | tail _ hmem => exact hmem
      have ih := ih hnodup.right hmem
      rw [if_neg heq]
      cases hp : p (key row) with
      | false => simpa using ih
      | true =>
        simp only [ite_true, List.map_cons, List.sum_cons, ih]
        omega

theorem sum_upsert (table : Table key) (row : ρ) {change : ρ → ρ}
    (hkey : ∀ row, key (change row) = key row) {column : ρ → Nat}
    (hcolumn : ∀ old, column (change old) = column old + column row) (p : κ → Bool)
    : (table.upsert row change hkey).sum column p
        =
      table.sum column p + if p (key row) then column row else 0 := by
  unfold upsert
  split
  . next hinsert => exact sum_of_insert? hinsert column p
  . next hinsert =>
    rw [insert?_eq_none_iff, contains, Option.isSome_iff_exists] at hinsert
    rcases hinsert with ⟨old, hfind⟩
    unfold sum updateKey
    rw [rows_update]
    simp only [← key_of_find? hfind]
    exact sum_update_rows table.nodup (mem_of_find? hfind) hkey hcolumn p

end Table
