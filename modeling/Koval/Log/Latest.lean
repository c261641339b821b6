import Mathlib.Data.List.Sort

/-!
This module contains the first elements of a sorted list: what they are, and what is left out.
-/

namespace Latest

variable {α : Type u} {β : Type v} (r : α → α → Prop) [DecidableRel r]

def latest (limit : Nat) (xs : List α) : List α := (xs.insertionSort r).take limit

variable {r} {limit : Nat} {xs : List α}

theorem mem_of_mem_latest {x : α} (h : x ∈ latest r limit xs) : x ∈ xs :=
  (List.mem_insertionSort r).mp (List.mem_of_mem_take h)

theorem length_latest (limit : Nat) (xs : List α)
    : (latest r limit xs).length = min limit xs.length := by
  unfold latest
  rw [List.length_take, List.length_insertionSort]

theorem nodup_latest {f : α → β} (h : (xs.map f).Nodup) : ((latest r limit xs).map f).Nodup := by
  have hsorted : ((xs.insertionSort r).map f).Nodup :=
    ((List.perm_insertionSort r xs).map f).nodup_iff.mpr h
  exact hsorted.sublist ((List.take_sublist _ _).map f)

variable [Std.Total r] [IsTrans α r]

theorem pairwise_latest (limit : Nat) (xs : List α) : (latest r limit xs).Pairwise r :=
  (List.pairwise_insertionSort r xs).sublist (List.take_sublist _ _)

theorem mem_latest_or {x : α} (hx : x ∈ xs)
    : x ∈ latest r limit xs ∨ (latest r limit xs).length = limit ∧ ∀ y ∈ latest r limit xs, r y x := by
  have hmem := (List.mem_insertionSort r).mpr hx
  rw [← List.take_append_drop limit (xs.insertionSort r), List.mem_append] at hmem
  rcases hmem with htake | hdrop
  . exact .inl htake
  . right
    constructor
    . have hlt := List.length_pos_of_mem hdrop
      rw [List.length_drop, List.length_insertionSort] at hlt
      rw [length_latest]
      omega
    . intro y hy
      have hsorted := List.pairwise_insertionSort r xs
      rw [← List.take_append_drop limit (xs.insertionSort r), List.pairwise_append] at hsorted
      exact hsorted.right.right y hy x hdrop

end Latest
