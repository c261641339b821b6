import Mathlib.Data.List.Basic

/-!
This module contains bounded pipes.
-/

structure Pipe (α : Type u) (capacity : Nat) where
  content : List α
  length_le : content.length ≤ capacity

namespace Pipe

variable {α : Type u} {capacity : Nat}

def empty : Pipe α capacity := ⟨[], Nat.zero_le capacity⟩

def write? (pipe : Pipe α capacity) (a : α) : Option (Pipe α capacity) :=
  if h : pipe.content.length < capacity then
    some {
      content := pipe.content ++ [a]
      length_le := by
        rw [List.length_append]
        exact h
    }
  else
    none

def drop (pipe : Pipe α capacity) (n : Nat) : Pipe α capacity where
  content := pipe.content.drop n
  length_le := by
    rw [List.length_drop]
    exact Nat.le_trans (Nat.sub_le _ _) pipe.length_le

theorem content_of_write? {pipe pipe' : Pipe α capacity} {a : α} (h : pipe.write? a = some pipe')
    : pipe'.content = pipe.content ++ [a] := by
  unfold write? at h
  split at h
  . injection h with h
    rw [← h]
  . contradiction

theorem write?_isSome_iff (pipe : Pipe α capacity) (a : α)
    : (pipe.write? a).isSome ↔ pipe.content.length < capacity := by
  unfold write?
  split
  . simpa
  . next h => simpa using Nat.not_lt.mp h

end Pipe
