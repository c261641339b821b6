import Koval.Text.Lines
import Koval.Text.Utf8Lemmas
import Mathlib.Algebra.Order.Ring.Nat

/-!
This module contains how many bytes a text takes, and what the slices of it are that start with it.
-/

namespace Text

def byteSize (text : List Char) : Nat := (text.map Char.utf8Size).sum

@[simp]
theorem byteSize_cons (c : Char) (text : List Char)
    : byteSize (c :: text) = c.utf8Size + byteSize text := by
  unfold byteSize
  rw [List.map_cons, List.sum_cons]

@[simp]
theorem byteSize_append (text text' : List Char)
    : byteSize (text ++ text') = byteSize text + byteSize text' := by
  unfold byteSize
  rw [List.map_append, List.sum_append]

theorem utf8ByteSize_eq (s : String) : s.utf8ByteSize = byteSize s.toList := by
  have hlength : s.utf8ByteSize = (Utf8.encode s).length := by
    unfold Utf8.encode
    rw [Array.length_toList]
    rfl
  rw [hlength, Utf8.encode_eq_flatMap, List.length_flatMap]
  simp [byteSize]

theorem length_le_byteSize (text : List Char) : text.length ≤ byteSize text := by
  induction text with
  | nil => exact Nat.le_refl 0
  | cons c text ih =>
    have := c.utf8Size_pos
    rw [List.length_cons, byteSize_cons]
    omega

theorem byteSize_le_of_prefix {text text' : List Char} (h : text <+: text')
    : byteSize text ≤ byteSize text' := by
  rcases h with ⟨rest, rfl⟩
  rw [byteSize_append]
  omega

theorem prefix_of_byteSize_le {text pre pre' : List Char} (h : pre <+: text) (h' : pre' <+: text)
    (hle : byteSize pre ≤ byteSize pre')
    : pre <+: pre' := by
  rcases List.prefix_or_prefix_of_prefix h h' with hpre | ⟨rest, rfl⟩
  . exact hpre
  . rw [byteSize_append] at hle
    have hlength := length_le_byteSize rest
    have hrest : rest = [] := by
      rw [← List.length_eq_zero_iff]
      omega
    exact ⟨[], by simp [hrest]⟩

theorem sliceTo_zero (text : List Char) : sliceTo text 0 = some [] := by
  cases text <;> rfl

theorem sliceTo_cons (c : Char) (text : List Char) (n : Nat)
    : sliceTo (c :: text) (n + 1)
        =
      if c.utf8Size ≤ n + 1 then
        (sliceTo text (n + 1 - c.utf8Size)).map (c :: ·)
      else
        none := rfl

theorem sliceTo_eq_some_iff {text start : List Char} {n : Nat}
    : sliceTo text n = some start ↔ start <+: text ∧ byteSize start = n := by
  induction text generalizing start n with
  | nil =>
    cases n with
    | zero =>
      rw [sliceTo_zero, Option.some.injEq, List.prefix_nil]
      constructor
      . rintro rfl
        exact ⟨rfl, rfl⟩
      . intro h
        exact h.left.symm
    | succ n =>
      rw [List.prefix_nil]
      constructor
      . intro h
        contradiction
      . rintro ⟨rfl, h⟩
        contradiction
  | cons c text ih =>
    have hpos := c.utf8Size_pos
    cases n with
    | zero =>
      rw [sliceTo_zero, Option.some.injEq]
      constructor
      . rintro rfl
        exact ⟨List.nil_prefix, rfl⟩
      . rintro ⟨_, hsize⟩
        have := length_le_byteSize start
        rw [eq_comm, ← List.length_eq_zero_iff]
        omega
    | succ n =>
      rw [sliceTo_cons]
      constructor
      . intro h
        split at h
        . next hle =>
          rw [Option.map_eq_some_iff] at h
          rcases h with ⟨rest, hrest, rfl⟩
          rw [ih] at hrest
          rw [byteSize_cons, List.cons_prefix_cons]
          exact ⟨⟨rfl, hrest.left⟩, by omega⟩
        . contradiction
      . rintro ⟨hpre, hsize⟩
        cases start with
        | nil => contradiction
        | cons d rest =>
          rw [List.cons_prefix_cons] at hpre
          rcases hpre with ⟨rfl, hpre⟩
          rw [byteSize_cons] at hsize
          rw [if_pos (by omega), ih.mpr ⟨hpre, by omega⟩]
          rfl

end Text
