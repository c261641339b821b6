import Mathlib.Data.List.Basic

/-!
This module contains the arithmetic of lists that are joined with a separator.
-/

namespace Separator

variable {sep : α}

theorem append_cons_inj_left {a b x y : List α} (ha : sep ∉ a) (hb : sep ∉ b)
    : a ++ sep :: x = b ++ sep :: y ↔ a = b ∧ x = y := by
  constructor
  . intro h
    induction a generalizing b with
    | nil =>
      cases b with
      | nil => simpa using h
      | cons d b =>
        simp only [List.nil_append, List.cons_append, List.cons.injEq] at h
        simp [h.left] at hb
    | cons c a ih =>
      rw [List.mem_cons, not_or] at ha
      cases b with
      | nil =>
        simp only [List.nil_append, List.cons_append, List.cons.injEq] at h
        exact absurd h.left.symm ha.left
      | cons d b =>
        rw [List.mem_cons, not_or] at hb
        simp only [List.cons_append, List.cons.injEq] at h
        have := ih ha.right hb.right h.right
        simp [h.left, this.left, this.right]
  . rintro ⟨rfl, rfl⟩
    rfl

theorem append_cons_inj_right {a b x y : List α} (hx : sep ∉ x) (hy : sep ∉ y)
    : a ++ sep :: x = b ++ sep :: y ↔ a = b ∧ x = y := by
  constructor
  . intro h
    have := congrArg List.reverse h
    simp only [List.reverse_append, List.reverse_cons, List.append_assoc, List.cons_append,
      List.nil_append] at this
    rw [append_cons_inj_left (by simpa) (by simpa)] at this
    simpa [and_comm] using this
  . rintro ⟨rfl, rfl⟩
    rfl

end Separator
