import Mathlib.Data.List.Basic
import Mathlib.Order.Lattice

/-!
This module contains ranks: how many elements of a list are earlier than a given time.
-/

namespace Rank

variable {α : Type u} {τ : Type v} [LinearOrder τ] {time : α → τ} {xs : List α}

def rank (time : α → τ) (xs : List α) (t : τ) : Nat := xs.countP fun x => time x < t

theorem rank_cons (x : α) (xs : List α) (t : τ)
    : rank time (x :: xs) t = rank time xs t + if time x < t then 1 else 0 := by
  unfold rank
  rw [List.countP_cons]
  simp only [decide_eq_true_eq]

theorem rank_mono (xs : List α) {t t' : τ} (h : t ≤ t') : rank time xs t ≤ rank time xs t' := by
  apply List.countP_mono_left
  intro x _ hlt
  rw [decide_eq_true_eq] at *
  exact lt_of_lt_of_le hlt h

theorem rank_eq_zero {t : τ} (h : ∀ x ∈ xs, t ≤ time x) : rank time xs t = 0 := by
  unfold rank
  rw [List.countP_eq_zero]
  intro x hx
  rw [decide_eq_true_eq]
  exact not_lt_of_ge (h x hx)

theorem rank_eq_of_pairwise (h : xs.Pairwise fun x y => time x < time y) {i : Nat} {x : α}
    (hx : xs[i]? = some x)
    : rank time xs (time x) = i := by
  induction xs generalizing i with
  | nil => contradiction
  | cons y xs ih =>
    rw [List.pairwise_cons] at h
    rw [rank_cons]
    cases i with
    | zero =>
      rw [List.getElem?_cons_zero] at hx
      injection hx with hx
      rw [hx] at h
      rw [hx, if_neg (lt_irrefl _), Nat.add_zero]
      exact rank_eq_zero fun z hz => le_of_lt (h.left z hz)
    | succ i =>
      rw [List.getElem?_cons_succ] at hx
      rw [ih h.right hx, if_pos (h.left x (List.mem_of_getElem? hx))]

theorem forall_rank_eq_iff
    : (∀ i x, xs[i]? = some x → rank time xs (time x) = i)
        ↔
      xs.Pairwise fun x y => time x < time y := by
  constructor
  . intro h
    rw [List.pairwise_iff_getElem]
    intro i j hi hj hlt
    by_contra hnot
    have hle := @rank_mono _ _ _ time xs _ _ (not_lt.mp hnot)
    rw [h j _ (List.getElem?_eq_getElem hj), h i _ (List.getElem?_eq_getElem hi)] at hle
    omega
  . intro h i x hx
    exact rank_eq_of_pairwise h hx

end Rank
