import Mathlib.Data.List.Nodup

/-!
This module contains what following pointers around a cycle reaches.
-/

namespace Chase

variable {α : Type} {next : α → Option α} {order : List α}

def follow (next : α → Option α) (steps : Nat) (curr : α) : Option α :=
  match steps with
  | 0 => some curr
  | steps + 1 =>
    match next curr with
    | some curr => follow next steps curr
    | none => none

structure IsCycle (next : α → Option α) (order : List α) : Prop where
  nodup : order.Nodup
  step : ∀ i (h : i < order.length), next order[i] = order[(i + 1) % order.length]?

theorem IsCycle.follow_getElem (h : IsCycle next order) (steps i : Nat) (hi : i < order.length)
    : follow next steps order[i] = order[(i + steps) % order.length]? := by
  induction steps generalizing i with
  | zero =>
    rw [Nat.add_zero, Nat.mod_eq_of_lt hi, List.getElem?_eq_getElem hi]
    rfl
  | succ steps ih =>
    have hnext : (i + 1) % order.length < order.length := Nat.mod_lt _ (by omega)
    have hmod : ((i + 1) % order.length + steps) % order.length
        = (i + (steps + 1)) % order.length := by
      rw [Nat.mod_add_mod, Nat.add_right_comm, Nat.add_assoc]
    rw [follow, h.step i hi, List.getElem?_eq_getElem hnext]
    dsimp only
    rw [ih _ hnext, hmod]

section Head

variable (hpos : 0 < order.length)
include hpos

theorem IsCycle.follow_head (h : IsCycle next order) (steps : Nat)
    : follow next steps order[0] = order[steps % order.length]? := by
  rw [h.follow_getElem steps 0 hpos, Nat.zero_add]

theorem IsCycle.exists_follow_head (h : IsCycle next order) (steps : Nat)
    : ∃ x ∈ order, follow next steps order[0] = some x := by
  have hlt : steps % order.length < order.length := Nat.mod_lt _ hpos
  refine ⟨order[steps % order.length], List.getElem_mem hlt, ?_⟩
  rw [h.follow_head hpos, List.getElem?_eq_getElem hlt]

theorem IsCycle.existsUnique_follow_head (h : IsCycle next order) {x : α} (hx : x ∈ order)
    : ∃! steps, steps < order.length ∧ follow next steps order[0] = some x := by
  rcases List.mem_iff_getElem.mp hx with ⟨i, hi, rfl⟩
  refine ⟨i, ⟨hi, ?_⟩, ?_⟩
  . rw [h.follow_head hpos, Nat.mod_eq_of_lt hi, List.getElem?_eq_getElem hi]
  . rintro steps ⟨hlt, hfollow⟩
    rw [h.follow_head hpos, Nat.mod_eq_of_lt hlt, List.getElem?_eq_getElem hlt] at hfollow
    injection hfollow with hfollow
    exact (List.Nodup.getElem_inj_iff h.nodup).mp hfollow

theorem IsCycle.follow_head_eq_head_iff (h : IsCycle next order) (steps : Nat)
    : follow next steps order[0] = some order[0] ↔ order.length ∣ steps := by
  have hlt : steps % order.length < order.length := Nat.mod_lt _ hpos
  rw [h.follow_head hpos, List.getElem?_eq_getElem hlt, Option.some.injEq,
    List.Nodup.getElem_inj_iff h.nodup, Nat.dvd_iff_mod_eq_zero]

end Head

end Chase
