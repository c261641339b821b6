import Mathlib.Algebra.Order.Ring.Rat

/-!
This module contains the order of the doubles, and the double that is nearest to a natural number.
-/

namespace Koval

-- What a double stands for. Which rationals have a double, and that zero has two, plays no part in
-- how doubles compare.
inductive F64 where
  | finite (value : Rat)
  | inf (negative : Bool)
  | nan
  deriving DecidableEq, Inhabited, Repr

namespace F64

instance : Coe Rat F64 := ⟨finite⟩

instance (n : Nat) : OfNat F64 n := ⟨finite n⟩

def lt (x y : F64) : Bool :=
  match x, y with
  | nan, _ => false
  | _, nan => false
  | finite x, finite y => decide (x < y)
  | inf negative, finite _ => negative
  | finite _, inf negative => !negative
  | inf negative, inf negative' => negative && !negative'

def le (x y : F64) : Bool :=
  match x, y with
  | nan, _ => false
  | _, nan => false
  | finite x, finite y => decide (x ≤ y)
  | inf negative, finite _ => negative
  | finite _, inf negative => !negative
  | inf negative, inf negative' => negative || !negative'

instance : LT F64 := ⟨fun x y => x.lt y⟩

instance : LE F64 := ⟨fun x y => x.le y⟩

instance (x y : F64) : Decidable (x < y) := inferInstanceAs (Decidable (x.lt y = true))

instance (x y : F64) : Decidable (x ≤ y) := inferInstanceAs (Decidable (x.le y = true))

@[simp]
theorem finite_lt_finite {x y : Rat} : finite x < finite y ↔ x < y := decide_eq_true_iff

@[simp]
theorem finite_le_finite {x y : Rat} : finite x ≤ finite y ↔ x ≤ y := decide_eq_true_iff

-- No comparison with NaN holds, so this is not the negation of `y < x`.
theorem le_iff {x y : F64} : x ≤ y ↔ x ≠ nan ∧ y ≠ nan ∧ ¬y < x := by
  change x.le y = true ↔ x ≠ nan ∧ y ≠ nan ∧ ¬y.lt x = true
  cases x <;> cases y <;> grind [le, lt]

theorem not_lt_of_le {x y : Rat} {bound : F64} (hbound : ¬finite x < bound) (hle : x ≤ y)
    : ¬finite y < bound := by
  intro hlt
  apply hbound
  cases bound with
  | finite bound =>
    rw [finite_lt_finite] at hlt ⊢
    exact hle.trans_lt hlt
  | inf negative => exact hlt
  | nan => exact hlt

theorem le_of_le {x y : Rat} {bound : F64} (hbound : bound ≤ finite x) (hle : x ≤ y)
    : bound ≤ finite y := by
  rw [le_iff] at hbound ⊢
  exact ⟨hbound.left, F64.noConfusion, not_lt_of_le hbound.right.right hle⟩

/-- The multiple of `ulp` that is nearest to `n`, the even one of two. -/
def nearest (ulp n : Nat) : Nat :=
  let q := n / ulp
  let r := n % ulp
  if 2 * r < ulp ∨ 2 * r = ulp ∧ q % 2 = 0 then
    ulp * q
  else
    ulp * (q + 1)

theorem nearest_of_dvd {ulp n : Nat} (hpos : 0 < ulp) (h : ulp ∣ n) : nearest ulp n = n := by
  unfold nearest
  dsimp only
  rw [Nat.mod_eq_zero_of_dvd h, if_pos (.inl hpos), Nat.mul_div_cancel' h]

theorem nearest_mono {ulp m n : Nat} (h : m ≤ n) : nearest ulp m ≤ nearest ulp n := by
  have hq : m / ulp ≤ n / ulp := Nat.div_le_div_right h
  unfold nearest
  dsimp only
  rcases Nat.lt_or_eq_of_le hq with hlt | heq
  . -- The next multiple after `m` is not after `n`.
    have hnext : ulp * (m / ulp + 1) ≤ ulp * (n / ulp) := Nat.mul_le_mul_left ulp hlt
    have hm : ulp * (m / ulp) ≤ ulp * (m / ulp + 1) := Nat.mul_le_mul_left ulp (Nat.le_succ _)
    have hn : ulp * (n / ulp) ≤ ulp * (n / ulp + 1) := Nat.mul_le_mul_left ulp (Nat.le_succ _)
    split <;> split <;> omega
  . have hr : m % ulp ≤ n % ulp := by
      have hm := Nat.div_add_mod m ulp
      have hn := Nat.div_add_mod n ulp
      rw [← heq] at hn
      omega
    have hn : ulp * (n / ulp) ≤ ulp * (n / ulp + 1) := Nat.mul_le_mul_left ulp (Nat.le_succ _)
    rw [heq]
    split <;> split <;> omega

/-- The double nearest to `n`, which has 53 significant bits. -/
def roundNat (n : Nat) : Nat := nearest (2 ^ (n.log2 - 52)) n

theorem roundNat_of_lt {n : Nat} (h : n < 2 ^ 53) : roundNat n = n := by
  have hlog : n.log2 - 52 = 0 := by
    by_cases hn : n = 0
    . rw [hn, Nat.log2_zero]
    . have := (Nat.log2_lt hn).mpr h
      omega
  unfold roundNat
  rw [hlog]
  exact nearest_of_dvd Nat.one_pos (Nat.one_dvd n)

theorem roundNat_le_two_pow (n : Nat) : roundNat n ≤ 2 ^ (n.log2 + 1) := by
  have hdvd : 2 ^ (n.log2 - 52) ∣ 2 ^ (n.log2 + 1) := Nat.pow_dvd_pow 2 (by omega)
  rw [← nearest_of_dvd (Nat.two_pow_pos _) hdvd]
  exact nearest_mono (Nat.le_of_lt Nat.lt_log2_self)

theorem two_pow_le_roundNat {n : Nat} (h : n ≠ 0) : 2 ^ n.log2 ≤ roundNat n := by
  have hdvd : 2 ^ (n.log2 - 52) ∣ 2 ^ n.log2 := Nat.pow_dvd_pow 2 (by omega)
  rw [← nearest_of_dvd (Nat.two_pow_pos _) hdvd]
  exact nearest_mono (Nat.log2_self_le h)

theorem roundNat_mono {m n : Nat} (h : m ≤ n) : roundNat m ≤ roundNat n := by
  by_cases hm : m = 0
  . rw [hm, roundNat_of_lt (by decide)]
    exact Nat.zero_le _
  . have hn : n ≠ 0 := by omega
    have hlog : m.log2 ≤ n.log2 := (Nat.le_log2 hn).mpr ((Nat.log2_self_le hm).trans h)
    rcases Nat.lt_or_eq_of_le hlog with hlt | heq
    . -- A power of two lies between the two.
      calc roundNat m
        _ ≤ 2 ^ (m.log2 + 1) := roundNat_le_two_pow m
        _ ≤ 2 ^ n.log2 := Nat.pow_le_pow_right Nat.two_pos hlt
        _ ≤ roundNat n := two_pow_le_roundNat hn
    . unfold roundNat
      rw [heq]
      exact nearest_mono h

example : roundNat (2 ^ 53 + 3) = 2 ^ 53 + 4 := by decide

end F64

end Koval
