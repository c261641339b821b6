import Mathlib.Algebra.Order.Ring.Nat
import Mathlib.Data.List.DropRight

/-!
This module contains decimal numbers as they are read from a text.
-/

namespace Text

def isWhiteSpace (c : Char) : Bool :=
  let n := c.toNat
  (0x9 ≤ n && n ≤ 0xd) || n == 0x20 || n == 0x85 || n == 0xa0 || n == 0x1680
    || (0x2000 ≤ n && n ≤ 0x200a) || n == 0x2028 || n == 0x2029 || n == 0x202f || n == 0x205f
    || n == 0x3000

def trim (text : List Char) : List Char :=
  (text.dropWhile isWhiteSpace).rdropWhile isWhiteSpace

theorem trim_append_of_isWhiteSpace {text ending : List Char}
    (htext : ∀ c ∈ text, isWhiteSpace c = false) (hending : ∀ c ∈ ending, isWhiteSpace c)
    : trim (text ++ ending) = text := by
  have hstart : (text ++ ending).dropWhile isWhiteSpace = text ++ if text = [] then [] else ending := by
    cases text with
    | nil => simpa using hending
    | cons c text =>
      rw [List.cons_append, List.dropWhile_cons, htext c List.mem_cons_self,
        if_neg Bool.false_ne_true, if_neg (List.cons_ne_nil c text), List.cons_append]
  have hend : (text ++ if text = [] then [] else ending).rdropWhile isWhiteSpace
      = text.rdropWhile isWhiteSpace := by
    split
    . rw [List.append_nil]
    . unfold List.rdropWhile
      rw [List.reverse_append, List.dropWhile_append_of_pos (by simpa using hending)]
  unfold trim
  rw [hstart, hend, List.rdropWhile_eq_self_iff]
  intro hne
  rw [htext _ (List.getLast_mem hne)]
  exact Bool.false_ne_true

theorem isWhiteSpace_of_isDigit {c : Char} (h : c.isDigit) : isWhiteSpace c = false := by
  unfold Char.isDigit at h
  unfold isWhiteSpace
  rw [Bool.and_eq_true, decide_eq_true_eq, decide_eq_true_eq, ge_iff_le, UInt32.le_iff_toNat_le,
    UInt32.le_iff_toNat_le] at h
  have hle : 48 ≤ c.toNat ∧ c.toNat ≤ 57 := h
  simp only [Bool.or_eq_false_iff, Bool.and_eq_false_imp, decide_eq_true_eq, decide_eq_false_iff_not,
    beq_eq_false_iff_ne]
  omega

structure IsDecimal (digits : List Char) (n : Nat) : Prop where
  nonempty : digits ≠ []
  isDigit : ∀ c ∈ digits, c.isDigit
  value : Nat.ofDigitChars 10 digits 0 = n
  lt : n < 2 ^ 32

theorem IsDecimal.unique {digits : List Char} {m n : Nat} (hm : IsDecimal digits m)
    (hn : IsDecimal digits n)
    : m = n := hm.value.symm.trans hn.value

theorem IsDecimal.notMem {digits : List Char} {n : Nat} (h : IsDecimal digits n) {c : Char}
    (hc : c.isDigit = false)
    : c ∉ digits := by
  intro hmem
  rw [h.isDigit c hmem] at hc
  contradiction

theorem isDecimal_toDigits {n : Nat} (h : n < 2 ^ 32) : IsDecimal (Nat.toDigits 10 n) n where
  nonempty := Nat.toDigits_ne_nil
  isDigit := fun _ hc => Nat.isDigit_of_mem_toDigits (by decide) (by decide) hc
  value := Nat.ofDigitChars_ten_toDigits
  lt := h

/-- A number may have a plus sign. -/
def parseU32 (s : List Char) : Option Nat :=
  let digits :=
    match s with
    | '+' :: digits => digits
    | digits => digits
  if digits ≠ [] ∧ digits.all Char.isDigit ∧ Nat.ofDigitChars 10 digits 0 < 2 ^ 32 then
    some (Nat.ofDigitChars 10 digits 0)
  else
    none

theorem parseU32_eq_some_iff {s : List Char} {n : Nat}
    : parseU32 s = some n ↔ IsDecimal s n ∨ ∃ digits, s = '+' :: digits ∧ IsDecimal digits n := by
  have hdecimal (digits : List Char)
      : (if digits ≠ [] ∧ digits.all Char.isDigit ∧ Nat.ofDigitChars 10 digits 0 < 2 ^ 32 then
            some (Nat.ofDigitChars 10 digits 0)
          else
            none) = some n
        ↔
      IsDecimal digits n := by
    rw [Option.ite_none_right_eq_some, Option.some.injEq, List.all_eq_true]
    constructor
    . rintro ⟨⟨hne, hdigits, hlt⟩, hvalue⟩
      exact ⟨hne, hdigits, hvalue, hvalue ▸ hlt⟩
    . rintro ⟨hne, hdigits, hvalue, hlt⟩
      exact ⟨⟨hne, hdigits, hvalue ▸ hlt⟩, hvalue⟩
  unfold parseU32
  dsimp only
  rw [hdecimal]
  split
  . next digits =>
    constructor
    . exact fun h => .inr ⟨digits, rfl, h⟩
    . rintro (h | ⟨_, heq, h⟩)
      . exact absurd List.mem_cons_self (h.notMem rfl)
      . injection heq with _ heq
        rw [heq]
        exact h
  . next hplus =>
    constructor
    . exact .inl
    . rintro (h | ⟨digits, heq, _⟩)
      . exact h
      . exact absurd heq (hplus digits)

theorem IsDecimal.parseU32 {digits : List Char} {n : Nat} (h : IsDecimal digits n)
    : parseU32 digits = some n := parseU32_eq_some_iff.mpr (.inl h)

end Text
