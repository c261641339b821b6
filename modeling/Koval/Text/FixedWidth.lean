import Mathlib.Data.String.Basic
import Mathlib.Data.Nat.Digits.Lemmas

/-!
This module contains texts of fixed width, whose lexicographic order is the order of what they
stand for.
-/

namespace FixedWidth

/-- On `dom` all texts are of one width and sorted as the values are. -/
structure Sorted {α : Type u} [LT α] (dom : α → Prop) (width : Nat) (print : α → String) : Prop where
  length_eq : ∀ {a : α}, dom a → (print a).length = width
  print_lt : ∀ {a b : α}, dom a → dom b → a < b → print a < print b

theorem append_lt_append_of_lt {s s' : List Char} (t t' : List Char) (hlen : s.length = s'.length)
    (h : s < s')
    : s ++ t < s' ++ t' := by
  induction s generalizing s' with
  | nil =>
    cases s' with
    | nil => simp at h
    | cons => contradiction
  | cons c s ih =>
    cases s' with
    | nil => contradiction
    | cons c' s' =>
      rw [List.cons_append, List.cons_append, List.cons_lt_cons_iff]
      rw [List.cons_lt_cons_iff] at h
      cases h with
      | inl h => exact Or.inl h
      | inr h =>
        right
        refine ⟨h.left, ih ?_ h.right⟩
        simpa using hlen

theorem string_append_lt_of_lt {s s' : String} (t t' : String) (hlen : s.length = s'.length)
    (h : s < s')
    : s ++ t < s' ++ t' := by
  rw [String.lt_iff_toList_lt] at *
  rw [String.toList_append, String.toList_append]
  apply append_lt_append_of_lt
  . rw [String.length_toList, String.length_toList]
    exact hlen
  . exact h

theorem string_append_lt_append_left (s : String) {t t' : String} (h : t < t')
    : s ++ t < s ++ t' := by
  rw [String.lt_iff_toList_lt] at *
  rw [String.toList_append, String.toList_append]
  exact List.append_left_lt h

theorem string_append_lt_append_left_iff (s : String) {t t' : String}
    : s ++ t < s ++ t' ↔ t < t' := by
  constructor
  . intro h
    rw [← not_le]
    intro hle
    cases hle.lt_or_eq with
    | inl hlt => exact lt_asymm h (string_append_lt_append_left s hlt)
    | inr heq =>
      rw [heq] at h
      exact lt_irrefl _ h
  . exact string_append_lt_append_left s

namespace Sorted

section

variable {α : Type u} {β : Type v} [LinearOrder α] [LinearOrder β]
variable {dom : α → Prop} {dom' : β → Prop} {width width' : Nat}
variable {print : α → String}

theorem append_lt_append_iff (h : Sorted dom width print) {a b : α} (ha : dom a) (hb : dom b)
    (s t : String)
    : print a ++ s < print b ++ t ↔ a < b ∨ (a = b ∧ s < t) := by
  have hlen : (print a).length = (print b).length := by
    rw [h.length_eq ha, h.length_eq hb]
  rcases lt_trichotomy a b with hlt | heq | hgt
  . have := string_append_lt_of_lt s t hlen (h.print_lt ha hb hlt)
    simp [this, hlt]
  . have := lt_irrefl b
    rw [heq, string_append_lt_append_left_iff]
    simp
  . have := string_append_lt_of_lt t s hlen.symm (h.print_lt hb ha hgt)
    simp [lt_asymm this, lt_asymm hgt, hgt.ne']

theorem comap {f : β → α} (h : Sorted dom width print) (hdom : ∀ b, dom' b → dom (f b))
    (hlt : ∀ b b', dom' b → dom' b' → b < b' → f b < f b')
    : Sorted dom' width (fun b => print (f b)) where
  length_eq := by
    intro b hb
    exact h.length_eq (hdom b hb)
  print_lt := by
    intro b b' hb hb' hbb'
    exact h.print_lt (hdom b hb) (hdom b' hb') (hlt b b' hb hb' hbb')

theorem append_const (h : Sorted dom width print) {suffix : String}
    (hlength : suffix.length = width')
    : Sorted dom (width + width') (fun a => print a ++ suffix) where
  length_eq := by
    intro a ha
    rw [String.length_append, h.length_eq ha, hlength]
  print_lt := by
    intro a b ha hb hab
    apply string_append_lt_of_lt
    . rw [h.length_eq ha, h.length_eq hb]
    . exact h.print_lt ha hb hab

-- A coarse text followed by one that tells apart the values with the same coarse text.
theorem append {coarse : β → α} {fine : β → String} (h : Sorted dom width print)
    (hdom : ∀ b, dom' b → dom (coarse b))
    (hcoarse : ∀ b b', dom' b → dom' b' → b < b' → coarse b ≤ coarse b')
    (hlength : ∀ b, dom' b → (fine b).length = width')
    (hfine : ∀ b b', dom' b → dom' b' → b < b' → coarse b = coarse b' → fine b < fine b')
    : Sorted dom' (width + width') (fun b => print (coarse b) ++ fine b) where
  length_eq := by
    intro b hb
    rw [String.length_append, h.length_eq (hdom b hb), hlength b hb]
  print_lt := by
    intro b b' hb hb' hbb'
    cases (hcoarse b b' hb hb' hbb').lt_or_eq with
    | inl hlt =>
      apply string_append_lt_of_lt
      . rw [h.length_eq (hdom b hb), h.length_eq (hdom b' hb')]
      . exact h.print_lt (hdom b hb) (hdom b' hb') hlt
    | inr heq =>
      rw [heq]
      apply string_append_lt_append_left
      exact hfine b b' hb hb' hbb' heq

end

theorem append_div_mod {upper lower width width' : Nat} {print print' : Nat → String}
    (h : Sorted (· < upper) width print) (h' : Sorted (· < lower) width' print')
    : Sorted (· < upper * lower) (width + width') (fun n => print (n / lower) ++ print' (n % lower)) := by
  have hpos : ∀ n, n < upper * lower → 0 < lower := by
    intro n hn
    exact Nat.pos_of_lt_mul_left hn
  apply h.append
  . intro n hn
    exact Nat.div_lt_of_lt_mul (Nat.mul_comm upper lower ▸ hn)
  . intro n m hn hm hnm
    exact Nat.div_le_div_right (le_of_lt hnm)
  . intro n hn
    exact h'.length_eq (Nat.mod_lt n (hpos n hn))
  . intro n m hn hm hnm heq
    apply h'.print_lt (Nat.mod_lt n (hpos n hn)) (Nat.mod_lt m (hpos m hm))
    have := Nat.div_add_mod n lower
    have := Nat.div_add_mod m lower
    rw [heq] at *
    omega

end Sorted

def pad (width n : Nat) : String :=
  match width with
  | 0 => ""
  | width + 1 => pad width (n / 10) ++ String.singleton (n % 10).digitChar

theorem digitChar_sorted : Sorted (· < 10) 1 (fun n => String.singleton n.digitChar) where
  length_eq := by
    intros
    exact String.length_singleton
  print_lt := by
    intro a b ha hb
    have : ∀ a < 10, ∀ b < 10, a < b →
        String.singleton a.digitChar < String.singleton b.digitChar := by
      decide
    exact this a ha b hb

theorem pad_sorted (width : Nat) : Sorted (· < 10 ^ width) width (pad width) := by
  induction width with
  | zero =>
    constructor
    . intros
      rfl
    . intros
      omega
  | succ width ih => exact ih.append_div_mod digitChar_sorted

theorem pad_succ (width n : Nat)
    : pad (width + 1) n = pad width (n / 10) ++ String.singleton (n % 10).digitChar := rfl

theorem pad_add (width width' n : Nat)
    : pad (width + width') n = pad width (n / 10 ^ width') ++ pad width' n := by
  induction width' generalizing n with
  | zero => simp [pad]
  | succ width' ih =>
    rw [← Nat.add_assoc, pad_succ, pad_succ, ih, String.append_assoc, Nat.div_div_eq_div_mul,
      ← Nat.pow_succ']

theorem pad_mod (width n : Nat) : pad width (n % 10 ^ width) = pad width n := by
  induction width generalizing n with
  | zero => rfl
  | succ width ih =>
    have hdiv : n % 10 ^ (width + 1) / 10 = n / 10 % 10 ^ width := by
      rw [Nat.pow_succ', Nat.mod_mul_right_div_self]
    have hmod : n % 10 ^ (width + 1) % 10 = n % 10 := by
      rw [Nat.pow_succ', Nat.mod_mul_right_mod]
    rw [pad_succ, pad_succ, hdiv, hmod, ih]

theorem exists_pad_succ_eq_cons (width n : Nat)
    : ∃ c cs, (pad (width + 1) n).toList = c :: cs ∧ '0' ≤ c ∧ c ≤ '9' := by
  induction width generalizing n with
  | zero =>
    have hdigit : ∀ d < 10, '0' ≤ d.digitChar ∧ d.digitChar ≤ '9' := by decide
    refine ⟨(n % 10).digitChar, [], ?_, hdigit (n % 10) (Nat.mod_lt n (by omega))⟩
    simp [pad]
  | succ width ih =>
    have ⟨c, cs, hlist, hc⟩ := ih (n / 10)
    refine ⟨c, cs ++ [(n % 10).digitChar], ?_, hc⟩
    rw [pad_succ, String.toList_append, hlist]
    simp

theorem singleton_append_lt_pad {c : Char} (hc : c < '0') (width n : Nat) (s t : String)
    : String.singleton c ++ s < pad (width + 1) n ++ t := by
  have ⟨d, ds, hlist, hd, _⟩ := exists_pad_succ_eq_cons width n
  rw [String.lt_iff_toList_lt, String.toList_append, String.toList_append, hlist]
  rw [String.toList_singleton, List.cons_append, List.cons_append, List.cons_lt_cons_iff]
  exact Or.inl (lt_of_lt_of_le hc hd)

theorem pad_append_lt_singleton {c : Char} (hc : '9' < c) (width n : Nat) (s : String)
    : pad (width + 1) n ++ s < String.singleton c := by
  have ⟨d, ds, hlist, _, hd⟩ := exists_pad_succ_eq_cons width n
  rw [String.lt_iff_toList_lt, String.toList_append, hlist]
  rw [String.toList_singleton, List.cons_append, List.cons_lt_cons_iff]
  exact Or.inl (lt_of_le_of_lt hd hc)

end FixedWidth
