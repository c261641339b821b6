import Mathlib.Data.List.Infix

/-!
This module contains the replacement of patterns in a text, from left to right and without a second
look at what has been put in.
-/

namespace Replace

variable {α : Type} [DecidableEq α]

def match? (pairs : List (List α × List α)) (xs : List α) : Option (List α × List α) :=
  pairs.find? fun pair => pair.fst.isPrefixOf xs

def go (pairs : List (List α × List α)) (xs : List α) (skip : Nat) : List α :=
  match xs, skip with
  | [], _ => []
  | _ :: xs, skip + 1 => go pairs xs skip
  | x :: xs, 0 =>
    match match? pairs (x :: xs) with
    | some (pattern, replacement) => replacement ++ go pairs xs (pattern.length - 1)
    | none => x :: go pairs xs 0

/-- Replaces all of the patterns at once. No pattern may be empty. -/
def replaceEach (pairs : List (List α × List α)) (xs : List α) : List α := go pairs xs 0

def replace (pattern replacement xs : List α) : List α := replaceEach [(pattern, replacement)] xs

example : replace "aa".toList "b".toList "aaaca".toList = "baca".toList := by
  decide

variable {pairs : List (List α × List α)} {xs ys : List α} {sep : α}

theorem match?_eq_none (h : ∀ pair ∈ pairs, pair.fst.isPrefixOf xs = false)
    : match? pairs xs = none := by
  unfold match?
  rw [List.find?_eq_none]
  intro pair hpair hstarts
  rw [h pair hpair] at hstarts
  contradiction

theorem go_cons_of_none {x : α} (h : match? pairs (x :: xs) = none)
    : go pairs (x :: xs) 0 = x :: go pairs xs 0 := by
  rw [go, h]

theorem go_cons_of_some {x : α} {pattern replacement : List α}
    (h : match? pairs (x :: xs) = some (pattern, replacement))
    : go pairs (x :: xs) 0 = replacement ++ go pairs xs (pattern.length - 1) := by
  rw [go, h]

theorem replaceEach_eq_self (h : ∀ pair ∈ pairs, ¬ pair.fst <:+: xs) : replaceEach pairs xs = xs := by
  unfold replaceEach
  induction xs with
  | nil => rfl
  | cons x xs ih =>
    rw [go_cons_of_none, ih]
    . intro pair hpair hwithin
      exact h pair hpair (hwithin.trans (List.suffix_cons x xs).isInfix)
    . apply match?_eq_none
      intro pair hpair
      rw [Bool.eq_false_iff, ne_eq, List.isPrefixOf_iff_prefix]
      exact fun hstarts => h pair hpair hstarts.isInfix

theorem isPrefixOf_append_cons {pattern : List α} (hsep : sep ∉ pattern)
    : pattern.isPrefixOf (xs ++ sep :: ys) = pattern.isPrefixOf xs := by
  induction pattern generalizing xs with
  | nil => rfl
  | cons p pattern ih =>
    rw [List.mem_cons, not_or] at hsep
    cases xs with
    | nil =>
      have hne : (p == sep) = false := by simpa using Ne.symm hsep.left
      simp [List.isPrefixOf, hne]
    | cons x xs =>
      rw [List.cons_append, List.isPrefixOf_cons_cons, List.isPrefixOf_cons_cons, ih hsep.right]

theorem match?_append_cons (hsep : ∀ pair ∈ pairs, sep ∉ pair.fst)
    : match? pairs (xs ++ sep :: ys) = match? pairs xs := by
  unfold match?
  induction pairs with
  | nil => rfl
  | cons pair pairs ih =>
    rw [List.forall_mem_cons] at hsep
    rw [List.find?_cons, List.find?_cons, ih hsep.right, isPrefixOf_append_cons hsep.left]

theorem go_append_cons (hsep : ∀ pair ∈ pairs, sep ∉ pair.fst) (hnil : ∀ pair ∈ pairs, pair.fst ≠ [])
    {skip : Nat} (hskip : skip ≤ xs.length) (ys : List α)
    : go pairs (xs ++ sep :: ys) skip = go pairs xs skip ++ sep :: go pairs ys 0 := by
  induction xs generalizing skip with
  | nil =>
    have hskip : skip = 0 := by simpa using hskip
    have hnone : match? pairs ([] ++ sep :: ys) = none := by
      rw [match?_append_cons hsep]
      apply match?_eq_none
      intro pair hpair
      cases hpattern : pair.fst with
      | nil => exact absurd hpattern (hnil pair hpair)
      | cons => rfl
    rw [hskip, List.nil_append, go_cons_of_none hnone]
    rfl
  | cons x xs ih =>
    cases skip with
    | succ skip =>
      rw [List.cons_append, go, go]
      apply ih
      simpa using hskip
    | zero =>
      have hmatch : match? pairs (x :: (xs ++ sep :: ys)) = match? pairs (x :: xs) := by
        rw [← List.cons_append, match?_append_cons hsep]
      rw [List.cons_append]
      cases hfind : match? pairs (x :: xs) with
      | none =>
        rw [hfind] at hmatch
        rw [go_cons_of_none hmatch, go_cons_of_none hfind, ih (Nat.zero_le _)]
        rfl
      | some pair =>
        rw [hfind] at hmatch
        have hstarts := List.find?_some hfind
        have hlength := (List.isPrefixOf_iff_prefix.mp hstarts).length_le
        rw [List.length_cons] at hlength
        rw [go_cons_of_some hmatch, go_cons_of_some hfind, ih (by omega), List.append_assoc]

theorem replaceEach_append_cons (hsep : ∀ pair ∈ pairs, sep ∉ pair.fst)
    (hnil : ∀ pair ∈ pairs, pair.fst ≠ []) (xs ys : List α)
    : replaceEach pairs (xs ++ sep :: ys) = replaceEach pairs xs ++ sep :: replaceEach pairs ys :=
  go_append_cons hsep hnil (Nat.zero_le _) ys

theorem mem_of_mem_replaceEach {c : α} (h : c ∈ replaceEach pairs xs)
    : c ∈ xs ∨ ∃ pair ∈ pairs, c ∈ pair.snd := by
  unfold replaceEach at h
  generalize 0 = skip at h
  induction xs generalizing skip with
  | nil => contradiction
  | cons x xs ih =>
    cases skip with
    | succ skip =>
      rcases ih _ h with hxs | hpair
      . exact .inl (List.mem_cons_of_mem x hxs)
      . exact .inr hpair
    | zero =>
      cases hfind : match? pairs (x :: xs) with
      | none =>
        rw [go_cons_of_none hfind, List.mem_cons] at h
        rcases h with rfl | h
        . exact .inl List.mem_cons_self
        . rcases ih _ h with hxs | hpair
          . exact .inl (List.mem_cons_of_mem x hxs)
          . exact .inr hpair
      | some pair =>
        rw [go_cons_of_some hfind, List.mem_append] at h
        rcases h with h | h
        . exact .inr ⟨pair, List.mem_of_find?_eq_some hfind, h⟩
        . rcases ih _ h with hxs | hpair
          . exact .inl (List.mem_cons_of_mem x hxs)
          . exact .inr hpair

theorem go_eq_nil {skip : Nat} (h : xs.length ≤ skip) : go pairs xs skip = [] := by
  induction xs generalizing skip with
  | nil => rfl
  | cons x xs ih =>
    cases skip with
    | zero => contradiction
    | succ skip =>
      rw [go]
      apply ih
      simpa using h

theorem replaceEach_pattern {pattern replacement : List α} (hpattern : pattern ≠ [])
    (h : match? pairs pattern = some (pattern, replacement))
    : replaceEach pairs pattern = replacement := by
  unfold replaceEach
  cases pattern with
  | nil => contradiction
  | cons x xs => rw [go_cons_of_some h, go_eq_nil (by simp), List.append_nil]

theorem notMem_replace {pattern replacement : List α} {c : α} (hreplacement : c ∉ replacement)
    (hxs : c ∉ xs)
    : c ∉ replace pattern replacement xs := by
  intro hc
  rcases mem_of_mem_replaceEach hc with hmem | ⟨pair, hpair, hmem⟩
  . exact hxs hmem
  . rw [List.mem_singleton] at hpair
    rw [hpair] at hmem
    exact hreplacement hmem

end Replace
