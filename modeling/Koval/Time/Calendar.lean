import Mathlib.Order.Monotone.Basic
import Mathlib.Data.Int.ConditionallyCompleteOrder
import Koval.Text.FixedWidth

/-!
This module contains the proleptic Gregorian calendar: days are counted from the first day of the
year 0.
-/

namespace Calendar

open FixedWidth

def isLeapYear (year : Int) : Bool :=
  year % 4 == 0 && (year % 100 != 0 || year % 400 == 0)

def firstDay (year : Int) : Int :=
  365 * year + (year + 3) / 4 - (year + 99) / 100 + (year + 399) / 400

def yearOf (day : Int) : Int :=
  -- right up to one year
  let guess := day * 400 / 146097
  if firstDay (guess + 1) ≤ day then
    guess + 1
  else if firstDay guess ≤ day then
    guess
  else
    guess - 1

def monthLengths (leap : Bool) : List Nat :=
  [31, if leap then 29 else 28, 31, 30, 31, 30, 31, 31, 30, 31, 30, 31]

-- The month and the day in it, both from 1.
def monthAndDay (lengths : List Nat) (month dayOfYear : Nat) : Nat × Nat :=
  match lengths with
  | [] => (month, dayOfYear + 1)
  | length :: lengths =>
    if dayOfYear < length then
      (month, dayOfYear + 1)
    else
      monthAndDay lengths (month + 1) (dayOfYear - length)

def printYear (year : Int) : String :=
  if 0 ≤ year ∧ year ≤ 9999 then
    pad 4 year.toNat
  else
    (if year < 0 then "-" else "+")
      ++ (if year.natAbs ≤ 9999 then pad 4 year.natAbs else toString year.natAbs)

def printMonthAndDay (leap : Bool) (dayOfYear : Nat) : String :=
  let (month, day) := monthAndDay (monthLengths leap) 1 dayOfYear
  pad 2 month ++ "-" ++ pad 2 day

def printDate (day : Int) : String :=
  let year := yearOf day
  printYear year ++ "-" ++ printMonthAndDay (isLeapYear year) (day - firstDay year).toNat

example : printDate (-1) = "-0001-12-31" := by decide
example : printDate 739676 = "2025-03-01" := by decide +kernel

theorem firstDay_yearOf_le (day : Int) : firstDay (yearOf day) ≤ day := by
  unfold yearOf
  dsimp
  split
  . assumption
  . split
    . assumption
    . unfold firstDay
      omega

theorem lt_firstDay_yearOf_add_one (day : Int) : day < firstDay (yearOf day + 1) := by
  unfold yearOf
  dsimp
  split
  . unfold firstDay
    omega
  . split
    . omega
    . rw [Int.sub_add_cancel]
      omega

theorem firstDay_succ (year : Int)
    : firstDay (year + 1) = firstDay year + (monthLengths (isLeapYear year)).sum := by
  unfold firstDay
  cases hleap : isLeapYear year <;> simp [isLeapYear, monthLengths] at * <;> omega

theorem firstDay_strictMono : StrictMono firstDay := by
  apply strictMono_int_of_lt_succ
  intro year
  rw [firstDay_succ]
  unfold monthLengths
  split <;> simp

theorem yearOf_mono {a b : Int} (h : a ≤ b) : yearOf a ≤ yearOf b := by
  have ha := firstDay_yearOf_le a
  have hb := lt_firstDay_yearOf_add_one b
  have : firstDay (yearOf a) < firstDay (yearOf b + 1) := by omega
  have := firstDay_strictMono.lt_iff_lt.mp this
  omega

theorem dayOfYear_lt (day : Int)
    : (day - firstDay (yearOf day)).toNat < (monthLengths (isLeapYear (yearOf day))).sum := by
  have hle := firstDay_yearOf_le day
  have hlt := lt_firstDay_yearOf_add_one day
  rw [firstDay_succ] at hlt
  omega

theorem le_monthAndDay_fst (lengths : List Nat) (month dayOfYear : Nat)
    : month ≤ (monthAndDay lengths month dayOfYear).fst := by
  induction lengths generalizing month dayOfYear with
  | nil => apply Nat.le_refl
  | cons length lengths ih =>
    unfold monthAndDay
    split
    . apply Nat.le_refl
    . have := ih (month + 1) (dayOfYear - length)
      omega

theorem monthAndDay_bounds {lengths : List Nat} {bound : Nat} (hbound : ∀ l ∈ lengths, l ≤ bound)
    {dayOfYear : Nat} (month : Nat) (h : dayOfYear < lengths.sum)
    : (monthAndDay lengths month dayOfYear).fst < month + lengths.length
        ∧ (monthAndDay lengths month dayOfYear).snd ≤ bound := by
  induction lengths generalizing month dayOfYear with
  | nil => contradiction
  | cons length lengths ih =>
    have := hbound length List.mem_cons_self
    rw [List.sum_cons] at h
    rw [List.length_cons]
    unfold monthAndDay
    split
    . dsimp
      omega
    . have hbound : ∀ l ∈ lengths, l ≤ bound := by
        intro l hl
        exact hbound l (List.mem_cons_of_mem length hl)
      have := ih hbound (month + 1) (by omega : dayOfYear - length < lengths.sum)
      omega

theorem monthAndDay_lt (lengths : List Nat) (month : Nat) {a b : Nat} (hab : a < b)
    : (monthAndDay lengths month a).fst < (monthAndDay lengths month b).fst
        ∨ ((monthAndDay lengths month a).fst = (monthAndDay lengths month b).fst
          ∧ (monthAndDay lengths month a).snd < (monthAndDay lengths month b).snd) := by
  induction lengths generalizing month a b with
  | nil =>
    right
    unfold monthAndDay
    simpa
  | cons length lengths ih =>
    unfold monthAndDay
    split
    . split
      . right
        dsimp
        omega
      . left
        have := le_monthAndDay_fst lengths (month + 1) (b - length)
        dsimp
        omega
    . rw [if_neg (by omega)]
      apply ih
      omega

theorem printMonthAndDay_sorted (leap : Bool)
    : Sorted (· < (monthLengths leap).sum) (2 + 1 + 2) (printMonthAndDay leap) := by
  have hbounds : ∀ n, n < (monthLengths leap).sum →
      (monthAndDay (monthLengths leap) 1 n).fst < 10 ^ 2
        ∧ (monthAndDay (monthLengths leap) 1 n).snd < 10 ^ 2 := by
    intro n hn
    have hmonth : ∀ l ∈ monthLengths leap, l ≤ 31 := by
      cases leap <;> decide
    have := monthAndDay_bounds hmonth 1 hn
    have : (monthLengths leap).length = 12 := rfl
    omega
  have hdash : Sorted (· < 10 ^ 2) (2 + 1) (fun month => pad 2 month ++ "-") :=
    (pad_sorted 2).append_const (by rfl)
  have hdef : printMonthAndDay leap = fun n =>
      pad 2 (monthAndDay (monthLengths leap) 1 n).fst ++ "-"
        ++ pad 2 (monthAndDay (monthLengths leap) 1 n).snd := rfl
  rw [hdef]
  apply hdash.append
  . intro n hn
    exact (hbounds n hn).left
  . intro a b _ _ hab
    have := monthAndDay_lt (monthLengths leap) 1 hab
    omega
  . intro n hn
    exact (pad_sorted 2).length_eq (hbounds n hn).right
  . intro a b ha hb hab heq
    apply (pad_sorted 2).print_lt (hbounds a ha).right (hbounds b hb).right
    have := monthAndDay_lt (monthLengths leap) 1 hab
    omega

theorem printYear_sorted : Sorted (fun year : Int => 0 ≤ year ∧ year ≤ 9999) 4 printYear := by
  have h : Sorted (fun year : Int => 0 ≤ year ∧ year ≤ 9999) 4 (fun year => pad 4 year.toNat) := by
    apply (pad_sorted 4).comap
    . intro year h
      omega
    . intro a b ha hb hab
      omega
  have heq : ∀ {year : Int}, 0 ≤ year ∧ year ≤ 9999 → printYear year = pad 4 year.toNat := by
    intro year hyear
    unfold printYear
    rw [if_pos hyear]
  constructor
  . intro a ha
    rw [heq ha]
    exact h.length_eq ha
  . intro a b ha hb hab
    rw [heq ha, heq hb]
    exact h.print_lt ha hb hab

theorem yearOf_bounds {day : Int} (h : 0 ≤ day ∧ day < firstDay 10000)
    : 0 ≤ yearOf day ∧ yearOf day ≤ 9999 := by
  constructor
  . have := yearOf_mono h.left
    exact this
  . have := firstDay_yearOf_le day
    have : firstDay (yearOf day) < firstDay 10000 := by omega
    have := firstDay_strictMono.lt_iff_lt.mp this
    omega

theorem printDate_sorted
    : Sorted (fun day : Int => 0 ≤ day ∧ day < firstDay 10000) (4 + 1 + (2 + 1 + 2)) printDate := by
  have hdash : Sorted (fun year : Int => 0 ≤ year ∧ year ≤ 9999) (4 + 1)
      (fun year => printYear year ++ "-") :=
    printYear_sorted.append_const (by rfl)
  have hdef : printDate = fun day =>
      printYear (yearOf day) ++ "-"
        ++ printMonthAndDay (isLeapYear (yearOf day)) (day - firstDay (yearOf day)).toNat := rfl
  rw [hdef]
  apply hdash.append
  . intro day hday
    exact yearOf_bounds hday
  . intro a b _ _ hab
    exact yearOf_mono (le_of_lt hab)
  . intro day _
    exact (printMonthAndDay_sorted _).length_eq (dayOfYear_lt day)
  . intro a b _ _ hab heq
    have ha := dayOfYear_lt a
    have hb := dayOfYear_lt b
    have := firstDay_yearOf_le a
    rw [heq] at *
    apply (printMonthAndDay_sorted _).print_lt ha hb
    omega

theorem exists_printDate_eq_minus {day : Int} (h : day < 0) : ∃ s, printDate day = "-" ++ s := by
  have hyear : yearOf day < 0 := by
    have := firstDay_yearOf_le day
    have : firstDay (yearOf day) < firstDay 0 := Int.lt_of_le_of_lt this h
    exact firstDay_strictMono.lt_iff_lt.mp this
  unfold printDate printYear
  dsimp
  rw [if_neg (by omega), if_pos hyear]
  simp only [String.append_assoc]
  exact ⟨_, rfl⟩

end Calendar
