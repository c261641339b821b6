import Koval.Time.Calendar

/-!
This module contains instants of time and two of their texts: RFC 3339 with as many digits of the
fraction as it needs, and RFC 3339 with three.
-/

open FixedWidth Calendar

structure DateTime where
  -- since the first instant of the year 0, in UTC and without leap seconds
  nanos : Int
  deriving DecidableEq, Inhabited, Repr

namespace DateTime

def minusSeconds (t : DateTime) (seconds : Int) : DateTime := ⟨t.nanos - seconds * 1000000000⟩

def seconds (t : DateTime) : Int := t.nanos / 1000000000

def subsecNanos (t : DateTime) : Nat := (t.nanos % 1000000000).toNat

def floorMillis (t : DateTime) : Int := t.nanos / 1000000

def printTimeOfDay (seconds : Nat) : String :=
  pad 2 (seconds / 60 / 60) ++ ":" ++ (pad 2 (seconds / 60 % 60) ++ ":") ++ pad 2 (seconds % 60)

def printSeconds (seconds : Int) : String :=
  printDate (seconds / 86400) ++ "T" ++ printTimeOfDay (seconds % 86400).toNat

def printFraction (nanos : Nat) : String :=
  if nanos = 0 then
    ""
  else if nanos % 1000000 = 0 then
    "." ++ pad 3 (nanos / 1000000)
  else if nanos % 1000 = 0 then
    "." ++ pad 6 (nanos / 1000)
  else
    "." ++ pad 9 nanos

def toRfc3339 (t : DateTime) : String :=
  printSeconds t.seconds ++ (printFraction t.subsecNanos ++ "+00:00")

def toRfc3339Millis (t : DateTime) : String :=
  printSeconds t.seconds ++ ("." ++ pad 3 (t.subsecNanos / 1000000) ++ "Z")

def InRange (t : DateTime) : Prop := 0 ≤ t.seconds ∧ t.seconds < firstDay 10000 * 86400

instance (t : DateTime) : Decidable t.InRange := inferInstanceAs (Decidable (_ ∧ _))

theorem printTimeOfDay_sorted : Sorted (· < 100 * 60 * 60) (2 + 1 + (2 + 1) + 2) printTimeOfDay := by
  have hcolon : Sorted (· < 100) (2 + 1) (fun n => pad 2 n ++ ":") :=
    (pad_sorted 2).append_const (by rfl)
  have hlow : ∀ n, n < 60 → n < 100 := by
    intros
    omega
  have hid : ∀ n m, n < 60 → m < 60 → n < m → n < m := by
    intros
    assumption
  exact (hcolon.append_div_mod (hcolon.comap hlow hid)).append_div_mod
    ((pad_sorted 2).comap hlow hid)

theorem printSeconds_sorted
    : Sorted (fun seconds : Int => 0 ≤ seconds ∧ seconds < firstDay 10000 * 86400)
        (4 + 1 + (2 + 1 + 2) + 1 + (2 + 1 + (2 + 1) + 2)) printSeconds := by
  have hT : Sorted (fun day : Int => 0 ≤ day ∧ day < firstDay 10000)
      (4 + 1 + (2 + 1 + 2) + 1) (fun day => printDate day ++ "T") :=
    printDate_sorted.append_const (by rfl)
  have hdef : printSeconds = fun seconds =>
      printDate (seconds / 86400) ++ "T" ++ printTimeOfDay (seconds % 86400).toNat := rfl
  rw [hdef]
  apply hT.append
  . intro seconds h
    omega
  . intros
    omega
  . intro seconds _
    apply printTimeOfDay_sorted.length_eq
    omega
  . intro a b _ _ hab heq
    apply printTimeOfDay_sorted.print_lt
    . omega
    . omega
    . omega

def printGroup (unit : Nat) (printRest : Nat → String) (nanos : Nat) : String :=
  if nanos = 0 then "+00:00" else pad 3 (nanos / unit) ++ printRest (nanos % unit)

theorem printGroup_lt {unit : Nat} {printRest : Nat → String} (hunit : 0 < unit)
    (hrest : ∀ n m, n < m → m < unit → printRest n < printRest m) {n m : Nat} (hnm : n < m)
    (hm : m < 1000 * unit)
    : printGroup unit printRest n < printGroup unit printRest m := by
  have hdiv : ∀ k, k < 1000 * unit → k / unit < 10 ^ 3 := by
    intro k hk
    exact (Nat.div_lt_iff_lt_mul hunit).mpr hk
  unfold printGroup
  rw [if_neg (by omega : m ≠ 0)]
  split
  . have hplus : '+' < '0' := by decide
    exact singleton_append_lt_pad hplus 2 _ "00:00" _
  . rw [(pad_sorted 3).append_lt_append_iff (hdiv n (by omega)) (hdiv m hm)]
    rcases (Nat.div_le_div_right (le_of_lt hnm) : n / unit ≤ m / unit).lt_or_eq with hlt | heq
    . exact .inl hlt
    . right
      refine ⟨heq, hrest _ _ ?_ (Nat.mod_lt m hunit)⟩
      have := Nat.div_add_mod n unit
      have := Nat.div_add_mod m unit
      rw [heq] at *
      omega

def printGroups : Nat → String :=
  printGroup 1000000 (printGroup 1000 (printGroup 1 fun _ => "+00:00"))

theorem printGroups_lt {n m : Nat} (hnm : n < m) (hm : m < 1000000000)
    : printGroups n < printGroups m := by
  apply printGroup_lt (by omega) _ hnm (by omega)
  intro n m hnm hm
  apply printGroup_lt (by omega) _ hnm (by omega)
  intro n m hnm hm
  apply printGroup_lt (by omega) _ hnm (by omega)
  intro n m hnm hm
  omega

theorem printFraction_eq {nanos : Nat} (h : nanos ≠ 0)
    : printFraction nanos ++ "+00:00" = "." ++ printGroups nanos := by
  have hadd : ∀ n, pad 6 n = pad 3 (n / 1000) ++ pad 3 n := fun n => pad_add 3 3 n
  have hmod : ∀ n, pad 3 (n % 1000) = pad 3 n := pad_mod 3
  unfold printFraction printGroups printGroup
  rw [if_neg h, if_neg h]
  split
  . rw [String.append_assoc]
  . have hmid : pad 3 (nanos % 1000000 / 1000) = pad 3 (nanos / 1000) := by
      rw [← hmod (nanos / 1000)]
      congr 1
      omega
    have hlow : nanos % 1000000 % 1000 = nanos % 1000 := by omega
    rw [hmid, hlow]
    split
    . rw [hadd, Nat.div_div_eq_div_mul]
      simp only [String.append_assoc]
    . have hnine : pad 9 nanos = pad 3 (nanos / 1000000) ++ pad 6 nanos := pad_add 3 6 nanos
      rw [Nat.div_one, hmod, hnine, hadd]
      simp only [String.append_assoc]

theorem printFraction_lt {n m : Nat} (hnm : n < m) (hm : m < 1000000000)
    : printFraction n ++ "+00:00" < printFraction m ++ "+00:00" := by
  rw [printFraction_eq (by omega : m ≠ 0)]
  by_cases hn : n = 0
  . have hplus : '+' < '.' := by decide
    rw [hn, String.lt_iff_toList_lt, String.toList_append, String.toList_append]
    exact List.cons_lt_cons_iff.mpr (.inl hplus)
  . rw [printFraction_eq hn, string_append_lt_append_left_iff]
    exact printGroups_lt hnm hm

theorem toRfc3339_lt {a b : DateTime} (ha : a.InRange) (hb : b.InRange) (hab : a.nanos < b.nanos)
    : a.toRfc3339 < b.toRfc3339 := by
  unfold toRfc3339
  rw [printSeconds_sorted.append_lt_append_iff ha hb]
  unfold seconds subsecNanos
  by_cases hlt : a.nanos / 1000000000 < b.nanos / 1000000000
  . exact .inl hlt
  . right
    refine ⟨by omega, printFraction_lt ?_ ?_⟩
    . omega
    . omega

theorem toRfc3339_lt_iff {a b : DateTime} (ha : a.InRange) (hb : b.InRange)
    : a.toRfc3339 < b.toRfc3339 ↔ a.nanos < b.nanos := by
  constructor
  . intro h
    rcases lt_trichotomy a.nanos b.nanos with hlt | heq | hgt
    . exact hlt
    . have heq : a = b := congrArg DateTime.mk heq
      rw [heq] at h
      exact absurd h (lt_irrefl _)
    . exact absurd h (lt_asymm (toRfc3339_lt hb ha hgt))
  . exact toRfc3339_lt ha hb

theorem not_Z_lt_pad (width n : Nat) (s : String) : ¬ "Z" < pad (width + 1) n ++ s := by
  apply lt_asymm
  have : '9' < 'Z' := by decide
  exact pad_append_lt_singleton this width n s

-- The two texts differ in their ends, and by then the order is settled.
theorem millis_lt_fraction_iff {millis nanos : Nat} (hmillis : millis < 1000)
    (hnanos : nanos < 1000000000)
    : "." ++ pad 3 millis ++ "Z" < printFraction nanos ++ "+00:00"
        ↔
      millis < nanos / 1000000 := by
  have hdot : ∀ rest : String, ¬ "Z" < rest →
      ("." ++ pad 3 millis ++ "Z" < "." ++ pad 3 (nanos / 1000000) ++ rest
        ↔
      millis < nanos / 1000000) := by
    intro rest hrest
    rw [String.append_assoc, String.append_assoc, string_append_lt_append_left_iff]
    rw [(pad_sorted 3).append_lt_append_iff hmillis (by omega)]
    simp [hrest]
  have hsplit : ∀ width n : Nat,
      "." ++ pad (3 + width) n ++ "+00:00"
        = "." ++ pad 3 (n / 10 ^ width) ++ (pad width n ++ "+00:00") := by
    intro width n
    simp only [pad_add, String.append_assoc]
  unfold printFraction
  split
  . next h =>
    rw [h, String.lt_iff_toList_lt, String.append_assoc, String.toList_append,
      String.toList_append]
    simp [List.cons_lt_cons_iff]
  . split
    . exact hdot _ (by decide)
    . split
      . rw [hsplit 3, Nat.div_div_eq_div_mul]
        exact hdot _ (not_Z_lt_pad 2 _ _)
      . rw [hsplit 6]
        exact hdot _ (not_Z_lt_pad 5 _ _)

theorem printSeconds_lt_of_neg {a b : Int} (ha : a < 0)
    (hb : 0 ≤ b ∧ b < firstDay 10000 * 86400) (s t : String)
    : printSeconds a ++ s < printSeconds b ++ t := by
  have ⟨rest, hrest⟩ := exists_printDate_eq_minus (by omega : a / 86400 < 0)
  have hyear := yearOf_bounds (by omega : 0 ≤ b / 86400 ∧ b / 86400 < firstDay 10000)
  unfold printSeconds
  rw [hrest]
  unfold printDate printYear
  dsimp
  rw [if_pos hyear]
  simp only [String.append_assoc]
  have : '-' < '0' := by decide
  exact singleton_append_lt_pad this 3 _ _ _

theorem toRfc3339Millis_lt_toRfc3339_iff {t since : DateTime} (ht : t.InRange)
    (hsince : since.seconds < firstDay 10000 * 86400)
    : t.toRfc3339Millis < since.toRfc3339 ↔ t.floorMillis < since.floorMillis := by
  unfold toRfc3339Millis toRfc3339
  by_cases h : 0 ≤ since.seconds
  . rw [printSeconds_sorted.append_lt_append_iff ht ⟨h, hsince⟩]
    unfold subsecNanos
    rw [millis_lt_fraction_iff (by omega) (by omega)]
    unfold seconds floorMillis
    omega
  . have := printSeconds_lt_of_neg (by omega : since.seconds < 0) ht
      (printFraction since.subsecNanos ++ "+00:00")
      ("." ++ pad 3 (t.subsecNanos / 1000000) ++ "Z")
    have hnot := lt_asymm this
    have hle : ¬ t.floorMillis < since.floorMillis := by
      have := ht.left
      unfold seconds floorMillis at *
      omega
    simp only [hnot, hle]

end DateTime
