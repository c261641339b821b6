import Koval.Text.Decimal
import Koval.Text.LinesLemmas

/-!
This module contains the fields of a text, which are what white space separates, and the numbers
among them.
-/

namespace Text

def splitWhitespace (text : List Char) : List (List Char) :=
  (text.splitOnP isWhiteSpace).filter (· ≠ [])

theorem splitWhitespace_append_cons (text text' : List Char) {c : Char} (h : isWhiteSpace c)
    : splitWhitespace (text ++ c :: text') = splitWhitespace text ++ splitWhitespace text' := by
  unfold splitWhitespace
  rw [List.splitOnP_append_cons _ _ h, List.filter_append]

structure IsField (text : List Char) : Prop where
  nonempty : text ≠ []
  plain : ∀ c ∈ text, isWhiteSpace c = false

theorem IsField.splitWhitespace_eq {text : List Char} (h : IsField text)
    : splitWhitespace text = [text] := by
  unfold splitWhitespace
  rw [List.splitOnP_eq_singleton h.plain, List.filter_cons_of_pos (by simpa using h.nonempty)]
  rfl

-- As many blanks as there are, and at least one.
theorem splitWhitespace_append_blanks (text text' : List Char) {n : Nat} (h : 0 < n)
    : splitWhitespace (text ++ (List.replicate n ' ' ++ text'))
        =
      splitWhitespace text ++ splitWhitespace text' := by
  induction n generalizing text with
  | zero => contradiction
  | succ n ih =>
    rw [List.replicate_succ, List.cons_append, splitWhitespace_append_cons _ _ rfl]
    cases n with
    | zero => rfl
    | succ n =>
      have hrest := ih [] (Nat.succ_pos n)
      rw [List.nil_append] at hrest
      rw [hrest]
      rfl

theorem IsField.splitWhitespace_blanks {text : List Char} (h : IsField text) (text' : List Char)
    {n : Nat} (hn : 0 < n)
    : splitWhitespace (text ++ (List.replicate n ' ' ++ text'))
        =
      text :: splitWhitespace text' := by
  rw [splitWhitespace_append_blanks _ _ hn, h.splitWhitespace_eq]
  rfl

theorem IsField.splitWhitespace_cons {text : List Char} (h : IsField text) (text' : List Char)
    : splitWhitespace (text ++ ' ' :: text') = text :: splitWhitespace text' :=
  h.splitWhitespace_blanks text' Nat.one_pos

theorem splitWhitespace_intercalate {fields : List (List Char)}
    (h : ∀ field ∈ fields, IsField field)
    : splitWhitespace ([' '].intercalate fields) = fields := by
  induction fields with
  | nil => rfl
  | cons field fields ih =>
    rw [List.forall_mem_cons] at h
    cases fields with
    | nil => simpa [List.intercalate] using h.left.splitWhitespace_eq
    | cons next fields =>
      rw [List.intercalate_cons_cons, List.append_assoc, List.singleton_append,
        h.left.splitWhitespace_cons, ih h.right]

theorem splitWhitespace_flatMap {fields : List (List Char)} (h : ∀ field ∈ fields, IsField field)
    : splitWhitespace (fields.flatMap (' ' :: ·)) = fields := by
  cases fields with
  | nil => rfl
  | cons field fields =>
    have hjoin : (field :: fields).flatMap (' ' :: ·)
        = [] ++ ' ' :: [' '].intercalate (field :: fields) := by
      clear h
      induction fields generalizing field with
      | nil => simp [List.intercalate]
      | cons next fields ih =>
        rw [List.flatMap_cons, ih, List.intercalate_cons_cons]
        simp
    rw [hjoin, splitWhitespace_append_cons _ _ rfl, splitWhitespace_intercalate h]
    rfl

theorem isField_toDigits (n : Nat) : IsField (Nat.toDigits 10 n) where
  nonempty := Nat.toDigits_ne_nil
  plain := fun _ hc =>
    isWhiteSpace_of_isDigit (Nat.isDigit_of_mem_toDigits (by decide) (by decide) hc)

/-- A number may have a plus sign. -/
def parseU64 (s : List Char) : Option Nat :=
  let digits :=
    match s with
    | '+' :: digits => digits
    | digits => digits
  if digits ≠ [] ∧ digits.all Char.isDigit ∧ Nat.ofDigitChars 10 digits 0 < 2 ^ 64 then
    some (Nat.ofDigitChars 10 digits 0)
  else
    none

theorem parseU64_toDigits {n : Nat} (h : n < 2 ^ 64)
    : parseU64 (Nat.toDigits 10 n) = some n := by
  have hdigits : ∀ c ∈ Nat.toDigits 10 n, c.isDigit := fun _ hc =>
    Nat.isDigit_of_mem_toDigits (by decide) (by decide) hc
  unfold parseU64
  dsimp only
  split
  . next digits heq =>
    have hplus := hdigits '+' (by rw [heq]; exact List.mem_cons_self)
    contradiction
  . rw [Nat.ofDigitChars_ten_toDigits,
      if_pos ⟨Nat.toDigits_ne_nil, List.all_eq_true.mpr hdigits, h⟩]

theorem stripCr_of_notMem {line : List Char} (h : '\r' ∉ line) : stripCr line = line := by
  rcases stripCr_eq_or line with heq | heq
  . exact heq
  . rw [← heq, List.mem_append, not_or] at h
    exact absurd List.mem_cons_self h.right

theorem lines_unlines {lines : List (List Char)}
    (h : ∀ line ∈ lines, '\n' ∉ line ∧ '\r' ∉ line)
    : Text.lines (String.ofList (unlines lines)) = lines.map String.ofList := by
  have hsplits : Splits (String.ofList (unlines lines)).toList lines [] := by
    refine ⟨?_, fun line hline => (h line hline).left, List.not_mem_nil⟩
    rw [String.toList_ofList, List.append_nil]
  rw [hsplits.lines_eq, if_pos rfl, List.append_nil]
  apply List.map_congr_left
  intro line hline
  rw [stripCr_of_notMem (h line hline).right]

end Text
