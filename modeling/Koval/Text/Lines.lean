import Mathlib.Data.String.Basic

/-!
This module contains the lines of a text, and slices of it that are given by a number of bytes.
-/

namespace Text

-- `line` is what the current line has so far, backwards.
def splitInclusive.go (text line : List Char) : List (List Char) :=
  match text with
  | [] => if line = [] then [] else [line.reverse]
  | c :: text =>
    if c = '\n' then
      (c :: line).reverse :: go text []
    else
      go text (c :: line)

/-- The lines with the newlines that end them. -/
def splitInclusive (text : List Char) : List (List Char) := splitInclusive.go text []

def stripLineEnd (line : List Char) : List Char :=
  match line.reverse with
  | '\n' :: '\r' :: rest => rest.reverse
  | '\n' :: rest => rest.reverse
  | _ => line

def lines (s : String) : List String :=
  (splitInclusive s.toList).map fun line => String.ofList (stripLineEnd line)

/-- The characters that the first `n` bytes make up, if they end with a character. -/
def sliceTo (text : List Char) (n : Nat) : Option (List Char) :=
  match text, n with
  | _, 0 => some []
  | [], _ + 1 => none
  | c :: text, n =>
    if c.utf8Size ≤ n then
      (sliceTo text (n - c.utf8Size)).map (c :: ·)
    else
      none

example : lines "a\r\nb\n\nc\r" = ["a", "b", "", "c\r"] := by
  decide

end Text
