import Koval.Text.Slices

/-!
This module contains the tables of the command line, whose widths are bytes where they cut a text and
characters where they pad it.
-/

namespace Koval

open Text (byteSize sliceTo)

-- `none` is a panic: here, that so long a text does not fit into memory.
def repeatDash (n : Nat) : Option (List Char) :=
  if n < 2 ^ 63 then some (List.replicate n '-') else none

namespace printDivider

def go (widths : List Nat) (divider : List Char) : Option (List Char) :=
  match widths with
  | [] => some divider
  | w :: widths => do
    -- the sum wraps in a release build
    let dashes ← repeatDash ((w + 2) % 2 ^ 64)
    go widths (divider ++ '+' :: dashes)

end printDivider

def printDivider (widths : List Nat) : Option String := do
  let divider ← printDivider.go widths []
  return String.ofList (divider ++ ['+'])

namespace printRow

def isCharBoundary (col : List Char) (index : Nat) : Bool := (sliceTo col index).isSome

-- The loop; zero is a boundary of every text.
def lastBoundary (col : List Char) (last : Nat) : Nat :=
  match last with
  | 0 => 0
  | last + 1 => if isCharBoundary col (last + 1) then last + 1 else lastBoundary col last

def cut (col : List Char) (width : Nat) : Option (List Char) :=
  if byteSize col > width then sliceTo col (lastBoundary col width) else some col

/-- What the formatting takes for a width has 16 bits, and it panics on a larger one. -/
def pad (val : List Char) (width : Nat) : Option (List Char) :=
  if width < 2 ^ 16 then some (val ++ List.replicate (width - val.length) ' ') else none

def go (widths : List Nat) (i : Nat) (cols : List String) (row : List Char) : Option (List Char) :=
  match cols with
  | [] => some row
  | col :: cols => do
    let width ← widths[i]?
    let val ← cut col.toList width
    let padded ← pad val width
    go widths (i + 1) cols (row ++ ['|', ' '] ++ padded ++ [' '])

end printRow

def printRow (cols : List String) (widths : List Nat) : Option String := do
  let row ← printRow.go widths 0 cols []
  return String.ofList (row ++ ['|'])

end Koval
