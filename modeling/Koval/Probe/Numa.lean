import Koval.Text.Decimal

/-!
This module contains how the probe reads the lists of the ids that the kernel writes.
-/

namespace Koval

namespace parseRangeList

def parsePart (part : List Char) : List Nat :=
  let part := Text.trim part
  if part = [] then
    []
  else if '-' ∈ part then
    match part.splitOn '-' with
    | startStr :: endStr :: _ =>
      match Text.parseU32 startStr, Text.parseU32 endStr with
      | some first, some last => List.range' first (last + 1 - first)
      | _, _ => []
    | _ => []
  else
    match Text.parseU32 part with
    | some id => [id]
    | none => []

end parseRangeList

def parseRangeList (content : String) : List Nat :=
  (content.toList.splitOn ',').flatMap parseRangeList.parsePart

example : parseRangeList "0-1,3,5-6" = [0, 1, 3, 5, 6] := by
  decide

end Koval
