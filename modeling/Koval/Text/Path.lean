import Koval.Text.Utf8

/-!
This module contains file paths of a Unix system: bytes, in which only the slash and the dot mean
something.
-/

namespace Koval

abbrev Path := Utf8.Bytes

namespace Path

def slash : UInt8 := 47

def dot : UInt8 := 46

def ofString (s : String) : Path := Utf8.encode s

def isAbsolute (path : Path) : Bool := path.head? == some slash

def join (base path : Path) : Path :=
  if path.isAbsolute then
    path
  else if base.getLast?.all (· = slash) then
    base ++ path
  else
    base ++ slash :: path

def splitSlash (path : Path) : List Path := path.splitOn slash

-- What names something: repeated and trailing slashes and the current directory do not.
def components (path : Path) : List Path :=
  path.splitSlash.filter fun c => c ≠ [] ∧ c ≠ [dot]

def fileName (path : Path) : Option Path :=
  match path.components.getLast? with
  | some name => if name = [dot, dot] then none else some name
  | none => none

def childName? (dir path : Path) : Option Path :=
  let base := dir.join []
  if base.isPrefixOf path then
    let name := path.drop base.length
    if name ≠ [] ∧ slash ∉ name then some name else none
  else
    none

def extension (path : Path) : Option Path :=
  match path.fileName with
  | some name =>
    let after := name.reverse.takeWhile (· ≠ dot)
    -- neither without a dot, nor when the only one is in front
    if after.length + 1 < name.length then some after.reverse else none
  | none => none

def display (path : Path) : String := Utf8.toStringLossy path

end Path

end Koval
