import Mathlib.Data.String.Basic

/-!
This module contains the reading of bytes as UTF-8: with a replacement character for each maximal
part that is not well-formed, and with failure.
-/

namespace Utf8

abbrev Bytes := List UInt8

def encode (s : String) : Bytes := s.toByteArray.data.toList

theorem encode_inj {s t : String} : encode s = encode t ↔ s = t := by
  constructor
  . intro h
    apply String.toByteArray_inj.mp
    apply ByteArray.ext
    apply Array.toList_inj.mp
    exact h
  . intro h
    rw [h]

def replacement : Char := '\uFFFD'

def isContinuation (b : UInt8) : Bool := 0x80 ≤ b && b ≤ 0xBF

-- The values of the second byte that make a sequence of three bytes neither overlong nor a surrogate.
def secondOfThree (b c : UInt8) : Bool :=
  if b = 0xE0 then 0xA0 ≤ c && c ≤ 0xBF
  else if b = 0xED then 0x80 ≤ c && c ≤ 0x9F
  else isContinuation c

-- The values of the second byte that make a sequence of four bytes neither overlong nor too large.
def secondOfFour (b c : UInt8) : Bool :=
  if b = 0xF0 then 0x90 ≤ c && c ≤ 0xBF
  else if b = 0xF4 then 0x80 ≤ c && c ≤ 0x8F
  else isContinuation c

namespace decodeLossy

-- The character that `b` and `rest` start with, and how many bytes of `rest` belong to it.
def first (b : UInt8) (rest : Bytes) : Char × Nat :=
  let low i := (rest.getD i 0).toNat % 64
  if b < 0x80 then
    (Char.ofNat b.toNat, 0)
  else if 0xC2 ≤ b && b ≤ 0xDF then
    if !rest[0]?.any isContinuation then
      (replacement, 0)
    else
      (Char.ofNat (b.toNat % 32 * 64 + low 0), 1)
  else if 0xE0 ≤ b && b ≤ 0xEF then
    if !rest[0]?.any (secondOfThree b) then
      (replacement, 0)
    else if !rest[1]?.any isContinuation then
      (replacement, 1)
    else
      (Char.ofNat ((b.toNat % 16 * 64 + low 0) * 64 + low 1), 2)
  else if 0xF0 ≤ b && b ≤ 0xF4 then
    if !rest[0]?.any (secondOfFour b) then
      (replacement, 0)
    else if !rest[1]?.any isContinuation then
      (replacement, 1)
    else if !rest[2]?.any isContinuation then
      (replacement, 2)
    else
      (Char.ofNat (((b.toNat % 8 * 64 + low 0) * 64 + low 1) * 64 + low 2), 3)
  else
    (replacement, 0)

def go (bytes : Bytes) (skip : Nat) : List Char :=
  match bytes, skip with
  | [], _ => []
  | _ :: rest, skip + 1 => go rest skip
  | b :: rest, 0 =>
    let (c, skip) := first b rest
    c :: go rest skip

end decodeLossy

def decodeLossy (bytes : Bytes) : List Char := decodeLossy.go bytes 0

def toStringLossy (bytes : Bytes) : String := String.ofList (decodeLossy bytes)

/-- The text whose UTF-8 the bytes are. -/
def toStr (bytes : Bytes) : Option String :=
  let s := toStringLossy bytes
  if encode s = bytes then some s else none

example : decodeLossy [0xE2, 0x82, 0xAC, 0xFF, 0x41, 0xF0, 0x9F] = ['€', '\uFFFD', 'A', '\uFFFD'] := by
  decide

end Utf8
