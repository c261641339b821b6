import Koval.Chase.Cycle
import Mathlib.Algebra.Order.Ring.Nat

/-!
This module contains how the probe measures the latency of memory: it follows a chain of indices
through a buffer, and each step needs what the last one has read.
-/

namespace Koval

-- The code indexes; `none` is its panic.
def set? (xs : Array Nat) (i value : Nat) : Option (Array Nat) :=
  if h : i < xs.size then some (xs.set i value h) else none

def swap? (xs : Array Nat) (i j : Nat) : Option (Array Nat) :=
  if h : i < xs.size ∧ j < xs.size then some (xs.swap i j h.left h.right) else none

structure SimpleRng where
  state : UInt64

namespace SimpleRng

def nextU64 (rng : SimpleRng) : UInt64 × SimpleRng :=
  let state := rng.state * 6364136223846793005 + 1442695040888963407
  (state, ⟨state⟩)

def seed : SimpleRng := ⟨0x517cc1b727220a95⟩

end SimpleRng

section

variable {σ : Type} (nextU64 : σ → UInt64 × σ)

def genRange (rng : σ) (limit : Nat) : Nat × σ :=
  if limit = 0 then
    (0, rng)
  else
    let (value, rng) := nextU64 rng
    (value.toNat % limit, rng)

namespace buildPointerChaseChain

-- The iterations of the loop for `i` and what is below it.
def shuffle (rng : σ) (indices : Array Nat) (i : Nat) : Option (Array Nat) :=
  match i with
  | 0 => some indices
  | i + 1 => do
    let (j, rng) := genRange nextU64 rng (i + 1 + 1)
    let indices ← swap? indices (i + 1) j
    shuffle rng indices i

def link (indices buf : Array Nat) (count : Nat) : Option (Array Nat) :=
  match count with
  | 0 => some buf
  | i + 1 => do
    let buf ← link indices buf i
    set? buf (← indices[i]?) (← indices[i + 1]?)

end buildPointerChaseChain

open buildPointerChaseChain in
def buildPointerChaseChain (rng : σ) (buf : Array Nat) : Option (Nat × Array Nat) :=
  let n := buf.size
  if n = 0 then
    some (0, buf)
  else if n = 1 then do
    let buf ← set? buf 0 0
    return (1, buf)
  else do
    let indices := Array.range' 1 (n - 1)
    let indices ← shuffle nextU64 rng indices (indices.size - 1)
    let buf ← set? buf 0 (← indices[0]?)
    let buf ← link indices buf (n - 2)
    let buf ← set? buf (← indices[n - 2]?) 0
    return (n, buf)

-- Both loops: each step reads the index that the next one uses.
def chase (buf : Array Nat) (steps curr : Nat) : Option Nat :=
  Chase.follow (fun curr => buf[curr]?) steps curr

/--
How many nanoseconds, which the clock says, so many steps have taken. The latency is their quotient.
-/
def measureLatencyNs (rng : σ) (workingSetBytes iterations elapsedNs : Nat)
    : Option (Option (Nat × Nat)) :=
  let numElements := workingSetBytes / 8
  if iterations = 0 then
    some none
  else if numElements = 0 then
    some none
  else do
    let (chainLength, buf) ← buildPointerChaseChain nextU64 rng (Array.replicate numElements 0)
    if chainLength = 0 then
      return none
    let _ ← chase buf (min chainLength 100000) 0
    -- the product wraps in a release build
    let totalSteps := min (iterations * chainLength % 2 ^ 64) 1000000
    let _ ← chase buf totalSteps 0
    if elapsedNs = 0 then
      return none
    return some (elapsedNs, totalSteps)

end

end Koval
