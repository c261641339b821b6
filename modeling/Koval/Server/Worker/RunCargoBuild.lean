import Koval.Conc.Machine
import Koval.Conc.Pipe
import Koval.Server.Crates

/-!
This module contains the run of `cargo` with its output piped, as a machine of two processes: the
child that writes, and the parent that waits for its end before it reads.
-/

namespace Koval

inductive ExitStatus where
  | code (c : Int)
  | signal (n : Nat)
  deriving DecidableEq, Repr

namespace ExitStatus

def success (status : ExitStatus) : Bool := status = code 0

end ExitStatus

structure Output where
  status : ExitStatus
  stdout : Bytes
  stderr : Bytes
  deriving DecidableEq, Repr

inductive IoError where
  | timedOut (msg : String)
  | other (msg : String)
  deriving DecidableEq, Repr

namespace IoError

def toString (err : IoError) : String :=
  match err with
  | timedOut msg => msg
  | other msg => msg

end IoError

namespace runCargoBuild

inductive Stream where
  | stdout
  | stderr
  deriving DecidableEq, Repr

-- What the child does if nothing stops it: all writes, byte by byte, and then the exit.
structure Child where
  writes : List (Stream × UInt8)
  status : ExitStatus

def bytesOf (stream : Stream) (writes : List (Stream × UInt8)) : Bytes :=
  writes.filterMap fun (s, b) => if s = stream then some b else none

inductive Parent where
  | waiting
  | readingStdout (status : ExitStatus) (stdoutBuf : Bytes)
  | readingStderr (status : ExitStatus) (stdoutBuf stderrBuf : Bytes)
  | killing
  | finished (result : Except IoError Output)

structure State (capacity : Nat) where
  pending : List (Stream × UInt8)
  exited : Option ExitStatus
  stdout : Pipe UInt8 capacity
  stderr : Pipe UInt8 capacity
  parent : Parent

inductive Action where
  -- of the child
  | write
  | exit
  -- of the parent
  | waitReturns
  | read (n : Nat)
  | endOfFile
  | timeout
  | kill
  deriving DecidableEq, Repr

variable {capacity : Nat}

def init (child : Child) : State capacity := ⟨child.writes, none, .empty, .empty, .waiting⟩

def writeStep (state : State capacity) : Option (State capacity) :=
  match state.exited, state.pending with
  | none, (.stdout, b) :: pending =>
    (state.stdout.write? b).map fun stdout => { state with pending, stdout }
  | none, (.stderr, b) :: pending =>
    (state.stderr.write? b).map fun stderr => { state with pending, stderr }
  | _, _ => none

def exitStep (status : ExitStatus) (state : State capacity) : Option (State capacity) :=
  match state.exited, state.pending with
  | none, [] => some { state with exited := some status }
  | _, _ => none

-- A read takes at least one byte, and waits while there is none and the pipe is open.
def readStep (n : Nat) (state : State capacity) : Option (State capacity) :=
  match state.parent with
  | .readingStdout status stdoutBuf =>
    if state.stdout.content = [] ∨ n = 0 then
      none
    else
      some { state with
        stdout := state.stdout.drop n
        parent := .readingStdout status (stdoutBuf ++ state.stdout.content.take n) }
  | .readingStderr status stdoutBuf stderrBuf =>
    if state.stderr.content = [] ∨ n = 0 then
      none
    else
      some { state with
        stderr := state.stderr.drop n
        parent := .readingStderr status stdoutBuf (stderrBuf ++ state.stderr.content.take n) }
  | _ => none

-- The end of a stream is seen when its pipe is empty and the child, its only writer, is gone.
def endOfFileStep (state : State capacity) : Option (State capacity) :=
  match state.parent, state.exited with
  | .readingStdout status stdoutBuf, some _ =>
    if state.stdout.content = [] then
      some { state with parent := .readingStderr status stdoutBuf [] }
    else
      none
  | .readingStderr status stdoutBuf stderrBuf, some _ =>
    if state.stderr.content = [] then
      some { state with parent := .finished (.ok ⟨status, stdoutBuf, stderrBuf⟩) }
    else
      none
  | _, _ => none

def step (child : Child) (action : Action) (state : State capacity) : Option (State capacity) :=
  match action with
  | .write => writeStep state
  | .exit => exitStep child.status state
  | .waitReturns =>
    match state.parent, state.exited with
    | .waiting, some status => some { state with parent := .readingStdout status [] }
    | _, _ => none
  | .read n => readStep n state
  | .endOfFile => endOfFileStep state
  | .timeout =>
    match state.parent with
    | .waiting => some { state with parent := .killing }
    | _ => none
  | .kill =>
    match state.parent with
    | .killing =>
      some { state with
        exited := state.exited <|> some (.signal 9)
        parent := .finished (.error (.timedOut "Cargo compilation timed out")) }
    | _ => none

def run (child : Child) (actions : List Action) : Option (State capacity) :=
  Machine.run (step child) (init child) actions

end runCargoBuild

end Koval
