import Koval.Conc.Prog
import Koval.Server.Db
import Koval.Server.Forge
import Koval.Server.Queue
import Koval.Text.Path

/-!
This module contains the state that the handlers and the workers share, and the steps that both of
them take on it.
-/

namespace Koval

structure FileRow where
  path : Path
  content : Bytes
  deriving DecidableEq

structure Command where
  program : String
  args : List Path
  envs : EnvMap := .empty
  currentDir : Option Path := none

-- What the server does outside its own data.
inductive Effect where
  | run (command : Command)
  | createDirAll (path : Path)
  | removeDirAll (path : Path)
  | deliver (payload : WebhookPayload) (webhooks : List (String × String))

-- What has happened to the jobs. No part of the server reads it.
inductive Event where
  | started
  | recorded (job : Job)
  | enqueued (job : Job)
  | answered (tuple : BuildTuple) (id : String)
  | completed (job : Job)
  deriving DecidableEq

structure Settings where
  artifactsDir : Path
  tempDir : Path
  rateLimitLimit : Nat
  queueCapacity : Nat

structure State where
  db : Db
  queue : JobQueue
  -- the files that the server has in its artifacts directory
  files : Table FileRow.path := .empty
  effects : List Effect := []
  -- the latest one first
  history : List Event := []

namespace State

def exists? (s : State) (path : Path) : Bool := s.files.contains path

def note (s : State) (event : Event) : State := { s with history := event :: s.history }

def perform (s : State) (effect : Effect) : State := { s with effects := effect :: s.effects }

def write (s : State) (path : Path) (content : Bytes) : State :=
  { s with files := s.files.replace ⟨path, content⟩ }

def runDb {α : Type} (s : State) (faults : Faults Stmt) (program : DbM α) :
    Except SqlError α × State :=
  let (res, db) := program.run faults s.db
  (res, { s with db })

end State

def perform (effect : Effect) : Prog State Unit := .atomic fun s => ((), s.perform effect)

-- One scope in which the connection is locked.
def lockDb {α : Type} (faults : Faults Stmt) (program : DbM α) : Prog State (Except SqlError α) :=
  .atomic fun s => s.runDb faults program

/-- Stores the row of a job, as the insertion of every handler does. -/
def recordJob (ext : Crates) (faults : Faults Stmt) (job : Job) (queuedAt : String) :
    Prog State (Except SqlError Unit) :=
  .atomic fun s =>
    let (res, s) := s.runDb faults
      (Db.insertJob ext job.id job.tokenId job.project job.gitRef job.hardware queuedAt job.jobType
        job.pgoSourceJobId)
    match res with
    | .ok () => (.ok (), s.note (.recorded job))
    | .error err => (.error err, s)

def enqueue (job : Job) : Prog State (Except QueueError String) :=
  .atomic fun s =>
    let (res, queue) := s.queue.enqueue job
    match res with
    | .ok id => (.ok id, { s with queue }.note (.enqueued job))
    | .error err => (.error err, { s with queue })

end Koval
