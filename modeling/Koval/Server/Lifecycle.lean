import Koval.Server.Routes.Pgo

/-!
This module contains the life of jobs, apart from all else that the server does: what a handler or a
worker holds between two of its steps, and how a step may change the rows and the queue.
-/

namespace Koval

structure Core where
  jobs : Table JobRow.id
  artifacts : Table ArtifactRow.jobId
  buildCache : Table CacheRow.cacheKey
  waiting : List Job
  isClosed : Bool
  history : List Event

def State.core (s : State) : Core :=
  ⟨s.db.jobs, s.db.artifacts, s.db.buildCache, s.queue.jobs, s.queue.isClosed, s.history⟩

inductive Phase where
  -- of a handler
  | idle (uuid : String)
  | source (uuid : String) (details : Db.JobDetails)
  | inserted (job : Job)
  | refused (job : Job)
  | abandoned (job : Job)
  | dropped (job : Job)
  | accepted (job : Job)
  -- of a worker
  | received (job : Job)
  | building (job : Job)
  | finished (job : Job)
  deriving DecidableEq

namespace Phase

def isWorker (phase : Phase) : Bool :=
  match phase with
  | received _ | building _ | finished _ => true
  | _ => false

def jobId (phase : Phase) : String :=
  match phase with
  | idle uuid | source uuid _ => uuid
  | inserted job | refused job | abandoned job | dropped job | accepted job => job.id
  | received job | building job | finished job => job.id

-- The job that only this thread may still change, or has ended.
def ownedId? (phase : Phase) : Option String :=
  match phase with
  | accepted _ => none
  | _ => some phase.jobId

-- What the status of that job has to be, if that is known; a job that is not there has none.
def expected? (phase : Phase) : Option (Option Status) :=
  match phase with
  | idle _ | source _ _ => some none
  | inserted _ | refused _ | dropped _ | received _ => some (some .queued)
  | building _ => some (some .building)
  | abandoned _ | accepted _ | finished _ => none

def job? (phase : Phase) : Option Job :=
  match phase with
  | idle _ | source _ _ => none
  | inserted job | refused job | abandoned job | dropped job | accepted job => some job
  | received job | building job | finished job => some job

/-- The jobs that a handler may insert. -/
def MayInsert (phase : Phase) (job : Job) : Prop :=
  match phase with
  | idle uuid => job.id = uuid ∧ job.jobType ≠ .pgoOptimize
  | source uuid details =>
    job = uploadProfilesHandler.optJob details uuid details.tokenId details.id
  | _ => False

theorem MayInsert.ownedId?_eq {phase : Phase} {job : Job} (h : phase.MayInsert job)
    : phase.ownedId? = some job.id := by
  cases phase with
  | idle uuid => exact congrArg some h.left.symm
  | source uuid details =>
    have h : job = uploadProfilesHandler.optJob _ _ _ _ := h
    rw [h]
    rfl
  | _ => contradiction

theorem jobId_of_ownedId? {phase : Phase} {id : String} (h : phase.ownedId? = some id)
    : phase.jobId = id := by
  cases phase with
  | accepted job => contradiction
  | _ => exact Option.some.inj h

end Phase

-- Changes of the phase that change nothing else.
inductive Moves (c : Core) : Phase → Phase → Prop where
  | stay (phase : Phase) : Moves c phase phase
  | refuse (job : Job) : Moves c (.inserted job) (.refused job)
  | drop (job : Job) (hclosed : c.isClosed) : Moves c (.inserted job) (.dropped job)

-- Changes of the phase that come with an update of the status.
inductive SetsStatus :
    Phase → Status → Option String → Option String → Option String → Phase → Prop where
  | start (job : Job) (now : String) :
    SetsStatus (.received job) .building (some now) none none (.building job)
  | fail (job : Job) (now msg : String) :
    SetsStatus (.building job) .failed none (some now) (some msg) (.finished job)
  | failRefused (job : Job) (now msg : String) :
    SetsStatus (.refused job) .failed none (some now) (some msg) (.abandoned job)

def JobRow.ofJob (ext : Crates) (job : Job) (queuedAt : String) : JobRow := {
  id := job.id
  tokenId := job.tokenId
  project := job.project
  gitRef := job.gitRef
  hardwareJson := Koval.hardwareJson ext job.hardware
  status := .queued
  queuedAt
  jobType := job.jobType
  pgoSourceJobId := job.pgoSourceJobId
}

def JobRow.submitted (row : JobRow) : JobRow :=
  { row with status := .queued, startedAt := none, finishedAt := none, errorMsg := none }

def JobRow.details (ext : Crates) (row : JobRow) : Db.JobDetails := {
  id := row.id
  tokenId := row.tokenId
  project := row.project
  gitRef := row.gitRef
  hardware := Db.profileOrDefault ext row.hardwareJson
  status := row.status
  jobType := row.jobType
}

namespace Core

def setStatus (c : Core) (id : String) (status : Status)
    (startedAt finishedAt errorMsg : Option String) : Core :=
  { c with
    jobs := c.jobs.updateKey id (JobRow.setStatus status startedAt finishedAt errorMsg)
      (JobRow.id_setStatus _ _ _ _) }

def setArtifact (c : Core) (row : ArtifactRow) : Core :=
  { c with artifacts := c.artifacts.replace row }

def setCache (c : Core) (row : CacheRow) : Core := { c with buildCache := c.buildCache.replace row }

def note (c : Core) (event : Event) : Core := { c with history := event :: c.history }

def statusOf (c : Core) (id : String) : Option Status := (c.jobs.find? id).map (·.status)

def submittedOf (c : Core) (id : String) : Option JobRow := (c.jobs.find? id).map (·.submitted)

def recorded (c : Core) : List Job :=
  c.history.filterMap fun
    | .recorded job => some job
    | _ => none

-- By the handlers of the process that is running now.
def recordedSinceStart (c : Core) : List Job :=
  (c.history.takeWhile (· ≠ .started)).filterMap fun
    | .recorded job => some job
    | _ => none

def enqueued (c : Core) : List Job :=
  c.history.filterMap fun
    | .enqueued job => some job
    | _ => none

def enqueuedSinceStart (c : Core) : List Job :=
  (c.history.takeWhile (· ≠ .started)).filterMap fun
    | .enqueued job => some job
    | _ => none

-- The latest one first.
def completed (c : Core) : List Job :=
  c.history.filterMap fun
    | .completed job => some job
    | _ => none

def lastCompleted (c : Core) (ext : Crates) (cacheKey : String) : Option Job :=
  c.completed.find? fun job => job.tuple.cacheKey ext = cacheKey

end Core

/-- How a step of a thread may change its phase and the state. -/
inductive Transition (ext : Crates) : Phase → State → Phase → State → Prop where
  | quiet {phase phase' : Phase} {s s' : State} (hmoves : Moves s.core phase phase')
    (hcore : s'.core = s.core) : Transition ext phase s phase' s'
  | read {uuid : String} {row : JobRow} {s s' : State} (hcore : s'.core = s.core)
    (hrow : row ∈ s.core.jobs.rows) (htype : row.jobType = .pgoInstrument)
    (hdone : row.status = .done) :
    Transition ext (.idle uuid) s (.source uuid (row.details ext)) s'
  | hit {uuid : String} {tuple : BuildTuple} {cacheRow : CacheRow} {row : JobRow}
    {artifact : ArtifactRow} {s s' : State}
    (hcache : s.core.buildCache.find? (tuple.cacheKey ext) = some cacheRow)
    (hrow : s.core.jobs.find? cacheRow.jobId = some row) (hdone : row.status = .done)
    (hartifact : s.core.artifacts.find? cacheRow.jobId = some artifact)
    (hexists : s.exists? (.ofString artifact.filePath))
    (hcore : s'.core = s.core.note (.answered tuple cacheRow.jobId)) :
    Transition ext (.idle uuid) s (.idle uuid) s'
  | insert {phase : Phase} {job : Job} {queuedAt : String} {jobs : Table JobRow.id} {s s' : State}
    (hmay : phase.MayInsert job)
    (hinsert : s.core.jobs.insert? (.ofJob ext job queuedAt) = some jobs)
    (hcore : s'.core = { s.core with jobs }.note (.recorded job)) :
    Transition ext phase s (.inserted job) s'
  | enqueue {job : Job} {s s' : State}
    (hcore : s'.core = { s.core with waiting := s.core.waiting ++ [job] }.note (.enqueued job)) :
    Transition ext (.inserted job) s (.accepted job) s'
  | setStatus {phase phase' : Phase} {status : Status}
    {startedAt finishedAt errorMsg : Option String} {s s' : State}
    (hsets : SetsStatus phase status startedAt finishedAt errorMsg phase')
    (hcore : s'.core = s.core.setStatus phase.jobId status startedAt finishedAt errorMsg) :
    Transition ext phase s phase' s'
  -- the completion is broken off after the first or the second of its three statements
  | storeArtifact {job : Job} {artifact : ArtifactRow} {s s' : State}
    (hid : artifact.jobId = job.id) (hcore : s'.core = s.core.setArtifact artifact) :
    Transition ext (.building job) s (.building job) s'
  | storeCache {job : Job} {artifact : ArtifactRow} {now : String} {s s' : State}
    (hid : artifact.jobId = job.id)
    (hcore : s'.core =
      (s.core.setArtifact artifact).setCache ⟨job.tuple.cacheKey ext, job.id, now⟩) :
    Transition ext (.building job) s (.building job) s'
  | complete {job : Job} {artifact : ArtifactRow} {now : String} {s s' : State}
    (hid : artifact.jobId = job.id)
    (hcore : s'.core =
      (((s.core.setArtifact artifact).setCache ⟨job.tuple.cacheKey ext, job.id, now⟩).setStatus
        job.id .done none (some now) none).note (.completed job)) :
    Transition ext (.building job) s (.finished job) s'

/--
How a step of the server may change the state and the phases of its threads, whose order does not
matter.
-/
inductive Advance (ext : Crates) : State → List Phase → State → List Phase → Prop where
  | thread {phase phase' : Phase} {others : List Phase} {s s' : State}
    (htrans : Transition ext phase s phase' s') :
    Advance ext s (phase :: others) s' (phase' :: others)
  | spawn {uuid : String} {phases : List Phase} {s : State}
    (hjobs : s.core.jobs.find? uuid = none) (hphases : ∀ phase ∈ phases, phase.jobId ≠ uuid) :
    Advance ext s phases s (.idle uuid :: phases)
  | recv {job : Job} {phases : List Phase} {waiting : List Job} {s s' : State}
    (hwaiting : s.core.waiting = job :: waiting)
    (hcore : s'.core = { s.core with waiting }) :
    Advance ext s phases s' (.received job :: phases)
  | outside {phases : List Phase} {s s' : State} (hcore : s'.core = s.core) :
    Advance ext s phases s' phases
  | restart {phases : List Phase} {s s' : State}
    (hcore : s'.core = { s.core with waiting := [], isClosed := false }.note .started) : Advance ext s phases s' []

theorem Transition.jobId_eq {ext : Crates} {phase phase' : Phase} {s s' : State}
    (h : Transition ext phase s phase' s')
    : phase'.jobId = phase.jobId := by
  cases h with
  | quiet hmoves => cases hmoves <;> rfl
  | setStatus hsets => cases hsets <;> rfl
  | insert hmay => exact (Phase.jobId_of_ownedId? hmay.ownedId?_eq).symm
  | _ => rfl

theorem Transition.isWorker_eq {ext : Crates} {phase phase' : Phase} {s s' : State}
    (h : Transition ext phase s phase' s')
    : phase'.isWorker = phase.isWorker := by
  cases h with
  | quiet hmoves => cases hmoves <;> rfl
  | setStatus hsets => cases hsets <;> rfl
  | insert hmay =>
    cases phase with
    | idle uuid => rfl
    | source uuid details => rfl
    | _ => contradiction
  | _ => rfl

end Koval
