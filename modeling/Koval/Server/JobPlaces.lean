import Koval.Server.JobLife

/-!
This module contains where the jobs of the running server are that are neither done nor failed.
-/

namespace Koval

variable {crates : Crates} {settings : Settings} {system : System}

def System.IsWaiting (system : System) (id : String) : Prop :=
  (system.state.queue.jobs.map Job.id).count id = 1

/-- A handler or a worker has the job between two of its steps. -/
def System.IsHeld (system : System) (id : String) : Prop :=
  ∃ thread ∈ system.threads, thread.label.jobId = id ∧ thread.prog.isDone = false

def System.IsProcessed (system : System) (id : String) : Prop :=
  ∃ thread ∈ system.threads,
    thread.label.isWorker ∧ thread.label.jobId = id ∧ thread.prog.isDone = false

/-- A handler could not set its job to failed, and has answered with an error. -/
def System.HandlerFailed (system : System) (id : String) : Prop :=
  ∃ thread ∈ system.threads, ∃ request ambient response,
    thread.label = .handler request ambient
      ∧
    ambient.uuid = id
      ∧
    thread.prog = .ret (.response response)
      ∧
    response.IsServerError
      ∧
    ∃ scope msg, ambient.faults scope .updateJobStatus = some msg

def System.WorkerFailed (system : System) (id : String) : Prop :=
  ∃ thread ∈ system.threads, ∃ job outcome,
    thread.label = .worker job
      ∧
    job.id = id
      ∧
    thread.prog = .ret (.outcome outcome)
      ∧
    outcome ≠ .ok

theorem Owned.count_waiting {c : Core} {phases : List Phase} (h : Owned c phases) {id : String}
    (hid : id ∈ c.waiting.map Job.id)
    : (c.waiting.map Job.id).count id = 1 :=
  List.count_eq_one_of_mem (List.nodup_append'.mp h.nodup).left hid

theorem Phase.queued_or_building {phase : Phase} {status : Status}
    (h : phase.expected? = some (some status))
    : status = .queued ∨ (status = .building ∧ phase.isWorker) := by
  cases phase with
  | inserted | refused | dropped | received =>
    injection h with h
    injection h with h
    exact .inl h.symm
  | building =>
    injection h with h
    injection h with h
    exact .inr ⟨h.symm, rfl⟩
  | idle | source => simp [expected?] at h
  | _ => contradiction

theorem System.InPhases.holds {phases : List Phase} (h : system.InPhases crates phases)
    (hopen : Open system.state.core phases) {phase : Phase} (hphase : phase ∈ phases)
    {status : Status} (hexpected : phase.expected? = some (some status))
    : (∃ thread ∈ system.threads,
          thread.label.isWorker = phase.isWorker
            ∧
          thread.label.jobId = phase.jobId
            ∧
          thread.prog.isDone = false)
        ∨ (phase.isWorker = false ∧ system.HandlerFailed phase.jobId)
        ∨ system.WorkerFailed phase.jobId := by
  rcases h.getThread? hphase with ⟨⟨label, prog⟩, hthread, ⟨hid, hworker⟩, hfollows⟩
  cases prog with
  | act effect next => exact .inl ⟨_, hthread, hworker, hid, rfl⟩
  | ret answer =>
    have hsettles : Settles label phase answer := hfollows
    cases label with
    | worker job =>
      cases answer with
      | response => contradiction
      | outcome outcome =>
        refine .inr (.inr ⟨_, hthread, job, outcome, rfl, hid, rfl, ?_⟩)
        rintro rfl
        have hphase : phase = .finished job := hsettles
        rw [hphase] at hexpected
        contradiction
    | handler request ambient =>
      cases answer with
      | outcome => contradiction
      | response response =>
        have hanswers := hsettles.answers
        cases phase with
        | refused job =>
          exact .inr (.inl ⟨rfl, _, hthread, request, ambient, response, rfl, hid, rfl, hanswers⟩)
        | dropped job => exact absurd hphase (hopen.dropped job)
        | idle | source => simp [Phase.expected?] at hexpected
        | _ => contradiction

theorem Life.statusOf_worker {c : Core} {phases : List Phase} (h : Life crates c phases)
    {phase : Phase} (hphase : phase ∈ phases) (hworker : phase.isWorker)
    : ∃ status, c.statusOf phase.jobId = some status
        ∧ (status.IsSettled ∨ phase.expected? = some (some status)) := by
  cases phase with
  | received job => exact ⟨.queued, h.owned.phases _ hphase _ rfl, .inr rfl⟩
  | building job => exact ⟨.building, h.owned.phases _ hphase _ rfl, .inr rfl⟩
  | finished job =>
    rcases h.handed.finished job hphase with ⟨status, hstatus, hsettled⟩
    exact ⟨status, hstatus, .inl hsettled⟩
  | _ => contradiction

theorem statusOf_of_recordedSinceStart {c : Core} {phases : List Phase}
    (h : Recorded crates c phases) {job : Job} (hjob : job ∈ c.recordedSinceStart)
    : ∃ status, c.statusOf job.id = some status := by
  have hrecorded : job ∈ c.recorded := by
    apply ((List.takeWhile_sublist _).filterMap _).mem
    exact hjob
  rcases h.rows job hrecorded with ⟨queuedAt, hsubmitted⟩
  rw [Core.submittedOf, Option.map_eq_some_iff] at hsubmitted
  rcases hsubmitted with ⟨row, hrow, _⟩
  exact ⟨row.status, by rw [Core.statusOf, hrow]; rfl⟩

/--
In every state that the server reaches, with faults and restarts: a job that the running process has
recorded is settled, or it is queued and in the channel or held, or building and being processed; or
else a statement has failed for the handler that should have set it to failed, or its worker has
returned an error or panicked. For a job that was put on the queue, the handler has no more part.
-/
theorem System.Reachable.jobs_placed (h : system.Reachable crates settings)
    : (∀ job ∈ system.state.core.recordedSinceStart, ∃ status,
        system.state.core.statusOf job.id = some status
          ∧
        (status.IsSettled
          ∨ (status = .queued ∧ (system.IsWaiting job.id ∨ system.IsHeld job.id))
          ∨ (status = .building ∧ system.IsProcessed job.id)
          ∨ (status = .queued ∧ system.HandlerFailed job.id)
          ∨ system.WorkerFailed job.id))
        ∧
      (∀ job ∈ system.state.core.enqueuedSinceStart, ∃ status,
        system.state.core.statusOf job.id = some status
          ∧
        (status.IsSettled
          ∨ (status = .queued ∧ system.IsWaiting job.id)
          ∨ system.IsProcessed job.id
          ∨ system.WorkerFailed job.id)) := by
  rcases h.exists_lives with ⟨phases, hphases, hlife⟩
  constructor
  . intro job hjob
    rcases statusOf_of_recordedSinceStart hlife.recorded hjob with ⟨status, hstatus⟩
    refine ⟨status, hstatus, ?_⟩
    rcases hlife.tracked.places job hjob status hstatus with
      hsettled | ⟨hqueued, hwaiting⟩ | ⟨phase, hphase, hid, hexpected⟩
    . exact .inl hsettled
    . exact .inr (.inl ⟨hqueued, .inl (hlife.owned.count_waiting hwaiting)⟩)
    . rw [← hid]
      rcases hphases.holds hlife.isOpen hphase hexpected with
        ⟨thread, hthread, hworker, hthreadId, hdone⟩ | ⟨hworker, hhandler⟩ | hfailed
      . rcases Phase.queued_or_building hexpected with hqueued | ⟨hbuilding, hphaseWorker⟩
        . exact .inr (.inl ⟨hqueued, .inr ⟨thread, hthread, hthreadId, hdone⟩⟩)
        . rw [hphaseWorker] at hworker
          exact .inr (.inr (.inl ⟨hbuilding, thread, hthread, hworker, hthreadId, hdone⟩))
      . rcases Phase.queued_or_building hexpected with hqueued | ⟨_, hphaseWorker⟩
        . exact .inr (.inr (.inr (.inl ⟨hqueued, hhandler⟩)))
        . rw [hphaseWorker] at hworker
          contradiction
      . exact .inr (.inr (.inr (.inr hfailed)))
  . intro job hjob
    rcases hlife.handed.jobs job hjob with hwaiting | ⟨phase, hphase, hworker, hid⟩
    . refine ⟨.queued, hlife.owned.waiting job hwaiting, .inr (.inl ⟨rfl, ?_⟩)⟩
      exact hlife.owned.count_waiting (List.mem_map_of_mem hwaiting)
    . rw [← hid]
      rcases hlife.statusOf_worker hphase hworker with ⟨status, hstatus, hsettled | hexpected⟩
      . exact ⟨status, hstatus, .inl hsettled⟩
      . refine ⟨status, hstatus, ?_⟩
        rcases hphases.holds hlife.isOpen hphase hexpected with
          ⟨thread, hthread, hthreadWorker, hthreadId, hdone⟩ | ⟨hphaseWorker, _⟩ | hfailed
        . rw [hworker] at hthreadWorker
          exact .inr (.inr (.inl ⟨thread, hthread, hthreadWorker, hthreadId, hdone⟩))
        . rw [hphaseWorker] at hworker
          contradiction
        . exact .inr (.inr (.inr hfailed))

theorem System.Reachable.jobs_placed_waiting
    : ∃ system : System, ∃ job ∈ system.state.core.enqueuedSinceStart, system.IsWaiting job.id := by
  rcases Samples.exists_of_runs (Samples.submitted 0 (.build Samples.request) "4c1e" 4)
      (fun system => (∃ job ∈ system.state.core.enqueuedSinceStart, job.id = "4c1e")
        ∧ system.state.core.statusOf "4c1e" = some .queued
        ∧ ∀ thread ∈ system.threads, thread.label.isWorker = false)
      (by decide +kernel) with
    ⟨system₀, system, hmain, hrun, ⟨job, hjob, hid⟩, hqueued, hhandlers⟩
  have hreachable : system.Reachable Samples.github.crates Samples.settings :=
    ⟨Samples.boot, system₀, _, hmain, hrun⟩
  refine ⟨system, job, hjob, ?_⟩
  rcases hreachable.jobs_placed.right job hjob with
    ⟨status, hstatus, hsettled | ⟨_, hwaiting⟩ | ⟨thread, hthread, hworker, _⟩ |
      ⟨thread, hthread, _, _, hlabel, _⟩⟩
  . rw [hid, hqueued] at hstatus
    injection hstatus with hstatus
    rw [← hstatus] at hsettled
    rcases hsettled with hsettled | hsettled <;> contradiction
  . exact hwaiting
  . rw [hhandlers thread hthread] at hworker
    contradiction
  . have hworker := hhandlers thread hthread
    rw [hlabel] at hworker
    contradiction

-- The server starts again while a job waits.
theorem jobs_lost_by_restart
    : ¬ ∀ (crates : Crates) (settings : Settings) (system : System),
        system.Reachable crates settings → ∀ id,
          (system.state.core.statusOf id = some .queued → system.IsWaiting id ∨ system.IsHeld id)
            ∧
          (system.state.core.statusOf id = some .building → system.IsProcessed id) := by
  intro hall
  rcases Samples.exists_of_runs
      (Samples.submitted 0 (.build Samples.request) "4c1e" 4 ++ [.restart Samples.boot])
      (fun system => system.state.core.statusOf "4c1e" = some .queued
        ∧ system.state.queue.jobs = [] ∧ system.threads.length = 0)
      (by decide +kernel) with
    ⟨system₀, system, hmain, hrun, hqueued, hempty, hthreads⟩
  rw [List.length_eq_zero_iff] at hthreads
  rcases (hall _ _ system ⟨Samples.boot, system₀, _, hmain, hrun⟩ "4c1e").left hqueued with
    hwaiting | ⟨thread, hthread, _⟩
  . unfold System.IsWaiting at hwaiting
    rw [hempty] at hwaiting
    contradiction
  . rw [hthreads] at hthread
    contradiction

end Koval
