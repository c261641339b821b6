import Koval.Conc.Rest
import Koval.Server.JobPlaces

/-!
This module contains what becomes of the work that the server has before it when no more requests
come: it comes to an end, and each job that was accepted has had its turn.
-/

namespace Koval

variable {crates : Crates} {settings : Settings} {system system' : System}

-- Those actions that nobody has to ask the server for.
def Action.isOwn (action : Action) : Bool :=
  match action with
  | .recv _ | .run _ => true
  | .request .. | .changeFiles _ | .restart _ => false

def Label.job? (label : Label) : Option Job :=
  match label with
  | .handler .. => none
  | .worker job => some job

theorem Transition.queue_cases {phase phase' : Phase} {s s' : State}
    (h : Transition crates phase s phase' s')
    : (∃ job, phase = .inserted job
          ∧ s'.core.waiting = s.core.waiting ++ [job]
          ∧ s'.core.enqueuedSinceStart = job :: s.core.enqueuedSinceStart)
        ∨
      (s'.core.waiting = s.core.waiting
        ∧ s'.core.enqueuedSinceStart = s.core.enqueuedSinceStart) := by
  cases h with
  | enqueue hcore =>
    left
    rw [hcore, enqueuedSinceStart_note (by simp)]
    exact ⟨_, rfl, rfl, rfl⟩
  | quiet _ hcore | read hcore =>
    right
    rw [hcore]
    exact ⟨rfl, rfl⟩
  | setStatus _ hcore | storeArtifact _ hcore | storeCache _ hcore =>
    right
    rw [hcore]
    exact ⟨rfl, rfl⟩
  | hit _ _ _ _ _ hcore =>
    right
    rw [hcore, enqueuedSinceStart_note (by simp)]
    exact ⟨rfl, rfl⟩
  | insert _ _ hcore | complete _ hcore =>
    right
    rw [hcore, enqueuedSinceStart_note (by simp)]
    exact ⟨rfl, rfl⟩

theorem JobQueue.jobs_of_recv_eq_none {queue : JobQueue} (h : queue.recv = none)
    : queue.jobs = [] := by
  unfold recv at h
  split at h
  . assumption
  . contradiction

namespace System

variable (crates settings) in
def Goes (system system' : System) : Prop :=
  ∃ action : Action, action.isOwn ∧ system.step crates settings action = some system'

variable (crates settings) in
def IsAtRest (system : System) : Prop := ∀ system', ¬system.Goes crates settings system'

-- The jobs that the workers have been given since the start, the first one first.
def taken (system : System) : List Job := (system.threads.map (·.label)).filterMap Label.job?

-- A handler may put a job on the queue, for which a worker will be started.
def level (label : Label) : Nat := if label.isWorker then 0 else 2

def waitingLevels (s : State) : List Nat := s.queue.jobs.map fun _ => 1

theorem Reachable.goes (h : system.Reachable crates settings)
    (hgoes : system.Goes crates settings system')
    : system'.Reachable crates settings := by
  rcases hgoes with ⟨action, _, hstep⟩
  exact h.step hstep

theorem Reachable.added_of_run (h : system.Reachable crates settings) {i : Nat}
    (hrun : system.runThread i = some system')
    {thread : Thread Label State Answer} (hthread : system.threads[i]? = some thread)
    : ∃ added,
        system'.state.queue.jobs = system.state.queue.jobs ++ added
          ∧
        system'.state.core.enqueuedSinceStart
            = added.reverse ++ system.state.core.enqueuedSinceStart
          ∧
        (added ≠ [] → thread.label.isWorker = false) := by
  rcases h.exists_lives with ⟨phases, hphases, _⟩
  rcases hphases.runThread Agrees.transition hrun with ⟨phase, _, hphase, htrans, _⟩
  rcases hphases.get? hthread with ⟨phase', hphase', hagrees, _⟩
  rw [hphase] at hphase'
  injection hphase' with heq
  rcases htrans.queue_cases with ⟨job, hinserted, hwaiting, henqueued⟩ | ⟨hwaiting, henqueued⟩
  . refine ⟨[job], hwaiting, henqueued, ?_⟩
    intro _
    rw [hagrees.right, ← heq, hinserted]
    rfl
  . refine ⟨[], ?_, henqueued, absurd rfl⟩
    rw [List.append_nil]
    exact hwaiting

theorem cutExpand_of_goes (h : system.Reachable crates settings)
    (hgoes : system.Goes crates settings system')
    : Relation.CutExpand Pool.Lighter (system'.load level waitingLevels)
        (system.load level waitingLevels) := by
  rcases hgoes with ⟨action, hown, hstep⟩
  cases System.stepsTo hstep with
  | run hrun =>
    apply Pool.cutExpand_runThread hrun
    intro thread hthread
    rcases h.added_of_run hrun hthread with ⟨added, hjobs, _, hworker⟩
    refine ⟨added.map fun _ => 1, ?_, ?_⟩
    . unfold waitingLevels
      rw [hjobs, List.map_append]
    . intro low hlow
      rw [List.mem_map] at hlow
      rcases hlow with ⟨job, hjob, rfl⟩
      unfold level
      rw [hworker (List.ne_nil_of_mem hjob)]
      decide
  | @recv externals job queue hjobs hclosed =>
    apply Pool.cutExpand_take rfl
    . unfold waitingLevels
      rw [hjobs]
      rfl
    . exact Nat.zero_lt_one
  | request | changeFiles | restart => contradiction

theorem Reachable.comesToRest (h : system.Reachable crates settings)
    : Machine.ComesToRest (System.Goes crates settings) system := by
  refine Machine.comesToRest_of_load Pool.wellFounded_lighter (Pool.load level waitingLevels) ?_ h
  intro system system' h hgoes
  exact ⟨h.goes hgoes, cutExpand_of_goes h hgoes⟩

theorem IsAtRest.isDone (h : system.IsAtRest crates settings)
    : (∀ thread ∈ system.threads, thread.prog.isDone) ∧ system.state.queue.jobs = [] := by
  constructor
  . intro thread hthread
    rcases List.getElem?_of_mem hthread with ⟨i, hi⟩
    rcases thread with ⟨label, prog⟩
    cases prog with
    | ret a => rfl
    | act effect next => exact absurd ⟨.run i, rfl, Pool.runThread_eq hi⟩ (h _)
  . cases hrecv : system.state.queue.recv with
    | none => exact JobQueue.jobs_of_recv_eq_none hrecv
    | some received =>
      have hstep : ∃ system', system.step crates settings (.recv Samples.externals) = some system' := by
        unfold step
        rw [hrecv]
        exact ⟨_, rfl⟩
      rcases hstep with ⟨system', hstep⟩
      exact absurd ⟨_, rfl, hstep⟩ (h system')

/-- The channel keeps all jobs, and their order. -/
def IsFifo (system : System) : Prop :=
  system.taken ++ system.state.queue.jobs = system.state.core.enqueuedSinceStart.reverse

theorem IsFifo.step {action : Action} (h : system.IsFifo)
    (hreachable : system.Reachable crates settings)
    (hstep : system.step crates settings action = some system')
    : system'.IsFifo := by
  unfold IsFifo taken at *
  cases System.stepsTo hstep with
  | request =>
    unfold Pool.spawn
    dsimp only
    rw [List.map_append, List.filterMap_append]
    exact (congrArg (· ++ system.state.queue.jobs) (List.append_nil _)).trans h
  | @recv externals job queue hjobs hclosed =>
    rw [hjobs] at h
    unfold Pool.spawn
    dsimp only
    rw [List.map_append, List.filterMap_append, List.append_assoc]
    exact h
  | @run i _ hrun =>
    cases hthread : system.threads[i]? with
    | none =>
      have hrun : system.runThread i = some system' := hrun
      unfold Pool.runThread at hrun
      rw [hthread] at hrun
      contradiction
    | some thread =>
      rcases hreachable.added_of_run hrun hthread with ⟨added, hjobs, henqueued, _⟩
      rw [Pool.map_label_of_runThread hrun, hjobs, henqueued, List.reverse_append,
        List.reverse_reverse, ← h, List.append_assoc]
  | changeFiles => exact h
  | restart hthreads hcore =>
    have hjobs : system'.state.queue.jobs = [] := congrArg Core.waiting hcore
    rw [hthreads, hjobs, hcore]
    rfl

theorem Reachable.isFifo (h : system.Reachable crates settings) : system.IsFifo := by
  rcases h with ⟨boot, system₀, actions, hmain, hrun⟩
  have hstart : system₀.Reachable crates settings := ⟨boot, system₀, [], hmain, rfl⟩
  have hfifo : system₀.IsFifo := by
    have ⟨hthreads, hcore⟩ := main_eq_some hmain
    have hjobs : system₀.state.queue.jobs = [] := congrArg Core.waiting hcore
    unfold IsFifo taken
    rw [hthreads, hjobs, hcore]
    rfl
  have hinv : system.Reachable crates settings ∧ system.IsFifo := by
    apply Machine.invariant_of_run
      (I := fun system => System.Reachable crates settings system ∧ system.IsFifo)
      _ ⟨hstart, hfifo⟩ hrun
    rintro action _ system system' ⟨h, hfifo⟩ hstep
    exact ⟨h.step hstep, hfifo.step h hstep⟩
  exact hinv.right

theorem Reachable.recorded_of_goes (h : system.Reachable crates settings)
    (hgoes : system.Goes crates settings system')
    : system.state.core.recordedSinceStart ⊆ system'.state.core.recordedSinceStart := by
  rcases hgoes with ⟨action, hown, hstep⟩
  cases System.stepsTo hstep with
  | run hrun =>
    rcases h.exists_lives with ⟨phases, hphases, _⟩
    rcases hphases.runThread Agrees.transition hrun with ⟨_, _, _, htrans, _⟩
    rcases htrans.recordedSinceStart_cases with ⟨job, _, _, hrecorded⟩ | hrecorded
    . rw [hrecorded]
      exact List.subset_cons_self job _
    . rw [hrecorded]
      exact List.Subset.refl _
  | recv => exact List.Subset.refl _
  | request | changeFiles | restart => contradiction

theorem Reachable.recorded_of_run (h : system.Reachable crates settings)
    (hgoes : Relation.ReflTransGen (System.Goes crates settings) system system')
    : system'.Reachable crates settings
        ∧
      system.state.core.recordedSinceStart ⊆ system'.state.core.recordedSinceStart := by
  induction hgoes with
  | refl => exact ⟨h, List.Subset.refl _⟩
  | tail _ hlast ih =>
    exact ⟨ih.left.goes hlast, fun _ hjob => ih.left.recorded_of_goes hlast (ih.right hjob)⟩

theorem ownedId?_of_isWorker {phase : Phase} (h : phase.isWorker)
    : phase.ownedId? = some phase.jobId := by
  cases phase with
  | received job | building job | finished job => rfl
  | _ => contradiction

theorem InPhases.taken_sublist {phases : List Phase} (h : system.InPhases crates phases)
    : (system.taken.map Job.id).Sublist (phases.filterMap Phase.ownedId?) := by
  unfold System.InPhases at h
  unfold taken
  generalize system.threads = threads at h ⊢
  induction h with
  | nil => exact .slnil
  | @cons thread phase threads phases hhead _ ih =>
    rw [List.map_cons]
    cases hlabel : thread.label with
    | handler request ambient =>
      apply ih.trans
      exact (List.sublist_cons_self phase phases).filterMap Phase.ownedId?
    | worker job =>
      have hagrees : Agrees thread.label phase := hhead.left
      rw [hlabel] at hagrees
      have howned := ownedId?_of_isWorker hagrees.right.symm
      rw [← hagrees.left] at howned
      rw [List.filterMap_cons_some howned]
      exact ih.cons_cons job.id

theorem Reachable.nodup_taken (h : system.Reachable crates settings)
    : (system.taken.map Job.id).Nodup := by
  rcases h.exists_lives with ⟨phases, hphases, hlife⟩
  have hnodup := hlife.owned.nodup
  exact (List.nodup_append.mp hnodup).right.left.sublist hphases.taken_sublist

/--
The server comes to rest, in whatever order it goes on by itself. Then all requests are answered, the
queue is empty, and each job that was put on it since the start has been given to one worker, in this
order. The jobs that were recorded since then, those of before among them, are done or failed, unless
the statement that sets them to failed has failed itself, or their worker has returned an error or
panicked.
-/
theorem Reachable.drains (h : system.Reachable crates settings)
    : Machine.ComesToRest (System.Goes crates settings) system
        ∧
      ∀ system', Relation.ReflTransGen (System.Goes crates settings) system system' →
        system'.IsAtRest crates settings →
          (∀ thread ∈ system'.threads, thread.prog.isDone)
            ∧
          system'.state.queue.jobs = []
            ∧
          system'.taken = system'.state.core.enqueuedSinceStart.reverse
            ∧
          (system'.taken.map Job.id).Nodup
            ∧
          system.state.core.recordedSinceStart ⊆ system'.state.core.recordedSinceStart
            ∧
          ∀ job ∈ system'.state.core.recordedSinceStart, ∃ status,
            system'.state.core.statusOf job.id = some status
              ∧
            (status.IsSettled
              ∨ (status = .queued ∧ system'.HandlerFailed job.id)
              ∨ system'.WorkerFailed job.id) := by
  refine ⟨h.comesToRest, ?_⟩
  intro system' hgoes hrest
  have ⟨hdone, hempty⟩ := hrest.isDone
  have ⟨h', hrecorded⟩ := h.recorded_of_run hgoes
  refine ⟨hdone, hempty, ?_, h'.nodup_taken, hrecorded, ?_⟩
  . have hfifo : system'.taken ++ system'.state.queue.jobs = _ := h'.isFifo
    rw [hempty, List.append_nil] at hfifo
    exact hfifo
  . intro job hjob
    rcases h'.exists_lives with ⟨phases, hphases, hlife⟩
    rcases statusOf_of_recordedSinceStart hlife.recorded hjob with ⟨status, hstatus⟩
    refine ⟨status, hstatus, ?_⟩
    rcases hlife.tracked.places job hjob status hstatus with
      hsettled | ⟨_, hwaiting⟩ | ⟨phase, hphase, hid, hexpected⟩
    . exact .inl hsettled
    . have hwaiting : job.id ∈ system'.state.queue.jobs.map Job.id := hwaiting
      rw [hempty] at hwaiting
      contradiction
    . rw [← hid]
      rcases hphases.holds hlife.isOpen hphase hexpected with
        ⟨thread, hthread, _, _, hopen⟩ | ⟨hworker, hhandler⟩ | hfailed
      . rw [hdone thread hthread] at hopen
        contradiction
      . rcases Phase.queued_or_building hexpected with hqueued | ⟨_, hphaseWorker⟩
        . exact .inr (.inl ⟨hqueued, hhandler⟩)
        . rw [hphaseWorker] at hworker
          contradiction
      . exact .inr (.inr hfailed)

theorem Reachable.drains_submitted
    : ∃ system : System,
        system.IsAtRest Samples.github.crates Samples.settings
          ∧
        ∃ status,
          system.state.core.statusOf "4c1e" = some status
            ∧
          (status.IsSettled
            ∨ (status = .queued ∧ system.HandlerFailed "4c1e")
            ∨ system.WorkerFailed "4c1e") := by
  rcases Samples.exists_of_runs (Samples.submitted 0 (.build Samples.request) "4c1e" 4)
      (fun system => ∃ job ∈ system.state.core.recordedSinceStart, job.id = "4c1e")
      (by decide +kernel) with
    ⟨system₀, system, hmain, hrun, job, hjob, hid⟩
  have h : system.Reachable Samples.github.crates Samples.settings :=
    ⟨Samples.boot, system₀, _, hmain, hrun⟩
  have ⟨hrest, hdrained⟩ := h.drains
  rcases hrest.exists_rest with ⟨system', hgoes, hsystem'⟩
  have ⟨_, _, _, _, hrecorded, hsettled⟩ := hdrained system' hgoes hsystem'
  rw [← hid]
  exact ⟨system', hsystem', hsettled job (hrecorded hjob)⟩

end System

end Koval
