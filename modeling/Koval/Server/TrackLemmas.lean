import Koval.Server.LifecycleLemmas

/-!
This module contains where the jobs are that are not settled yet.
-/

namespace Koval

variable {ext : Crates} {phase phase' : Phase} {others phases phases' : List Phase} {s s' : State}

theorem enqueuedSinceStart_note {event : Event} (h : event ≠ .started) (c : Core)
    : (c.note event).enqueuedSinceStart
        =
      match event with
      | .enqueued job => job :: c.enqueuedSinceStart
      | _ => c.enqueuedSinceStart := by
  unfold Core.enqueuedSinceStart Core.note
  dsimp only
  rw [List.takeWhile_cons_of_pos (by simpa using h)]
  cases event <;> rfl

theorem recordedSinceStart_note {event : Event} (h : event ≠ .started) (c : Core)
    : (c.note event).recordedSinceStart
        =
      match event with
      | .recorded job => job :: c.recordedSinceStart
      | _ => c.recordedSinceStart := by
  unfold Core.recordedSinceStart Core.note
  dsimp only
  rw [List.takeWhile_cons_of_pos (by simpa using h)]
  cases event <;> rfl

theorem Transition.recordedSinceStart_cases (h : Transition ext phase s phase' s')
    : (∃ job, phase.MayInsert job ∧ phase' = .inserted job
          ∧ s'.core.recordedSinceStart = job :: s.core.recordedSinceStart)
        ∨
      s'.core.recordedSinceStart = s.core.recordedSinceStart := by
  cases h with
  | insert hmay hinsert hcore =>
    left
    rw [hcore, recordedSinceStart_note (by simp)]
    exact ⟨_, hmay, rfl, rfl⟩
  | quiet hmoves hcore =>
    right
    rw [hcore]
  | read hcore =>
    right
    rw [hcore]
  | hit _ _ _ _ _ hcore =>
    right
    rw [hcore, recordedSinceStart_note (by simp)]
  | enqueue hcore =>
    right
    rw [hcore, recordedSinceStart_note (by simp)]
    rfl
  | setStatus hsets hcore =>
    right
    rw [hcore]
    rfl
  | storeArtifact _ hcore | storeCache _ hcore =>
    right
    rw [hcore]
    rfl
  | complete _ hcore =>
    right
    rw [hcore, recordedSinceStart_note (by simp)]
    rfl

def Placed (c : Core) (phases : List Phase) (id : String) (status : Status) : Prop :=
  (status = .queued ∧ id ∈ c.waiting.map Job.id)
    ∨ ∃ phase ∈ phases, phase.jobId = id ∧ phase.expected? = some (some status)

structure Tracked (c : Core) (phases : List Phase) : Prop where
  places : ∀ job ∈ c.recordedSinceStart, ∀ status, c.statusOf job.id = some status →
    status.IsSettled ∨ Placed c phases job.id status
  accepted : ∀ job, .accepted job ∈ phases → job ∈ c.enqueued

theorem Tracked.perm {c : Core} (h : Tracked c phases) (hperm : phases.Perm phases')
    : Tracked c phases' where
  places := by
    intro job hjob status hstatus
    rcases h.places job hjob status hstatus with hsettled | hwaiting | ⟨phase, hphase, hexpected⟩
    . exact .inl hsettled
    . exact .inr (.inl hwaiting)
    . exact .inr (.inr ⟨phase, hperm.mem_iff.mp hphase, hexpected⟩)
  accepted := by
    intro job hjob
    exact h.accepted job (hperm.mem_iff.mpr hjob)

theorem Transition.settles (h : Transition ext phase s phase' s')
    (hphase : ∀ expected, phase.expected? = some expected →
      s.core.statusOf phase.jobId = expected)
    (hexpected' : phase'.expected? = none) {status : Status}
    (hstatus : s'.core.statusOf phase.jobId = some status)
    : (phase.expected? = none ∧ s'.core.statusOf phase.jobId = s.core.statusOf phase.jobId)
        ∨ status.IsSettled
        ∨ (∃ job, phase = .inserted job ∧ phase' = .accepted job) := by
  cases h with
  | quiet hmoves hcore =>
    rw [hcore]
    cases hmoves with
    | stay => exact .inl ⟨hexpected', rfl⟩
    | refuse job => contradiction
    | drop job hclosed => contradiction
  | enqueue hcore => exact .inr (.inr ⟨_, rfl, rfl⟩)
  | setStatus hsets hcore =>
    right
    left
    rw [hcore, statusOf_setStatus, Option.map_eq_some_iff] at hstatus
    rcases hstatus with ⟨_, _, rfl⟩
    cases hsets with
    | start job now => contradiction
    | fail job now msg => exact .inr rfl
    | failRefused job now msg => exact .inr rfl
  | @complete job artifact now _ _ hartifact hcore =>
    right
    left
    have hdone : s'.core.statusOf job.id = (s.core.statusOf job.id).map fun _ => .done := by
      rw [hcore]
      exact statusOf_setStatus _ _ _ _ _ _
    have hstatus : s'.core.statusOf job.id = some status := hstatus
    rw [hdone, Option.map_eq_some_iff] at hstatus
    rcases hstatus with ⟨_, _, rfl⟩
    exact .inl rfl
  | _ => contradiction

theorem Transition.mem_waiting (h : Transition ext phase s phase' s') {id : String}
    (hid : id ∈ s.core.waiting.map Job.id)
    : id ∈ s'.core.waiting.map Job.id := by
  rcases h.waiting_cases with ⟨job, _, _, hwaiting, _⟩ | ⟨_, hwaiting⟩
  . rw [hwaiting, List.map_append, List.mem_append]
    exact .inl hid
  . rw [hwaiting]
    exact hid

theorem Tracked.placed (h : Tracked s.core (phase :: others)) (howned : Owned s.core (phase :: others))
    (htrans : Transition ext phase s phase' s') {job : Job}
    (hjob : job ∈ s'.core.recordedSinceStart) {status : Status}
    (hstatus : s'.core.statusOf job.id = some status)
    : status.IsSettled ∨ Placed s'.core (phase' :: others) job.id status := by
  have hexpects := howned.phases phase List.mem_cons_self
  have hold : phase'.expected? = none ∨ phase.ownedId? ≠ some job.id →
      job ∈ s.core.recordedSinceStart := by
    intro hor
    rcases htrans.recordedSinceStart_cases with ⟨new, hmay, rfl, hrecorded⟩ | hrecorded
    . rw [hrecorded, List.mem_cons] at hjob
      rcases hjob with rfl | hjob
      . rcases hor with hnone | hne
        . contradiction
        . exact absurd hmay.ownedId?_eq hne
      . exact hjob
    . rw [hrecorded] at hjob
      exact hjob
  -- the place that the job had, if that is not the thread that moves
  have hkeeps : job ∈ s.core.recordedSinceStart →
      s.core.statusOf job.id = some status →
      (∀ other ∈ phase :: others, other.jobId = job.id → other.expected? = some (some status) →
        other ∈ others) →
      status.IsSettled ∨ Placed s'.core (phase' :: others) job.id status := by
    intro hjob hstatus hother
    rcases h.places job hjob status hstatus with
      hsettled | ⟨hqueued, hwaiting⟩ | ⟨other, hmem, hid, hexpected⟩
    . exact .inl hsettled
    . exact .inr (.inl ⟨hqueued, htrans.mem_waiting hwaiting⟩)
    . have := hother other hmem hid hexpected
      exact .inr (.inr ⟨other, List.mem_cons_of_mem phase' this, hid, hexpected⟩)
  by_cases hid : phase.ownedId? = some job.id
  . have hjobId := Phase.jobId_of_ownedId? hid
    cases hexpected' : phase'.expected? with
    | some expected =>
      have hstatus' := htrans.expected hexpects hexpected'
      rw [htrans.jobId_eq, hjobId, hstatus] at hstatus'
      right
      right
      refine ⟨phase', List.mem_cons_self, htrans.jobId_eq.trans hjobId, ?_⟩
      rw [hexpected', hstatus']
    | none =>
      rw [← hjobId] at hstatus
      rcases htrans.settles hexpects hexpected' hstatus with
        ⟨hexpected, heq⟩ | hsettled | ⟨inserted, rfl, rfl⟩
      . rw [heq, hjobId] at hstatus
        apply hkeeps (hold (.inl hexpected')) hstatus
        intro other hmem hotherId hother
        rw [List.mem_cons] at hmem
        rcases hmem with rfl | hmem
        . rw [hexpected] at hother
          contradiction
        . exact hmem
      . exact .inl hsettled
      . right
        left
        rcases htrans.waiting_cases with ⟨job', hphase, _, hwaiting, hjobs⟩ | ⟨howned', _⟩
        . injection hphase with hphase
          have hqueued : s.core.statusOf inserted.id = some .queued := hexpects (some .queued) rfl
          unfold Core.statusOf at hstatus hqueued
          rw [hjobs] at hstatus
          change Option.map _ (s.core.jobs.find? inserted.id) = _ at hstatus
          rw [hstatus] at hqueued
          refine ⟨Option.some.inj hqueued, ?_⟩
          rw [hwaiting, ← hphase]
          have hjobId : inserted.id = job.id := hjobId
          simp [hjobId]
        . contradiction
  . rw [htrans.statusOf_eq hid] at hstatus
    apply hkeeps (hold (.inr hid)) hstatus
    intro other hmem hotherId hother
    rw [List.mem_cons] at hmem
    rcases hmem with rfl | hmem
    . have := ownedId?_of_expected? hother
      rw [hotherId] at this
      contradiction
    . exact hmem

theorem Transition.enqueued_cases (h : Transition ext phase s phase' s')
    : (∃ job, phase' = .accepted job ∧ s'.core.enqueued = job :: s.core.enqueued)
        ∨
      (s'.core.enqueued = s.core.enqueued ∧ ∀ job, phase' = .accepted job → phase = .accepted job) := by
  cases h with
  | enqueue hcore =>
    left
    rw [hcore]
    exact ⟨_, rfl, rfl⟩
  | quiet hmoves hcore =>
    right
    rw [hcore]
    refine ⟨rfl, ?_⟩
    intro job heq
    cases hmoves with
    | stay => exact heq
    | refuse => contradiction
    | drop => contradiction
  | setStatus hsets hcore =>
    right
    rw [hcore]
    refine ⟨rfl, ?_⟩
    intro job heq
    cases hsets <;> contradiction
  | read hcore =>
    right
    rw [hcore]
    exact ⟨rfl, fun _ heq => by contradiction⟩
  | hit _ _ _ _ _ hcore =>
    right
    rw [hcore]
    exact ⟨rfl, fun _ heq => by contradiction⟩
  | insert _ _ hcore =>
    right
    rw [hcore]
    exact ⟨rfl, fun _ heq => by contradiction⟩
  | storeArtifact _ hcore | storeCache _ hcore | complete _ hcore =>
    right
    rw [hcore]
    exact ⟨rfl, fun _ heq => by contradiction⟩

theorem Tracked.thread (h : Tracked s.core (phase :: others)) (howned : Owned s.core (phase :: others))
    (htrans : Transition ext phase s phase' s')
    : Tracked s'.core (phase' :: others) where
  places := by
    intro job hjob status hstatus
    exact h.placed howned htrans hjob hstatus
  accepted := by
    intro job hjob
    rw [List.mem_cons] at hjob
    rcases htrans.enqueued_cases with ⟨job', hphase', henqueued⟩ | ⟨henqueued, hphase⟩
    . rw [henqueued]
      rcases hjob with heq | hjob
      . rw [hphase'] at heq
        injection heq with heq
        rw [heq]
        exact List.mem_cons_self
      . exact List.mem_cons_of_mem job' (h.accepted job (List.mem_cons_of_mem phase hjob))
    . rw [henqueued]
      apply h.accepted
      rw [List.mem_cons]
      rcases hjob with heq | hjob
      . exact .inl (hphase job heq.symm).symm
      . exact .inr hjob

theorem Tracked.advance (h : Tracked s.core phases) (howned : Owned s.core phases)
    (hadvance : Advance ext s phases s' phases')
    : Tracked s'.core phases' := by
  cases hadvance with
  | thread htrans => exact h.thread howned htrans
  | spawn hjobs hphases =>
    constructor
    . intro job hjob status hstatus
      rcases h.places job hjob status hstatus with hsettled | hwaiting | ⟨phase, hphase, hexpected⟩
      . exact .inl hsettled
      . exact .inr (.inl hwaiting)
      . exact .inr (.inr ⟨phase, List.mem_cons_of_mem _ hphase, hexpected⟩)
    . intro job hjob
      rw [List.mem_cons] at hjob
      rcases hjob with heq | hjob
      . contradiction
      . exact h.accepted job hjob
  | @recv received _ waiting _ _ hwaiting hcore =>
    rw [hcore]
    constructor
    . intro job hjob status hstatus
      rcases h.places job hjob status hstatus with
        hsettled | ⟨hqueued, hmem⟩ | ⟨phase, hphase, hexpected⟩
      . exact .inl hsettled
      . rw [hwaiting, List.map_cons, List.mem_cons] at hmem
        rcases hmem with heq | hmem
        . right
          right
          refine ⟨.received received, List.mem_cons_self, heq.symm, ?_⟩
          rw [hqueued]
          rfl
        . exact .inr (.inl ⟨hqueued, hmem⟩)
      . exact .inr (.inr ⟨phase, List.mem_cons_of_mem _ hphase, hexpected⟩)
    . intro job hjob
      rw [List.mem_cons] at hjob
      rcases hjob with heq | hjob
      . contradiction
      . exact h.accepted job hjob
  | outside hcore =>
    rw [hcore]
    exact h
  | restart hcore =>
    rw [hcore]
    constructor
    . intro job hjob
      contradiction
    . intro job hjob
      contradiction

/-- Nothing closes the queue, and so no job is dropped. -/
structure Open (c : Core) (phases : List Phase) : Prop where
  isClosed : c.isClosed = false
  dropped : ∀ job, .dropped job ∉ phases

theorem Transition.isClosed_eq (h : Transition ext phase s phase' s')
    : s'.core.isClosed = s.core.isClosed := by
  cases h with
  | quiet _ hcore | read hcore | enqueue hcore | setStatus _ hcore =>
    rw [hcore]
    try rfl
  | insert _ _ hcore | storeArtifact _ hcore | storeCache _ hcore | complete _ hcore =>
    rw [hcore]
    rfl
  | hit _ _ _ _ _ hcore =>
    rw [hcore]
    rfl

theorem Transition.dropped (h : Transition ext phase s phase' s') (hopen : s.core.isClosed = false)
    {job : Job} (hphase' : phase' = .dropped job)
    : phase = .dropped job := by
  cases h with
  | quiet hmoves hcore =>
    cases hmoves with
    | stay => exact hphase'
    | refuse => contradiction
    | drop job hclosed =>
      rw [hopen] at hclosed
      contradiction
  | setStatus hsets hcore => cases hsets <;> contradiction
  | _ => contradiction

theorem Open.perm {c : Core} (h : Open c phases) (hperm : phases.Perm phases') : Open c phases' where
  isClosed := h.isClosed
  dropped := by
    intro job hjob
    exact h.dropped job (hperm.mem_iff.mpr hjob)

theorem Open.advance (h : Open s.core phases) (hadvance : Advance ext s phases s' phases')
    : Open s'.core phases' := by
  cases hadvance with
  | thread htrans =>
    constructor
    . rw [htrans.isClosed_eq]
      exact h.isClosed
    . intro job hjob
      rw [List.mem_cons] at hjob
      apply h.dropped job
      rcases hjob with heq | hjob
      . rw [htrans.dropped h.isClosed heq.symm]
        exact List.mem_cons_self
      . exact List.mem_cons_of_mem _ hjob
  | spawn hjobs hphases =>
    refine ⟨h.isClosed, ?_⟩
    intro job hjob
    rw [List.mem_cons] at hjob
    rcases hjob with heq | hjob
    . contradiction
    . exact h.dropped job hjob
  | recv hwaiting hcore =>
    rw [hcore]
    refine ⟨h.isClosed, ?_⟩
    intro job hjob
    rw [List.mem_cons] at hjob
    rcases hjob with heq | hjob
    . contradiction
    . exact h.dropped job hjob
  | outside hcore =>
    rw [hcore]
    exact h
  | restart hcore =>
    rw [hcore]
    exact ⟨rfl, fun _ => List.not_mem_nil⟩

/-- A job that was put on the queue waits there or has a worker, and workers finish with settled jobs. -/
structure Handed (c : Core) (phases : List Phase) : Prop where
  jobs : ∀ job ∈ c.enqueuedSinceStart,
    job ∈ c.waiting ∨ ∃ phase ∈ phases, phase.isWorker ∧ phase.jobId = job.id
  finished : ∀ job, .finished job ∈ phases →
    ∃ status, c.statusOf job.id = some status ∧ status.IsSettled

theorem Handed.perm {c : Core} (h : Handed c phases) (hperm : phases.Perm phases')
    : Handed c phases' where
  jobs := by
    intro job hjob
    rcases h.jobs job hjob with hwaiting | ⟨phase, hphase, hworker⟩
    . exact .inl hwaiting
    . exact .inr ⟨phase, hperm.mem_iff.mp hphase, hworker⟩
  finished := by
    intro job hjob
    exact h.finished job (hperm.mem_iff.mpr hjob)

theorem Transition.enqueuedSinceStart_cases (h : Transition ext phase s phase' s')
    : (∃ job, s'.core.waiting = s.core.waiting ++ [job]
          ∧ s'.core.enqueuedSinceStart = job :: s.core.enqueuedSinceStart)
        ∨
      s'.core.enqueuedSinceStart = s.core.enqueuedSinceStart := by
  cases h with
  | enqueue hcore =>
    left
    rw [hcore, enqueuedSinceStart_note (by simp)]
    exact ⟨_, rfl, rfl⟩
  | quiet _ hcore | read hcore =>
    right
    rw [hcore]
  | setStatus _ hcore | storeArtifact _ hcore | storeCache _ hcore =>
    right
    rw [hcore]
    rfl
  | hit _ _ _ _ _ hcore =>
    right
    rw [hcore, enqueuedSinceStart_note (by simp)]
  | insert _ _ hcore | complete _ hcore =>
    right
    rw [hcore, enqueuedSinceStart_note (by simp)]
    rfl

theorem Transition.finished (h : Transition ext phase s phase' s')
    (hphase : ∀ expected, phase.expected? = some expected →
      s.core.statusOf phase.jobId = expected)
    {job : Job} (hphase' : phase' = .finished job)
    : (phase = .finished job ∧ s'.core.jobs = s.core.jobs)
        ∨ ∃ status, s'.core.statusOf job.id = some status ∧ status.IsSettled := by
  cases h with
  | quiet hmoves hcore =>
    cases hmoves with
    | stay =>
      rw [hcore]
      exact .inl ⟨hphase', rfl⟩
    | refuse => contradiction
    | drop => contradiction
  | setStatus hsets hcore =>
    cases hsets with
    | start => contradiction
    | failRefused => contradiction
    | fail job' now msg =>
      injection hphase' with hjob
      have hbuilding : s.core.statusOf job'.id = some .building := hphase (some .building) rfl
      right
      refine ⟨.failed, ?_, .inr rfl⟩
      rw [hcore, ← hjob]
      apply (statusOf_setStatus _ _ _ _ _ _).trans
      exact congrArg (Option.map _) hbuilding
  | @complete job' artifact now _ _ hartifact hcore =>
    injection hphase' with hjob
    have hbuilding : s.core.statusOf job'.id = some .building := hphase (some .building) rfl
    right
    refine ⟨.done, ?_, .inl rfl⟩
    rw [hcore, ← hjob]
    have hdone := statusOf_setStatus
      ((s.core.setArtifact artifact).setCache ⟨job'.tuple.cacheKey ext, job'.id, now⟩) job'.id
      .done none (some now) none
    apply hdone.trans
    exact congrArg (Option.map _) hbuilding
  | _ => contradiction

theorem Handed.thread (h : Handed s.core (phase :: others)) (howned : Owned s.core (phase :: others))
    (htrans : Transition ext phase s phase' s')
    : Handed s'.core (phase' :: others) where
  jobs := by
    intro job hjob
    have hold : job ∈ s.core.enqueuedSinceStart →
        job ∈ s'.core.waiting ∨ ∃ p ∈ phase' :: others, p.isWorker ∧ p.jobId = job.id := by
      intro hjob
      rcases h.jobs job hjob with hwaiting | ⟨p, hp, hworker, hid⟩
      . left
        rcases htrans.waiting_cases with ⟨_, _, _, hwait, _⟩ | ⟨_, hwait⟩
        . rw [hwait]
          exact List.mem_append_left _ hwaiting
        . rw [hwait]
          exact hwaiting
      . right
        rw [List.mem_cons] at hp
        rcases hp with rfl | hp
        . refine ⟨phase', List.mem_cons_self, ?_, ?_⟩
          . rw [htrans.isWorker_eq]
            exact hworker
          . rw [htrans.jobId_eq]
            exact hid
        . exact ⟨p, List.mem_cons_of_mem _ hp, hworker, hid⟩
    rcases htrans.enqueuedSinceStart_cases with ⟨new, hwait, henqueued⟩ | henqueued
    . rw [henqueued, List.mem_cons] at hjob
      rcases hjob with rfl | hjob
      . left
        rw [hwait]
        exact List.mem_append_right _ List.mem_cons_self
      . exact hold hjob
    . rw [henqueued] at hjob
      exact hold hjob
  finished := by
    intro job hjob
    rw [List.mem_cons] at hjob
    rcases hjob with heq | hjob
    . rcases htrans.finished (howned.phases phase List.mem_cons_self) heq.symm with
        ⟨hphase, hjobs⟩ | hsettled
      . unfold Core.statusOf
        rw [hjobs]
        apply h.finished job
        rw [hphase]
        exact List.mem_cons_self
      . exact hsettled
    . rcases h.finished job (List.mem_cons_of_mem _ hjob) with ⟨status, hstatus, hsettled⟩
      have hmoves := htrans.statusMoves (howned.phases phase List.mem_cons_self) job.id
      exact ⟨status, hmoves.lasts hsettled hstatus, hsettled⟩

theorem Handed.advance (h : Handed s.core phases) (howned : Owned s.core phases)
    (hadvance : Advance ext s phases s' phases')
    : Handed s'.core phases' := by
  cases hadvance with
  | thread htrans => exact h.thread howned htrans
  | spawn hjobs hphases =>
    constructor
    . intro job hjob
      rcases h.jobs job hjob with hwaiting | ⟨phase, hphase, hworker⟩
      . exact .inl hwaiting
      . exact .inr ⟨phase, List.mem_cons_of_mem _ hphase, hworker⟩
    . intro job hjob
      rw [List.mem_cons] at hjob
      rcases hjob with heq | hjob
      . contradiction
      . exact h.finished job hjob
  | recv hwaiting hcore =>
    rw [hcore]
    constructor
    . intro job hjob
      rcases h.jobs job hjob with hmem | ⟨phase, hphase, hworker⟩
      . rw [hwaiting, List.mem_cons] at hmem
        rcases hmem with rfl | hmem
        . exact .inr ⟨.received job, List.mem_cons_self, rfl, rfl⟩
        . exact .inl hmem
      . exact .inr ⟨phase, List.mem_cons_of_mem _ hphase, hworker⟩
    . intro job hjob
      rw [List.mem_cons] at hjob
      rcases hjob with heq | hjob
      . contradiction
      . exact h.finished job hjob
  | outside hcore =>
    rw [hcore]
    exact h
  | restart hcore =>
    rw [hcore]
    constructor
    . intro job hjob
      contradiction
    . intro job hjob
      contradiction

end Koval
