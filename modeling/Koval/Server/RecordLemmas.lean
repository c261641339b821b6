import Koval.Server.LifecycleLemmas

/-!
This module contains how the rows of the jobs, and the jobs in memory, stem from the jobs that were
inserted.
-/

namespace Koval

variable {ext : Crates} {phase phase' : Phase} {others phases phases' : List Phase} {s s' : State}

theorem submittedOf_setStatus (c : Core) (id : String) (status : Status)
    (startedAt finishedAt errorMsg : Option String) (id' : String)
    : (c.setStatus id status startedAt finishedAt errorMsg).submittedOf id' = c.submittedOf id' := by
  unfold Core.submittedOf
  rw [find?_setStatus]
  split
  . rw [Option.map_map]
    rfl
  . rfl

theorem submittedOf_insert {c : Core} {row : JobRow} {jobs : Table JobRow.id}
    (h : c.jobs.insert? row = some jobs) (id : String)
    : ({ c with jobs } : Core).submittedOf id
        =
      if id = row.id then some row.submitted else c.submittedOf id := by
  unfold Core.submittedOf
  dsimp only
  rw [Table.find?_of_insert? h]
  split <;> rfl

theorem Transition.recorded_cases (h : Transition ext phase s phase' s')
    : (∃ job queuedAt,
          phase.MayInsert job
            ∧
          phase' = .inserted job
            ∧
          s.core.submittedOf job.id = none
            ∧
          s'.core.recorded = job :: s.core.recorded
            ∧
          ∀ id, s'.core.submittedOf id
            = if id = job.id then some (.ofJob ext job queuedAt) else s.core.submittedOf id)
        ∨
      (phase'.job? = phase.job?
        ∧
      s'.core.recorded = s.core.recorded
        ∧
      ∀ id, s'.core.submittedOf id = s.core.submittedOf id) := by
  cases h with
  | @insert _ job queuedAt _ _ _ hmay hinsert hcore =>
    left
    refine ⟨job, queuedAt, hmay, rfl, ?_, ?_, ?_⟩
    . unfold Core.submittedOf
      rw [Option.map_eq_none_iff]
      exact Table.find?_fresh_of_insert? hinsert
    . rw [hcore]
      rfl
    . intro id
      rw [hcore]
      exact submittedOf_insert hinsert id
  | quiet hmoves hcore =>
    right
    rw [hcore]
    cases hmoves <;> exact ⟨rfl, rfl, fun _ => rfl⟩
  | read hcore =>
    right
    rw [hcore]
    exact ⟨rfl, rfl, fun _ => rfl⟩
  | hit _ _ _ _ _ hcore =>
    right
    rw [hcore]
    exact ⟨rfl, rfl, fun _ => rfl⟩
  | enqueue hcore =>
    right
    rw [hcore]
    exact ⟨rfl, rfl, fun _ => rfl⟩
  | setStatus hsets hcore =>
    right
    rw [hcore]
    cases hsets <;> exact ⟨rfl, rfl, submittedOf_setStatus _ _ _ _ _ _⟩
  | storeArtifact _ hcore | storeCache _ hcore =>
    right
    rw [hcore]
    exact ⟨rfl, rfl, fun _ => rfl⟩
  | complete _ hcore =>
    right
    rw [hcore]
    exact ⟨rfl, rfl, submittedOf_setStatus _ _ _ _ _ _⟩

/-- The job is the optimization of what the instrumentation job `source` is for, as far as its row tells. -/
structure Job.Optimizes (ext : Crates) (job source : Job) : Prop where
  jobType : job.jobType = .pgoOptimize
  sourceType : source.jobType = .pgoInstrument
  sourceId : job.pgoSourceJobId = some source.id
  tokenId : job.tokenId = source.tokenId
  project : job.project = source.project
  gitRef : job.gitRef = source.gitRef
  hardware : job.hardware = Db.profileOrDefault ext (hardwareJson ext source.hardware)
  binary : job.binary = none
  package : job.package = none
  target : job.target = none

structure Recorded (ext : Crates) (c : Core) (phases : List Phase) : Prop where
  rows : ∀ job ∈ c.recorded, ∃ queuedAt, c.submittedOf job.id = some (.ofJob ext job queuedAt)
  ofRow : ∀ id, (c.submittedOf id).isSome → ∃ job ∈ c.recorded, job.id = id
  inj : ∀ job ∈ c.recorded, ∀ job' ∈ c.recorded, job.id = job'.id → job = job'
  waiting : ∀ job ∈ c.waiting, job ∈ c.recorded
  held : ∀ phase ∈ phases, ∀ job, phase.job? = some job → job ∈ c.recorded
  sources : ∀ phase ∈ phases, ∀ uuid details, phase = .source uuid details →
    ∃ source ∈ c.recorded,
      (uploadProfilesHandler.optJob details uuid details.tokenId details.id).Optimizes ext source
  optimizes : ∀ job ∈ c.recorded, job.jobType = .pgoOptimize →
    ∃ source ∈ c.recorded, job.Optimizes ext source

theorem Recorded.perm {c : Core} (h : Recorded ext c phases) (hperm : phases.Perm phases')
    : Recorded ext c phases' :=
  { h with
    held := by
      intro phase hphase
      exact h.held phase (hperm.mem_iff.mpr hphase)
    sources := by
      intro phase hphase
      exact h.sources phase (hperm.mem_iff.mpr hphase) }

theorem Recorded.optimizes_of_row {c : Core} (h : Recorded ext c phases) {row : JobRow}
    (hrow : row ∈ c.jobs.rows) (htype : row.jobType = .pgoInstrument) (uuid : String)
    : ∃ source ∈ c.recorded,
        (uploadProfilesHandler.optJob (row.details ext) uuid row.tokenId row.id).Optimizes ext
          source := by
  have hfind : c.submittedOf row.id = some row.submitted := by
    unfold Core.submittedOf
    rw [Table.find?_of_mem hrow]
    rfl
  rcases h.ofRow row.id (by simp [hfind]) with ⟨source, hsource, hid⟩
  rcases h.rows source hsource with ⟨queuedAt, hsubmitted⟩
  rw [hid, hfind] at hsubmitted
  injection hsubmitted with hsubmitted
  have htokenId := congrArg JobRow.tokenId hsubmitted
  have hproject := congrArg JobRow.project hsubmitted
  have hgitRef := congrArg JobRow.gitRef hsubmitted
  have hjson := congrArg JobRow.hardwareJson hsubmitted
  have hjobType := congrArg JobRow.jobType hsubmitted
  refine ⟨source, hsource, rfl, ?_, ?_, htokenId, hproject, hgitRef, ?_, rfl, rfl, rfl⟩
  . exact hjobType.symm.trans htype
  . exact congrArg some hid.symm
  . exact congrArg (Db.profileOrDefault ext) hjson

theorem Transition.source_cases (h : Transition ext phase s phase' s') {uuid : String}
    {details : Db.JobDetails} (hsource : phase' = .source uuid details)
    : phase = .source uuid details
        ∨
      ∃ row ∈ s.core.jobs.rows, row.jobType = .pgoInstrument ∧ details = row.details ext := by
  cases h with
  | quiet hmoves =>
    cases hmoves with
    | stay => exact .inl hsource
    | refuse job => contradiction
    | drop job hclosed => contradiction
  | read hcore hrow htype hdone =>
    injection hsource with _ hdetails
    exact .inr ⟨_, hrow, htype, hdetails.symm⟩
  | setStatus hsets => cases hsets <;> contradiction
  | _ => contradiction

theorem Phase.MayInsert.optimizes {c : Core} {job : Job} (hmay : phase.MayInsert job)
    (htype : job.jobType = .pgoOptimize)
    (hsources : ∀ uuid details, phase = .source uuid details → ∃ source ∈ c.recorded,
      (uploadProfilesHandler.optJob details uuid details.tokenId details.id).Optimizes ext source)
    : ∃ source ∈ c.recorded, job.Optimizes ext source := by
  cases phase with
  | idle uuid =>
    have := hmay.right
    contradiction
  | source uuid details =>
    have hjob : job = uploadProfilesHandler.optJob details uuid details.tokenId details.id := hmay
    rw [hjob]
    exact hsources uuid details rfl
  | _ => contradiction

theorem Recorded.insert {c c' : Core} {job : Job} {queuedAt : String}
    (h : Recorded ext c (phase :: others)) (hmay : phase.MayInsert job)
    (hfresh : c.submittedOf job.id = none) (hrecorded : c'.recorded = job :: c.recorded)
    (hsubmitted : ∀ id,
      c'.submittedOf id = if id = job.id then some (.ofJob ext job queuedAt) else c.submittedOf id)
    (hwaiting : c'.waiting = c.waiting)
    : Recorded ext c' (.inserted job :: others) := by
  have hnew : ∀ old ∈ c.recorded, old.id ≠ job.id := by
    intro old hold heq
    rcases h.rows old hold with ⟨_, hrow⟩
    rw [heq, hfresh] at hrow
    contradiction
  have hgrows : ∀ old ∈ c.recorded, old ∈ c'.recorded := by
    intro old hold
    rw [hrecorded]
    exact List.mem_cons_of_mem job hold
  constructor
  . intro old hold
    rw [hrecorded, List.mem_cons] at hold
    rw [hsubmitted]
    rcases hold with rfl | hold
    . exact ⟨queuedAt, if_pos rfl⟩
    . rw [if_neg (hnew old hold)]
      exact h.rows old hold
  . intro id hid
    rw [hsubmitted] at hid
    split at hid
    . next heq => exact ⟨job, by simp [hrecorded], heq.symm⟩
    . rcases h.ofRow id hid with ⟨old, hold, heq⟩
      exact ⟨old, hgrows old hold, heq⟩
  . intro job₁ h₁ job₂ h₂ heq
    rw [hrecorded, List.mem_cons] at h₁ h₂
    rcases h₁ with rfl | h₁
    . rcases h₂ with rfl | h₂
      . rfl
      . exact absurd heq.symm (hnew job₂ h₂)
    . rcases h₂ with rfl | h₂
      . exact absurd heq (hnew job₁ h₁)
      . exact h.inj job₁ h₁ job₂ h₂ heq
  . intro old hold
    rw [hwaiting] at hold
    exact hgrows old (h.waiting old hold)
  . intro p hp old hold
    rw [List.mem_cons] at hp
    rcases hp with rfl | hp
    . injection hold with hold
      rw [← hold, hrecorded]
      exact List.mem_cons_self
    . exact hgrows old (h.held p (List.mem_cons_of_mem phase hp) old hold)
  . intro p hp uuid details hdetails
    rw [List.mem_cons] at hp
    rcases hp with rfl | hp
    . contradiction
    . rcases h.sources p (List.mem_cons_of_mem phase hp) uuid details hdetails with
        ⟨source, hsource, hoptimizes⟩
      exact ⟨source, hgrows source hsource, hoptimizes⟩
  . intro old hold htype
    rw [hrecorded, List.mem_cons] at hold
    have : ∃ source ∈ c.recorded, old.Optimizes ext source := by
      rcases hold with rfl | hold
      . exact hmay.optimizes htype (h.sources phase List.mem_cons_self)
      . exact h.optimizes old hold htype
    rcases this with ⟨source, hsource, hoptimizes⟩
    exact ⟨source, hgrows source hsource, hoptimizes⟩

theorem Recorded.thread (h : Recorded ext s.core (phase :: others))
    (htrans : Transition ext phase s phase' s')
    : Recorded ext s'.core (phase' :: others) := by
  rcases htrans.recorded_cases with
    ⟨job, queuedAt, hmay, rfl, hfresh, hrecorded, hsubmitted⟩ | ⟨hjob?, hrecorded, hsubmitted⟩
  . rcases htrans.waiting_cases with ⟨_, _, haccepted, _⟩ | ⟨_, hwaiting⟩
    . contradiction
    . exact h.insert hmay hfresh hrecorded hsubmitted hwaiting
  . constructor
    . intro job hjob
      rw [hrecorded] at hjob
      rw [hsubmitted]
      exact h.rows job hjob
    . intro id hid
      rw [hsubmitted] at hid
      rw [hrecorded]
      exact h.ofRow id hid
    . rw [hrecorded]
      exact h.inj
    . intro job hjob
      rw [hrecorded]
      rcases htrans.waiting_cases with ⟨job', rfl, _, hwaiting, _⟩ | ⟨_, hwaiting⟩
      . rw [hwaiting, List.mem_append, List.mem_singleton] at hjob
        rcases hjob with hjob | rfl
        . exact h.waiting job hjob
        . exact h.held (.inserted job) List.mem_cons_self job rfl
      . rw [hwaiting] at hjob
        exact h.waiting job hjob
    . intro p hp job hjob
      rw [hrecorded]
      rw [List.mem_cons] at hp
      rcases hp with rfl | hp
      . rw [hjob?] at hjob
        exact h.held phase List.mem_cons_self job hjob
      . exact h.held p (List.mem_cons_of_mem phase hp) job hjob
    . intro p hp uuid details hdetails
      rw [hrecorded]
      rw [List.mem_cons] at hp
      rcases hp with rfl | hp
      . rcases htrans.source_cases hdetails with hphase | ⟨row, hrow, htype, rfl⟩
        . exact h.sources phase List.mem_cons_self uuid details hphase
        . exact h.optimizes_of_row hrow htype uuid
      . exact h.sources p (List.mem_cons_of_mem phase hp) uuid details hdetails
    . rw [hrecorded]
      exact h.optimizes

theorem Recorded.advance (h : Recorded ext s.core phases)
    (hadvance : Advance ext s phases s' phases')
    : Recorded ext s'.core phases' := by
  cases hadvance with
  | thread htrans => exact h.thread htrans
  | spawn hjobs hphases =>
    refine { h with held := ?_, sources := ?_ }
    . intro phase hphase job hjob
      rw [List.mem_cons] at hphase
      rcases hphase with rfl | hphase
      . contradiction
      . exact h.held phase hphase job hjob
    . intro phase hphase uuid details hdetails
      rw [List.mem_cons] at hphase
      rcases hphase with rfl | hphase
      . contradiction
      . exact h.sources phase hphase uuid details hdetails
  | @recv job _ waiting _ _ hwaiting hcore =>
    have hw := h.waiting
    rw [hwaiting] at hw
    rw [hcore]
    refine { h with waiting := ?_, held := ?_, sources := ?_ }
    . intro job' hjob'
      exact hw job' (List.mem_cons_of_mem job hjob')
    . intro phase hphase job' hjob'
      rw [List.mem_cons] at hphase
      rcases hphase with rfl | hphase
      . injection hjob' with hjob'
        rw [← hjob']
        exact hw job List.mem_cons_self
      . exact h.held phase hphase job' hjob'
    . intro phase hphase uuid details hdetails
      rw [List.mem_cons] at hphase
      rcases hphase with rfl | hphase
      . contradiction
      . exact h.sources phase hphase uuid details hdetails
  | outside hcore =>
    rw [hcore]
    exact h
  | restart hcore =>
    rw [hcore]
    refine { h with waiting := ?_, held := ?_, sources := ?_ }
    . intro job hjob
      contradiction
    . intro phase hphase
      contradiction
    . intro phase hphase
      contradiction

end Koval
