import Koval.Server.Lifecycle

/-!
This module contains what holds in the life of jobs, whatever order its steps are taken in.
-/

namespace Koval

variable {ext : Crates} {phase phase' : Phase} {others phases phases' : List Phase} {s s' : State}

theorem find?_setStatus (c : Core) (id : String) (status : Status)
    (startedAt finishedAt errorMsg : Option String) (id' : String)
    : (c.setStatus id status startedAt finishedAt errorMsg).jobs.find? id'
        =
      if id' = id then
        (c.jobs.find? id').map (JobRow.setStatus status startedAt finishedAt errorMsg)
      else
        c.jobs.find? id' := by
  unfold Core.setStatus
  rw [Table.find?_updateKey]

theorem statusOf_setStatus (c : Core) (id : String) (status : Status)
    (startedAt finishedAt errorMsg : Option String)
    : (c.setStatus id status startedAt finishedAt errorMsg).statusOf id
        =
      (c.statusOf id).map fun _ => status := by
  unfold Core.statusOf
  rw [find?_setStatus, if_pos rfl, Option.map_map, Option.map_map]
  rfl

theorem statusOf_insert {c : Core} {row : JobRow} {jobs : Table JobRow.id}
    (h : c.jobs.insert? row = some jobs)
    : ({ c with jobs } : Core).statusOf row.id = some row.status := by
  unfold Core.statusOf
  dsimp only
  rw [Table.find?_of_insert? h, if_pos rfl]
  rfl

theorem Transition.find?_eq (h : Transition ext phase s phase' s') {id : String}
    (hid : phase.ownedId? ≠ some id)
    : s'.core.jobs.find? id = s.core.jobs.find? id := by
  have hne : ∀ {id' : String}, phase.ownedId? = some id' → id ≠ id' := by
    intro id' howned heq
    rw [howned, heq] at hid
    contradiction
  cases h with
  | quiet hmoves hcore => rw [hcore]
  | read hcore => rw [hcore]
  | hit hcache hrow hdone hartifact hexists hcore =>
    rw [hcore]
    rfl
  | insert hmay hinsert hcore =>
    rw [hcore]
    have := Table.find?_of_insert? hinsert id
    rw [if_neg] at this
    . exact this
    . exact hne hmay.ownedId?_eq
  | enqueue hcore =>
    rw [hcore]
    rfl
  | setStatus hsets hcore =>
    rw [hcore, find?_setStatus, if_neg]
    cases hsets <;> exact hne rfl
  | storeArtifact hartifact hcore =>
    rw [hcore]
    rfl
  | storeCache hartifact hcore =>
    rw [hcore]
    rfl
  | complete hartifact hcore =>
    rw [hcore]
    change (Core.setStatus _ _ _ _ _ _).jobs.find? id = _
    rw [find?_setStatus, if_neg]
    . rfl
    . exact hne rfl

theorem Transition.statusOf_eq (h : Transition ext phase s phase' s') {id : String}
    (hid : phase.ownedId? ≠ some id)
    : s'.core.statusOf id = s.core.statusOf id := by
  unfold Core.statusOf
  rw [h.find?_eq hid]

/-- Every job that is not settled yet is in one place, and its status is the one for this place. -/
structure Owned (c : Core) (phases : List Phase) : Prop where
  nodup : (c.waiting.map Job.id ++ phases.filterMap Phase.ownedId?).Nodup
  waiting : ∀ job ∈ c.waiting, c.statusOf job.id = some .queued
  phases : ∀ phase ∈ phases, ∀ expected, phase.expected? = some expected →
    c.statusOf phase.jobId = expected

theorem Owned.perm {c : Core} (h : Owned c phases) (hperm : phases.Perm phases') : Owned c phases' where
  nodup := ((hperm.filterMap Phase.ownedId?).append_left _).nodup h.nodup
  waiting := h.waiting
  phases := by
    intro phase hphase
    exact h.phases phase (hperm.mem_iff.mpr hphase)

theorem ownedId?_of_expected? {expected : Option Status} (h : phase.expected? = some expected)
    : phase.ownedId? = some phase.jobId := by
  cases phase <;> first | rfl | contradiction

theorem Transition.expected (h : Transition ext phase s phase' s')
    (hphase : ∀ expected, phase.expected? = some expected →
      s.core.statusOf phase.jobId = expected)
    {expected : Option Status} (hexpected : phase'.expected? = some expected)
    : s'.core.statusOf phase'.jobId = expected := by
  cases h with
  | quiet hmoves hcore =>
    rw [hcore]
    cases hmoves with
    | stay => exact hphase expected hexpected
    | refuse job => exact hphase expected hexpected
    | drop job hclosed => exact hphase expected hexpected
  | read hcore =>
    rw [hcore]
    exact hphase expected hexpected
  | hit hcache hrow hdone hartifact hexists hcore =>
    rw [hcore]
    exact hphase expected hexpected
  | insert hmay hinsert hcore =>
    injection hexpected with hexpected
    rw [hcore, ← hexpected]
    exact statusOf_insert hinsert
  | enqueue hcore => contradiction
  | setStatus hsets hcore =>
    cases hsets with
    | start job now =>
      injection hexpected with hexpected
      have hqueued : s.core.statusOf (Phase.received job).jobId = some .queued :=
        hphase (some .queued) rfl
      rw [hcore, ← hexpected]
      apply (statusOf_setStatus _ _ _ _ _ _).trans
      rw [hqueued]
      rfl
    | fail job now msg => contradiction
    | failRefused job now msg => contradiction
  | storeArtifact hartifact hcore =>
    rw [hcore]
    exact hphase expected hexpected
  | storeCache hartifact hcore =>
    rw [hcore]
    exact hphase expected hexpected
  | complete hartifact hcore => contradiction

theorem Transition.waiting_cases (h : Transition ext phase s phase' s')
    : (∃ job, phase = .inserted job ∧ phase' = .accepted job
          ∧ s'.core.waiting = s.core.waiting ++ [job] ∧ s'.core.jobs = s.core.jobs)
        ∨
      (phase'.ownedId? = phase.ownedId? ∧ s'.core.waiting = s.core.waiting) := by
  cases h with
  | quiet hmoves hcore =>
    right
    rw [hcore]
    cases hmoves <;> exact ⟨rfl, rfl⟩
  | read hcore =>
    right
    rw [hcore]
    exact ⟨rfl, rfl⟩
  | insert hmay hinsert hcore =>
    right
    rw [hcore, hmay.ownedId?_eq]
    exact ⟨rfl, rfl⟩
  | enqueue hcore =>
    left
    rw [hcore]
    exact ⟨_, rfl, rfl, rfl, rfl⟩
  | setStatus hsets hcore =>
    right
    rw [hcore]
    cases hsets <;> exact ⟨rfl, rfl⟩
  | hit _ _ _ _ _ hcore =>
    right
    rw [hcore]
    exact ⟨rfl, rfl⟩
  | storeArtifact _ hcore | storeCache _ hcore | complete _ hcore =>
    right
    rw [hcore]
    exact ⟨rfl, rfl⟩

theorem Owned.ownedId?_ne {c : Core} (h : Owned c (phase :: others)) {id : String}
    (hid : id ∈ c.waiting.map Job.id ∨ id ∈ others.filterMap Phase.ownedId?)
    : phase.ownedId? ≠ some id := by
  intro heq
  have hnodup := h.nodup
  rw [List.filterMap_cons_some heq, List.nodup_middle, List.nodup_cons, List.mem_append] at hnodup
  exact hnodup.left hid

theorem Owned.thread (h : Owned s.core (phase :: others)) (htrans : Transition ext phase s phase' s')
    : Owned s'.core (phase' :: others) := by
  have hothers : ∀ other ∈ others, ∀ expected, other.expected? = some expected →
      s'.core.statusOf other.jobId = expected := by
    intro other hother expected hexpected
    rw [htrans.statusOf_eq]
    . exact h.phases other (List.mem_cons_of_mem phase hother) expected hexpected
    . apply h.ownedId?_ne
      right
      rw [List.mem_filterMap]
      exact ⟨other, hother, ownedId?_of_expected? hexpected⟩
  have hphase' : ∀ expected, phase'.expected? = some expected →
      s'.core.statusOf phase'.jobId = expected := by
    intro expected
    exact htrans.expected (h.phases phase List.mem_cons_self)
  have hwaiting : ∀ job ∈ s.core.waiting, s'.core.statusOf job.id = some .queued := by
    intro job hjob
    rw [htrans.statusOf_eq]
    . exact h.waiting job hjob
    . apply h.ownedId?_ne
      left
      exact List.mem_map_of_mem hjob
  constructor
  . have hnodup := h.nodup
    rcases htrans.waiting_cases with ⟨job, rfl, rfl, hwait, _⟩ | ⟨howned, hwait⟩
    . rw [hwait, List.map_append, List.append_assoc]
      exact hnodup
    . rw [hwait, List.filterMap_cons, howned]
      exact hnodup
  . intro job hjob
    rcases htrans.waiting_cases with ⟨job', rfl, rfl, hwait, hjobs⟩ | ⟨_, hwait⟩
    . rw [hwait, List.mem_append, List.mem_singleton] at hjob
      rcases hjob with hjob | rfl
      . exact hwaiting job hjob
      . unfold Core.statusOf
        rw [hjobs]
        exact h.phases (.inserted job) List.mem_cons_self _ rfl
    . rw [hwait] at hjob
      exact hwaiting job hjob
  . intro p hp
    rw [List.mem_cons] at hp
    rcases hp with rfl | hp
    . exact hphase'
    . exact hothers p hp

theorem Owned.advance (h : Owned s.core phases) (hadvance : Advance ext s phases s' phases')
    : Owned s'.core phases' := by
  cases hadvance with
  | thread htrans => exact h.thread htrans
  | @spawn uuid _ _ hjobs hphases =>
    have hnone : s.core.statusOf (Phase.idle uuid).jobId = none := by
      unfold Core.statusOf
      rw [Option.map_eq_none_iff]
      exact hjobs
    constructor
    . apply (List.nodup_middle (a := _)).mpr
      rw [List.nodup_cons]
      refine ⟨?_, h.nodup⟩
      rw [List.mem_append, List.mem_map, List.mem_filterMap]
      rintro (⟨job, hjob, hid⟩ | ⟨phase, hphase, howned⟩)
      . have := h.waiting job hjob
        rw [hid, hnone] at this
        contradiction
      . exact hphases phase hphase (Phase.jobId_of_ownedId? howned)
    . exact h.waiting
    . intro phase hphase expected hexpected
      rw [List.mem_cons] at hphase
      rcases hphase with rfl | hphase
      . injection hexpected with hexpected
        rw [← hexpected]
        exact hnone
      . exact h.phases phase hphase expected hexpected
  | recv hwaiting hcore =>
    have hnodup := h.nodup
    rw [hwaiting] at hnodup
    rw [hcore]
    constructor
    . apply (List.nodup_middle (a := _)).mpr
      exact hnodup
    . intro job hjob
      apply h.waiting
      rw [hwaiting]
      exact List.mem_cons_of_mem _ hjob
    . intro phase hphase expected hexpected
      rw [List.mem_cons] at hphase
      rcases hphase with rfl | hphase
      . injection hexpected with hexpected
        rw [← hexpected]
        apply h.waiting
        rw [hwaiting]
        exact List.mem_cons_self
      . exact h.phases phase hphase expected hexpected
  | outside hcore =>
    rw [hcore]
    exact h
  | restart hcore =>
    rw [hcore]
    constructor
    . exact List.nodup_nil
    . intro job hjob
      contradiction
    . intro phase hphase
      contradiction

def JobRow.IsConsistent (artifacts : Table ArtifactRow.jobId) (row : JobRow) : Prop :=
  match row.status with
  | .queued => row.startedAt = none ∧ row.finishedAt = none ∧ row.errorMsg = none
  | .building => row.startedAt.isSome ∧ row.finishedAt = none ∧ row.errorMsg = none
  | .done =>
    row.startedAt.isSome
      ∧ row.finishedAt.isSome ∧ row.errorMsg = none ∧ artifacts.contains row.id
  | .failed => row.finishedAt.isSome ∧ row.errorMsg.isSome

def Core.IsConsistent (c : Core) : Prop :=
  ∀ id row, c.jobs.find? id = some row → row.IsConsistent c.artifacts

theorem JobRow.IsConsistent.replace {artifacts : Table ArtifactRow.jobId} {row : JobRow}
    (h : row.IsConsistent artifacts) (artifact : ArtifactRow)
    : row.IsConsistent (artifacts.replace artifact) := by
  unfold IsConsistent at h ⊢
  split at h
  . exact h
  . exact h
  . refine ⟨h.left, h.right.left, h.right.right.left, ?_⟩
    have hcontains := h.right.right.right
    unfold Table.contains at hcontains ⊢
    rw [Table.find?_replace]
    split
    . rfl
    . exact hcontains
  . exact h

theorem Core.IsConsistent.setArtifact {c : Core} (h : c.IsConsistent) (artifact : ArtifactRow)
    : (c.setArtifact artifact).IsConsistent := by
  intro id row hrow
  exact (h id row hrow).replace artifact

theorem Core.IsConsistent.setStatus {c : Core} (h : c.IsConsistent) {id : String} {status : Status}
    {startedAt finishedAt errorMsg : Option String}
    (hid : ∀ row, c.jobs.find? id = some row →
      (row.setStatus status startedAt finishedAt errorMsg).IsConsistent c.artifacts)
    : (c.setStatus id status startedAt finishedAt errorMsg).IsConsistent := by
  intro id' row hrow
  rw [find?_setStatus] at hrow
  split at hrow
  . next heq =>
    rw [heq, Option.map_eq_some_iff] at hrow
    rcases hrow with ⟨old, hold, rfl⟩
    exact hid old hold
  . exact h id' row hrow

theorem contains_setArtifact (c : Core) (artifact : ArtifactRow)
    : (c.setArtifact artifact).artifacts.contains artifact.jobId := by
  unfold Core.setArtifact Table.contains
  rw [Table.find?_replace, if_pos rfl]
  rfl

theorem Transition.isConsistent (h : Transition ext phase s phase' s')
    (hphase : ∀ expected, phase.expected? = some expected →
      s.core.statusOf phase.jobId = expected)
    (hc : s.core.IsConsistent)
    : s'.core.IsConsistent := by
  cases h with
  | quiet hmoves hcore =>
    rw [hcore]
    exact hc
  | read hcore =>
    rw [hcore]
    exact hc
  | hit hcache hrow hdone hartifact hexists hcore =>
    rw [hcore]
    exact hc
  | insert hmay hinsert hcore =>
    rw [hcore]
    intro id row hrow
    have hrow := (Table.find?_of_insert? hinsert id).symm.trans hrow
    split at hrow
    . injection hrow with hrow
      rw [← hrow]
      exact ⟨rfl, rfl, rfl⟩
    . exact hc id row hrow
  | enqueue hcore =>
    rw [hcore]
    exact hc
  | setStatus hsets hcore =>
    rw [hcore]
    apply hc.setStatus
    intro row hrow
    cases hsets with
    | start job now => exact ⟨rfl, rfl, rfl⟩
    | fail job now msg => exact ⟨rfl, rfl⟩
    | failRefused job now msg => exact ⟨rfl, rfl⟩
  | storeArtifact hartifact hcore =>
    rw [hcore]
    exact hc.setArtifact _
  | storeCache hartifact hcore =>
    rw [hcore]
    exact hc.setArtifact _
  | @complete job artifact now _ _ hartifact hcore =>
    rw [hcore]
    apply Core.IsConsistent.setStatus (hc.setArtifact artifact)
    intro row hrow
    have hbuilding : row.status = .building := by
      have := hphase (some .building) rfl
      unfold Core.statusOf at this
      change Option.map _ (s.core.jobs.find? job.id) = _ at this
      rw [show s.core.jobs.find? job.id = some row from hrow] at this
      exact Option.some.inj this
    have hrowc := hc job.id row hrow
    unfold JobRow.IsConsistent at hrowc
    rw [hbuilding] at hrowc
    refine ⟨?_, rfl, rfl, ?_⟩
    . exact hrowc.left
    . have hid : row.id = artifact.jobId := (Table.key_of_find? hrow).trans hartifact.symm
      change Table.contains _ row.id = true
      rw [hid]
      exact contains_setArtifact s.core artifact

theorem Core.IsConsistent.advance (hc : s.core.IsConsistent) (h : Owned s.core phases)
    (hadvance : Advance ext s phases s' phases')
    : s'.core.IsConsistent := by
  cases hadvance with
  | thread htrans => exact htrans.isConsistent (h.phases _ List.mem_cons_self) hc
  | spawn hjobs hphases => exact hc
  | recv hwaiting hcore =>
    rw [hcore]
    exact hc
  | outside hcore =>
    rw [hcore]
    exact hc
  | restart hcore =>
    rw [hcore]
    exact hc

/-- The moves of the status of a job; a job that is not there has none. -/
inductive StatusMoves : Option Status → Option Status → Prop where
  | stay (status : Option Status) : StatusMoves status status
  | submit : StatusMoves none (some .queued)
  | start : StatusMoves (some .queued) (some .building)
  | refuse : StatusMoves (some .queued) (some .failed)
  | fail : StatusMoves (some .building) (some .failed)
  | complete : StatusMoves (some .building) (some .done)

def Status.IsSettled (status : Status) : Prop := status = .done ∨ status = .failed

theorem StatusMoves.lasts {status : Status} {before after : Option Status}
    (h : StatusMoves before after) (hsettled : status.IsSettled) (hbefore : before = some status)
    : after = some status := by
  rw [hbefore] at h
  rcases hsettled with rfl | rfl
  . cases h
    rfl
  . cases h
    rfl

theorem Transition.statusMoves (h : Transition ext phase s phase' s')
    (hphase : ∀ expected, phase.expected? = some expected →
      s.core.statusOf phase.jobId = expected)
    (id : String)
    : StatusMoves (s.core.statusOf id) (s'.core.statusOf id) := by
  by_cases hid : phase.ownedId? = some id
  . have hid := Phase.jobId_of_ownedId? hid
    rw [← hid]
    cases h with
    | quiet hmoves hcore =>
      rw [hcore]
      exact .stay _
    | read hcore =>
      rw [hcore]
      exact .stay _
    | hit hcache hrow hdone hartifact hexists hcore =>
      rw [hcore]
      exact .stay _
    | insert hmay hinsert hcore =>
      have hfresh : s.core.statusOf phase.jobId = none := by
        unfold Core.statusOf
        rw [Phase.jobId_of_ownedId? hmay.ownedId?_eq, Option.map_eq_none_iff]
        exact Table.find?_fresh_of_insert? hinsert
      rw [hfresh, Phase.jobId_of_ownedId? hmay.ownedId?_eq, hcore]
      have hqueued := statusOf_insert hinsert
      exact hqueued ▸ .submit
    | enqueue hcore =>
      rw [hcore]
      exact .stay _
    | setStatus hsets hcore =>
      rw [hcore, statusOf_setStatus]
      cases hsets with
      | start job now =>
        rw [hphase (some .queued) rfl]
        exact .start
      | fail job now msg =>
        rw [hphase (some .building) rfl]
        exact .fail
      | failRefused job now msg =>
        rw [hphase (some .queued) rfl]
        exact .refuse
    | storeArtifact hartifact hcore =>
      rw [hcore]
      exact .stay _
    | storeCache hartifact hcore =>
      rw [hcore]
      exact .stay _
    | @complete job artifact now _ _ hartifact hcore =>
      have hbuilding : s.core.statusOf job.id = some .building := hphase (some .building) rfl
      have hdone : s'.core.statusOf job.id = (s.core.statusOf job.id).map fun _ => .done := by
        rw [hcore]
        exact statusOf_setStatus _ _ _ _ _ _
      change StatusMoves (s.core.statusOf job.id) (s'.core.statusOf job.id)
      rw [hdone, hbuilding]
      exact .complete
  . rw [h.statusOf_eq hid]
    exact .stay _

theorem Owned.statusMoves (h : Owned s.core phases) (hadvance : Advance ext s phases s' phases')
    (id : String)
    : StatusMoves (s.core.statusOf id) (s'.core.statusOf id) := by
  cases hadvance with
  | thread htrans => exact htrans.statusMoves (h.phases _ List.mem_cons_self) id
  | spawn hjobs hphases => exact .stay _
  | recv hwaiting hcore =>
    rw [hcore]
    exact .stay _
  | outside hcore =>
    rw [hcore]
    exact .stay _
  | restart hcore =>
    rw [hcore]
    exact .stay _

end Koval
