import Koval.Conc.Leads
import Koval.Server.Announcements
import Koval.Server.Integrity
import Koval.Server.JobLife
import Koval.Server.Samples
import Koval.Server.Worker.Packing

/-!
This module contains what no later step changes: the row of a job that has come to its end, and the
row of an archive.
-/

namespace Koval

variable {crates : Crates} {settings : Settings} {phase phase' : Phase} {others phases phases' : List Phase}
  {s s' : State} {system system' : System}

theorem StatusMoves.ne_queued {before after : Option Status} (h : StatusMoves before after)
    {status : Status} (hbefore : before = some status) (hstatus : status ≠ .queued)
    : ∃ status', after = some status' ∧ status' ≠ .queued := by
  cases h with
  | stay => exact ⟨status, hbefore, hstatus⟩
  | submit => contradiction
  | start => exact ⟨_, rfl, Status.noConfusion⟩
  | refuse => exact ⟨_, rfl, Status.noConfusion⟩
  | fail => exact ⟨_, rfl, Status.noConfusion⟩
  | complete => exact ⟨_, rfl, Status.noConfusion⟩

theorem Transition.find?_of_settled (h : Transition crates phase s phase' s')
    (hphase : ∀ expected, phase.expected? = some expected →
      s.core.statusOf phase.jobId = expected)
    {id : String} {row : JobRow} (hrow : s.core.jobs.find? id = some row)
    (hsettled : row.status.IsSettled)
    : s'.core.jobs.find? id = some row := by
  by_cases hid : phase.ownedId? = some id
  . have hstatus : s.core.statusOf phase.jobId = some row.status := by
      unfold Core.statusOf
      rw [Phase.jobId_of_ownedId? hid, hrow]
      rfl
    -- A thread updates the row of its job only before the end.
    have hopen : ∀ status, phase.expected? = some (some status) → row.status = status := by
      intro status hexpected
      have := hphase _ hexpected
      rw [hstatus] at this
      exact Option.some.inj this
    cases h with
    | quiet hmoves hcore =>
      rw [hcore]
      exact hrow
    | read hcore =>
      rw [hcore]
      exact hrow
    | hit hcache hfind hdone hartifact hexists hcore =>
      rw [hcore]
      exact hrow
    | @insert _ job queuedAt _ _ _ hmay hinsert hcore =>
      have hfresh : s.core.jobs.find? job.id = none := Table.find?_fresh_of_insert? hinsert
      have howned := hmay.ownedId?_eq
      rw [hid] at howned
      rw [Option.some.inj howned, hfresh] at hrow
      contradiction
    | enqueue hcore =>
      rw [hcore]
      exact hrow
    | setStatus hsets hcore =>
      cases hsets with
      | start job now =>
        rw [hopen .queued rfl] at hsettled
        exact absurd hsettled not_isSettled_queued
      | fail job now msg =>
        rw [hopen .building rfl] at hsettled
        exact absurd hsettled not_isSettled_building
      | failRefused job now msg =>
        rw [hopen .queued rfl] at hsettled
        exact absurd hsettled not_isSettled_queued
    | storeArtifact hartifact hcore =>
      rw [hcore]
      exact hrow
    | storeCache hartifact hcore =>
      rw [hcore]
      exact hrow
    | complete hartifact hcore =>
      rw [hopen .building rfl] at hsettled
      exact absurd hsettled not_isSettled_building
  . rw [h.find?_eq hid]
    exact hrow

theorem Owned.find?_of_settled (h : Owned s.core phases)
    (hadvance : Advance crates s phases s' phases') {id : String} {row : JobRow}
    (hrow : s.core.jobs.find? id = some row) (hsettled : row.status.IsSettled)
    : s'.core.jobs.find? id = some row := by
  cases hadvance with
  | thread htrans => exact htrans.find?_of_settled (h.phases _ List.mem_cons_self) hrow hsettled
  | spawn => exact hrow
  | recv hwaiting hcore =>
    rw [hcore]
    exact hrow
  | outside hcore =>
    rw [hcore]
    exact hrow
  | restart hcore =>
    rw [hcore]
    exact hrow

def Core.StoresTaken (c : Core) : Prop :=
  ∀ id, c.artifacts.contains id → ∃ status, c.statusOf id = some status ∧ status ≠ .queued

theorem Core.StoresTaken.of_eq {c c' : Core} (h : c.StoresTaken)
    (hartifacts : c'.artifacts = c.artifacts)
    (hmoves : ∀ id, StatusMoves (c.statusOf id) (c'.statusOf id))
    : c'.StoresTaken := by
  intro id hid
  rw [hartifacts] at hid
  rcases h id hid with ⟨status, hstatus, hne⟩
  exact (hmoves id).ne_queued hstatus hne

theorem Core.StoresTaken.setArtifact {c c' : Core} (h : c.StoresTaken) {artifact : ArtifactRow}
    (hartifacts : c'.artifacts = c.artifacts.replace artifact)
    (hbuilding : c.statusOf artifact.jobId = some .building)
    (hmoves : ∀ id, StatusMoves (c.statusOf id) (c'.statusOf id))
    : c'.StoresTaken := by
  intro id hid
  rw [hartifacts, Table.contains_iff, Table.find?_replace] at hid
  split at hid
  . next hid' =>
    rw [hid']
    exact (hmoves _).ne_queued hbuilding Status.noConfusion
  . rw [← Table.contains_iff] at hid
    rcases h id hid with ⟨status, hstatus, hne⟩
    exact (hmoves id).ne_queued hstatus hne

theorem Core.StoresTaken.advance (h : s.core.StoresTaken) (howned : Owned s.core phases)
    (hadvance : Advance crates s phases s' phases')
    : s'.core.StoresTaken := by
  have hmoves := howned.statusMoves hadvance
  cases hadvance with
  | thread htrans =>
    have hphase := howned.phases _ List.mem_cons_self
    cases htrans with
    | quiet _ hcore | read hcore | hit _ _ _ _ _ hcore | insert _ _ hcore | enqueue hcore
    | setStatus _ hcore => exact h.of_eq ((congrArg Core.artifacts hcore).trans rfl) hmoves
    | @storeArtifact job artifact _ _ hid hcore | @storeCache job artifact _ _ _ hid hcore
    | @complete job artifact _ _ _ hid hcore =>
      have hartifacts : s'.core.artifacts = s.core.artifacts.replace artifact :=
        (congrArg Core.artifacts hcore).trans rfl
      apply h.setArtifact hartifacts _ hmoves
      rw [hid]
      exact hphase (some .building) rfl
  | spawn => exact h
  | recv _ hcore | outside hcore | restart hcore =>
    exact h.of_eq ((congrArg Core.artifacts hcore).trans rfl) hmoves

theorem Owned.ne_of_workers (h : Owned s.core phases) {i j : Nat} (hij : i ≠ j)
    (hi : phases[i]? = some phase) (hj : phases[j]? = some phase') (hworker : phase.isWorker)
    (hworker' : phase'.isWorker)
    : phase.jobId ≠ phase'.jobId := by
  have howned : ∀ {p : Phase}, p.isWorker → p.ownedId? = some p.jobId := by
    intro p hp
    cases p <;> first | rfl | contradiction
  have hnodup := (List.nodup_append'.mp h.nodup).right.left
  unfold List.Nodup at hnodup
  rw [List.pairwise_filterMap, List.pairwise_iff_getElem] at hnodup
  rcases List.getElem?_eq_some_iff.mp hi with ⟨hilt, hi⟩
  rcases List.getElem?_eq_some_iff.mp hj with ⟨hjlt, hj⟩
  subst hi hj
  rcases Nat.lt_or_gt_of_ne hij with hlt | hlt
  . exact hnodup i j hilt hjlt hlt _ (howned hworker) _ (howned hworker')
  . exact (hnodup j i hjlt hilt hlt _ (howned hworker') _ (howned hworker)).symm

abbrev System.InPackings (crates : Crates) (settings : Settings) (system : System)
    (packings : List Packing) : Prop :=
  Pool.Conforms (Packs crates settings) Packing.agrees (fun _ _ _ => True) system.threads packings

structure System.Seals (crates : Crates) (settings : Settings) (system : System)
    (phases : List Phase) (packings : List Packing) : Prop where
  lives : system.Lives crates phases
  packs : system.InPackings crates settings packings
  taken : system.state.core.StoresTaken
  unstored : ∀ packing ∈ packings, ∀ job, packing.openJob? = some job →
    system.state.db.artifacts.find? job.id = none

theorem Packing.label_of_openJob? {label : Label} {packing : Packing} {job : Job}
    (h : agrees label packing) (hopen : packing.openJob? = some job)
    : label = .worker job := by
  cases packing with
  | attending | closed => contradiction
  | packing _ | opened _ _ | measured _ _ _ =>
    injection hopen with hopen
    cases label with
    | handler => contradiction
    | worker job' =>
      have h : _ = job' := h
      rw [← h, hopen]

theorem System.Seals.ne_of_open {packings : List Packing}
    (h : system.Seals crates settings phases packings) {i j : Nat} (hij : i ≠ j)
    {packing packing' : Packing} (hi : packings[i]? = some packing)
    (hj : packings[j]? = some packing') {job job' : Job} (hopen : packing.openJob? = some job)
    (hopen' : packing'.openJob? = some job')
    : job.id ≠ job'.id := by
  have hphase : ∀ {k : Nat} {p : Packing} {job : Job}, packings[k]? = some p →
      p.openJob? = some job → ∃ phase, phases[k]? = some phase ∧ phase.isWorker
        ∧ phase.jobId = job.id := by
    intro k p job hk hp
    rcases h.packs.getElem? hk with ⟨thread, hthread, hagrees, _⟩
    have hlabel := Packing.label_of_openJob? hagrees hp
    rcases h.lives.left.get? hthread with ⟨phase, hphase, ⟨hid, hworker⟩, _⟩
    rw [hlabel] at hid hworker
    exact ⟨phase, hphase, hworker.symm, hid.symm⟩
  rcases hphase hi hopen with ⟨phase, hphasei, hworker, hid⟩
  rcases hphase hj hopen' with ⟨phase', hphasej, hworker', hid'⟩
  rw [← hid, ← hid']
  exact h.lives.right.owned.ne_of_workers hij hphasei hphasej hworker hworker'

def KeepsArtifacts (s s' : State) : Prop :=
  ∀ id row, s.db.artifacts.find? id = some row → s'.db.artifacts.find? id = some row

theorem keepsArtifacts_of_eq (h : s'.db.artifacts = s.db.artifacts) : KeepsArtifacts s s' := by
  intro id row hrow
  rw [h]
  exact hrow

theorem Packs.artifacts_cases {packing packing' : Packing}
    (h : Packs crates settings packing s packing' s')
    : (s'.db.artifacts = s.db.artifacts
          ∧ ∀ job, packing'.openJob? = some job → packing.openJob? = some job)
        ∨
      ∃ job content size,
        packing.openJob? = some job
          ∧
        packing' = .closed job
          ∧
        s'.db.artifacts = s.db.artifacts.replace (archiveRow crates settings job content size) := by
  cases h with
  | attend _ hartifacts | stay hartifacts => exact .inl ⟨hartifacts, fun _ h => h⟩
  | tar _ hartifacts | «open» hartifacts | measure hartifacts =>
    exact .inl ⟨hartifacts, fun _ h => h⟩
  | close _ hartifacts => exact .inl ⟨hartifacts, fun _ h => by contradiction⟩
  | store hartifacts => exact .inr ⟨_, _, _, rfl, rfl, hartifacts⟩

theorem System.Seals.artifacts_of_run {packings : List Packing}
    (h : system.Seals crates settings phases packings) {i : Nat}
    (hrun : system.runThread i = some system')
    : ∃ packings', PacksTo crates settings packings system.state (.run i) packings' system'.state
        ∧ system'.InPackings crates settings packings'
        ∧ (∀ packing ∈ packings', ∀ job, packing.openJob? = some job →
            system'.state.db.artifacts.find? job.id = none)
        ∧ KeepsArtifacts system.state system'.state := by
  rcases h.packs.runThread Packing.agrees_of_packs hrun with
    ⟨packing, packing', hpacking, hpacks, hconforms⟩
  refine ⟨packings.set i packing', .thread hpacking hpacks, hconforms, ?_⟩
  have hlt := (List.getElem?_eq_some_iff.mp hpacking).choose
  rcases hpacks.artifacts_cases with ⟨hsame, hopen⟩ | ⟨job, content, size, hopen, hclosed, hstored⟩
  . refine ⟨?_, keepsArtifacts_of_eq hsame⟩
    intro other hother job' hother'
    rw [hsame]
    rcases List.mem_or_eq_of_mem_set hother with hother | rfl
    . exact h.unstored other hother job' hother'
    . exact h.unstored packing (List.mem_of_getElem? hpacking) job' (hopen job' hother')
  . have hnone := h.unstored packing (List.mem_of_getElem? hpacking) job hopen
    constructor
    . intro other hother job' hother'
      rcases List.getElem?_of_mem hother with ⟨j, hj⟩
      by_cases hij : i = j
      . subst hij
        rw [List.getElem?_set_self hlt] at hj
        injection hj with hj
        rw [← hj, hclosed] at hother'
        contradiction
      . rw [List.getElem?_set_ne hij] at hj
        have hne : job'.id ≠ (archiveRow crates settings job content size).jobId :=
          (h.ne_of_open hij hpacking hj hopen hother').symm
        rw [hstored, Table.find?_replace, if_neg hne]
        exact h.unstored other (List.mem_of_getElem? hj) job' hother'
    . intro id row hrow
      rw [hstored, Table.find?_replace, if_neg]
      . exact hrow
      . rintro rfl
        have hnone : system.state.db.artifacts.find? (archiveRow crates settings job content size).jobId
            = none := hnone
        rw [hnone] at hrow
        contradiction

theorem System.Seals.step {packings : List Packing} {action : Action}
    (h : system.Seals crates settings phases packings)
    (hstep : system.step crates settings action = some system')
    : ∃ phases' packings', system'.Seals crates settings phases' packings'
        ∧ PacksTo crates settings packings system.state action packings' system'.state
        ∧ KeepsArtifacts system.state system'.state := by
  rcases h.lives.step hstep with ⟨phases', hlives'⟩
  have htaken' : system'.state.core.StoresTaken := by
    rcases h.lives.left.step hstep with ⟨before, after, _, hbefore, hadvance, _, _⟩
    exact h.taken.advance (h.lives.right.owned.perm hbefore) hadvance
  have hseals : ∀ packings', system'.InPackings crates settings packings' →
      (∀ packing ∈ packings', ∀ job, packing.openJob? = some job →
        system'.state.db.artifacts.find? job.id = none) →
      system'.Seals crates settings phases' packings' :=
    fun packings' hpacks hunstored => ⟨hlives', hpacks, htaken', hunstored⟩
  cases System.stepsTo hstep with
  | @request request ambient _ =>
    refine ⟨phases', packings ++ [.attending], hseals _ ?_ ?_, .spawn rfl rfl rfl, fun _ _ hrow => hrow⟩
    . exact h.packs.spawn trivial (follows_attending request ambient)
    . intro packing hpacking job hopen
      rw [List.mem_append, List.mem_singleton] at hpacking
      rcases hpacking with hpacking | rfl
      . exact h.unstored packing hpacking job hopen
      . contradiction
  | @recv externals job queue hjobs _ =>
    refine ⟨phases', packings ++ [.packing job], hseals _ ?_ ?_, .spawn rfl rfl rfl,
      fun _ _ hrow => hrow⟩
    . let received : System := { system with state := { system.state with queue } }
      have hpacks : received.InPackings crates settings packings := h.packs
      exact hpacks.spawn rfl (processJob.packs_processJob externals job)
    . intro packing hpacking job' hopen
      rw [List.mem_append, List.mem_singleton] at hpacking
      rcases hpacking with hpacking | rfl
      . exact h.unstored packing hpacking job' hopen
      . -- A job that waits has no archive.
        injection hopen with hopen
        rw [← hopen]
        change system.state.db.artifacts.find? job.id = none
        rw [Option.eq_none_iff_forall_ne_some]
        intro row hrow
        have hqueued : system.state.core.statusOf job.id = some .queued := by
          apply h.lives.right.owned.waiting
          have hwaiting : system.state.core.waiting = job :: queue.jobs := hjobs
          rw [hwaiting]
          exact List.mem_cons_self
        rcases h.taken job.id (Table.contains_iff.mpr ⟨row, hrow⟩) with ⟨status, hstatus, hne⟩
        rw [hqueued] at hstatus
        exact hne (Option.some.inj hstatus).symm
  | run hrun =>
    rcases h.artifacts_of_run hrun with ⟨packings', hto, hpacks, hunstored, hkeeps⟩
    exact ⟨phases', packings', hseals packings' hpacks hunstored, hto, hkeeps⟩
  | changeFiles =>
    exact ⟨phases', packings, hseals packings h.packs h.unstored, .outside rfl, fun _ _ hrow => hrow⟩
  | restart hthreads hcore =>
    have hartifacts : system'.state.db.artifacts = system.state.db.artifacts :=
      (congrArg Core.artifacts hcore).trans rfl
    refine ⟨phases', [], hseals [] ?_ ?_, .restart hartifacts (files_of_main hstep),
      keepsArtifacts_of_eq hartifacts⟩
    . unfold System.InPackings
      rw [hthreads]
      exact Pool.conforms_nil
    . intro packing hpacking
      contradiction

theorem seals_of_main {boot : Boot} (hmain : main crates settings boot (.empty settings) = some system)
    : system.Seals crates settings [] [] := by
  have ⟨hthreads, hcore⟩ := main_eq_some hmain
  refine ⟨?_, ?_, ?_, ?_⟩
  . constructor
    . unfold System.InPhases
      rw [hthreads]
      exact Pool.conforms_nil
    . rw [hcore]
      exact life_init
  . unfold System.InPackings
    rw [hthreads]
    exact Pool.conforms_nil
  . rw [hcore]
    intro id hid
    contradiction
  . intro packing hpacking
    contradiction

theorem System.Reachable.exists_seals (h : system.Reachable crates settings)
    : ∃ phases packings, system.Seals crates settings phases packings := by
  rcases h with ⟨boot, system₀, actions, hmain, hrun⟩
  apply Machine.invariant_of_run
    (I := fun system => ∃ phases packings, System.Seals crates settings system phases packings)
    _ ⟨[], [], seals_of_main hmain⟩ hrun
  rintro action _ system system' ⟨phases, packings, h⟩ hstep
  rcases h.step hstep with ⟨phases', packings', h', _⟩
  exact ⟨phases', packings', h'⟩

structure KeepsEnded (s s' : State) : Prop where
  jobs : ∀ id row, s.db.jobs.find? id = some row → row.status.IsSettled →
    s'.db.jobs.find? id = some row
  artifacts : KeepsArtifacts s s'

theorem keepsEnded_refl (s : State) : KeepsEnded s s := ⟨fun _ _ h _ => h, fun _ _ h => h⟩

theorem KeepsEnded.trans (s s' s'' : State) (h : KeepsEnded s s') (h' : KeepsEnded s' s'')
    : KeepsEnded s s'' where
  jobs id row hrow hsettled := h'.jobs id row (h.jobs id row hrow hsettled) hsettled
  artifacts id row hrow := h'.artifacts id row (h.artifacts id row hrow)

theorem System.Reachable.keepsEnded {action : Action} (h : system.Reachable crates settings)
    (hstep : system.step crates settings action = some system')
    : KeepsEnded system.state system'.state := by
  rcases h.exists_seals with ⟨phases, packings, hseals⟩
  rcases hseals.lives.left.step hstep with ⟨before, after, _, hbefore, hadvance, _, _⟩
  have howned := hseals.lives.right.owned.perm hbefore
  rcases hseals.step hstep with ⟨_, _, _, _, hkeeps⟩
  exact ⟨fun _ _ => howned.find?_of_settled hadvance, hkeeps⟩

theorem System.Reachable.keepsEnded_of_run {actions : List Action}
    (h : system.Reachable crates settings)
    (hrun : Machine.run (System.step crates settings) system actions = some system')
    : system'.Reachable crates settings ∧ KeepsEnded system.state system'.state := by
  apply Machine.invariant_of_run
    (I := fun t => System.Reachable crates settings t ∧ KeepsEnded system.state t.state)
    _ ⟨h, keepsEnded_refl _⟩ hrun
  rintro action _ t t' ⟨ht, hkeeps⟩ hstep
  exact ⟨ht.step hstep, hkeeps.trans _ _ _ (ht.keepsEnded hstep)⟩

/--
Whatever is done, in whatever order, all rows refer to rows that are there and are such as the server
writes, and no row is lost but for those that count requests. The rows about archives stay as they
are, but another job may take over an entry of the build cache.
-/
theorem System.Reachable.rows_refer_and_last {actions : List Action}
    (h : system.Reachable crates settings)
    (hrun : Machine.run (System.step crates settings) system actions = some system')
    : system'.state.db.IsSound crates settings
        ∧
      system.state.db.Lasts system'.state.db
        ∧
      KeepsArtifacts system.state system'.state := by
  have hwrites := h.writes_of_run hrun
  refine ⟨?_, hwrites.lasts, (h.keepsEnded_of_run hrun).right.artifacts⟩
  exact hwrites.preserves (fun _ _ => Db.Write.isSound) h.isSound

theorem System.Reachable.rows_refer_and_last_built
    : ∃ system system' : System,
        system.state.db.artifacts.contains "4c1e"
          ∧
        Machine.run (System.step Samples.github.crates Samples.settings) system
            [.restart Samples.boot]
          = some system'
          ∧
        system'.state.db.IsSound Samples.github.crates Samples.settings
          ∧
        system.state.db.Lasts system'.state.db
          ∧
        KeepsArtifacts system.state system'.state := by
  rcases Samples.exists_of_runs
      (Samples.submitted 0 (.build Samples.request) "4c1e" 4
        ++ Samples.processed 1 Samples.externals 10)
      (fun system => system.state.db.artifacts.contains "4c1e"
        ∧ (Machine.run (System.step Samples.github.crates Samples.settings) system
            [.restart Samples.boot]).isSome)
      (by decide +kernel) with
    ⟨system₀, system, hmain, hrun₀, hcontains, hsome⟩
  rcases Option.isSome_iff_exists.mp hsome with ⟨system', hrun⟩
  have hreachable : system.Reachable Samples.github.crates Samples.settings :=
    ⟨Samples.boot, system₀, _, hmain, hrun₀⟩
  exact ⟨system, system', hcontains, hrun, hreachable.rows_refer_and_last hrun⟩

end Koval
