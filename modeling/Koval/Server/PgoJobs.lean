import Koval.Server.JobLife
import Koval.Server.Routes.Submissions
import Koval.Server.SystemFrames

/-!
This module contains what every optimization job can rely on: a finished instrumentation job, and its
merged profile.
-/

namespace Koval

open Prog

variable {crates : Crates} {settings : Settings} {system system' : System}

def Db.IsMerged (sourceId : String) (db : Db) : Prop :=
  ∃ profile, db.pgoProfiles.find? sourceId = some profile ∧ profile.mergedPath.isSome

inductive UploadPhase where
  | starting
  | verified (sourceId : String)
  | profiled (sourceId : String)
  | merged (sourceId : String)

def Inserts (phase : UploadPhase) (s s' : State) : Prop :=
  ∀ row ∈ s'.db.jobs.rows, row.jobType = .pgoOptimize →
    (∃ old ∈ s.db.jobs.rows, old.submitted = row.submitted)
      ∨ ∃ sourceId, phase = .merged sourceId ∧ row.pgoSourceJobId = some sourceId

inductive Uploads : UploadPhase → State → UploadPhase → State → Prop where
  | stay {phase : UploadPhase} {s s' : State} (hinserts : Inserts phase s s') :
    Uploads phase s phase s'
  | verify {sourceId : String} {s s' : State} (hinserts : Inserts .starting s s')
    (hdone : s.core.statusOf sourceId = some .done) :
    Uploads .starting s (.verified sourceId) s'
  | profile {sourceId : String} {s s' : State} (hinserts : Inserts (.verified sourceId) s s')
    (hcontains : s'.db.pgoProfiles.contains sourceId) :
    Uploads (.verified sourceId) s (.profiled sourceId) s'
  | merge {sourceId : String} {s s' : State} (hinserts : Inserts (.profiled sourceId) s s')
    (hmerged : s.db.pgoProfiles.contains sourceId → s'.db.IsMerged sourceId) :
    Uploads (.profiled sourceId) s (.merged sourceId) s'

def UploadPhase.Holds (s : State) (phase : UploadPhase) : Prop :=
  match phase with
  | starting => True
  | verified sourceId => s.core.statusOf sourceId = some .done
  | profiled sourceId =>
    s.core.statusOf sourceId = some .done ∧ s.db.pgoProfiles.contains sourceId
  | merged sourceId => s.core.statusOf sourceId = some .done ∧ s.db.IsMerged sourceId

theorem Spares.inserts {s s' : State} (h : Spares s s') (phase : UploadPhase) : Inserts phase s s' :=
  fun row hrow htype => .inl (h.db.optimizes row hrow htype)

theorem Still.uploads (phase : UploadPhase) (s s' : State) (h : Still s s')
    : Uploads phase s phase s' :=
  .stay (h.inserts phase)

theorem inserts_of_jobs {s s' : State} (h : s'.db.jobs = s.db.jobs) (phase : UploadPhase)
    : Inserts phase s s' := by
  intro row hrow _
  rw [h] at hrow
  exact .inl ⟨row, hrow, rfl⟩

theorem uploads_refl (phase : UploadPhase) (s : State) : Uploads phase s phase s :=
  .stay (inserts_of_jobs rfl phase)

theorem follows_uploads_of_deed {α : Type} {label : Label} (hlabel : label.isUpload = false)
    {prog : Prog State α} (h : Always (Deed crates label) prog)
    : Follows Uploads (fun _ _ => True) prog .starting := by
  have hstays : Follows Uploads (fun phase _ => phase = .starting) prog .starting := by
    apply h.follows
    intro s s' hdeed
    apply Uploads.stay
    intro row hrow htype
    exact .inl (hdeed.optimizes hlabel row hrow htype)
  exact hstays.weaken fun _ _ _ => trivial

theorem follows_until {α ε : Type} {phase : UploadPhase} {prog : ExceptT ε (Prog State) α}
    (h : Follows Uploads (fun phase' _ => phase' = phase) prog.run phase)
    : Follows Uploads (Until (fun phase' _ => phase' = phase) fun _ _ => True) prog.run phase := by
  apply h.weaken
  intro _ res hphase
  cases res with
  | ok _ => exact hphase
  | error _ => trivial

section Upload

variable {ambient : Ambient} {sourceId : String} {upload : Upload}

theorem follows_profilesDir
    : Follows Uploads (Until (fun phase _ => phase = .profiled sourceId) fun _ _ => True)
        (uploadProfilesHandler.profilesDir settings ambient upload sourceId).run
        (.verified sourceId) := by
  apply follows_atomic
  intro s
  have hget : (s.runDb (ambient.faults 2) (Db.getPgoProfile sourceId)).snd = s :=
    runDb_query _ _ _ _
  split
  . next hrun =>
    rw [hrun] at hget
    rw [hget]
    exact ⟨_, uploads_refl _ s, trivial⟩
  . next profile _ hrun =>
    have hfind := (Sql.run_query_eq_ok (run_of_runDb hrun).left).left
    rw [hrun] at hget
    rw [hget]
    refine ⟨_, .profile (inserts_of_jobs rfl _) ?_, rfl⟩
    rw [Table.contains, ← hfind]
    rfl
  . next hrun =>
    rw [hrun] at hget
    dsimp only at hget
    rw [hget]
    split
    . exact ⟨_, uploads_refl _ s, trivial⟩
    . dsimp only
      split
      . next hrun =>
        rcases Sql.run_execute_cases (run_of_runDb hrun).left with ⟨_, hchange⟩ | ⟨err, herr, _⟩
        . rcases Db.inserted_eq_ok hchange with ⟨profiles, hinsert, hdb'⟩
          refine ⟨_, .profile (inserts_of_jobs ?_ _) ?_, rfl⟩
          . rw [hdb']
            rfl
          . rw [hdb', Table.contains, Table.find?_of_insert? hinsert, if_pos rfl]
            rfl
        . contradiction
      . next hrun =>
        rcases Sql.run_execute_cases (run_of_runDb hrun).left with ⟨hok, _⟩ | ⟨err, _, hdb'⟩
        . contradiction
        . refine ⟨_, .stay (inserts_of_jobs ?_ _), trivial⟩
          rw [hdb']
          rfl

theorem follows_updatePgoMergedPath (mergedPath : String) (faults : Faults Stmt)
    : Follows Uploads
        (fun phase res => res.isOk → phase = .merged sourceId)
        (lockDb faults (Db.updatePgoMergedPath sourceId mergedPath)) (.profiled sourceId) := by
  apply follows_atomic
  intro s
  cases hrun : s.runDb faults (Db.updatePgoMergedPath sourceId mergedPath) with
  | mk res s' =>
    have ⟨hdb, hs⟩ := run_of_runDb hrun
    rcases Sql.run_execute_cases hdb with ⟨_, hchange⟩ | ⟨err, rfl, hdb'⟩
    . injection hchange with hdb'
      refine ⟨.merged sourceId, .merge (inserts_of_jobs ?_ _) ?_, fun _ => rfl⟩
      . rw [← hdb']
      . intro hcontains
        rw [Table.contains, Option.isSome_iff_exists] at hcontains
        rcases hcontains with ⟨profile, hprofile⟩
        rw [← hdb']
        refine ⟨{ profile with mergedPath := some mergedPath }, ?_, rfl⟩
        dsimp only
        rw [Table.find?_updateKey, if_pos rfl, hprofile]
        rfl
    . refine ⟨.profiled sourceId, .stay (inserts_of_jobs ?_ _), ?_⟩
      . rw [hdb']
      . intro hok
        contradiction

theorem follows_submit_merged {job : Job} (hsource : job.pgoSourceJobId = some sourceId)
    (scope : Nat) (queuedAt : DateTime) (insertError : String) (accept : String → Response)
    : Follows Uploads (fun phase _ => phase = .merged sourceId)
        (submit crates ambient scope job queuedAt insertError accept).run (.merged sourceId) := by
  have hspares : ∀ {α : Type} {prog : Prog State α}, Always Spares prog →
      Always (Inserts (.merged sourceId)) prog :=
    fun h => h.mono fun _ _ h => h.inserts _
  have halways : Always (Inserts (.merged sourceId))
      (submit crates ambient scope job queuedAt insertError accept).run := by
    unfold submit
    apply Always.bindExcept
    . apply Always.liftExcept
      apply always_atomic
      intro s
      dsimp only
      cases hrun : s.runDb (ambient.faults scope) (Db.insertJob crates job.id job.tokenId job.project
          job.gitRef job.hardware queuedAt.toRfc3339 job.jobType job.pgoSourceJobId) with
      | mk res s' =>
        have ⟨hdb, hs⟩ := run_of_runDb hrun
        rcases run_insertJob_cases hdb with ⟨rfl, jobs, hinsert, hdb'⟩ | ⟨err, rfl, hdb'⟩
        . intro row hrow htype
          dsimp only at hrow
          rw [hs, hdb'] at hrow
          change row ∈ jobs.rows at hrow
          rw [Table.rows_of_insert? hinsert, List.mem_append, List.mem_singleton] at hrow
          rcases hrow with hrow | rfl
          . exact .inl ⟨row, hrow, rfl⟩
          . exact .inr ⟨sourceId, rfl, hsource⟩
        . apply inserts_of_jobs
          dsimp only
          rw [hdb']
    . intro res
      split
      . exact always_throw _
      . apply Always.bindExcept (hspares (spares_enqueue job)).liftExcept
        intro res
        split
        . exact always_pure _
        . apply Always.bindExcept
            (hspares (spares_lockDb (Db.moves_updateJobStatus _ _ _ _ _) _)).liftExcept
          intro _
          exact always_throw _
        . exact always_throw _
  exact halways.follows fun _ _ h => .stay h

theorem follows_upload
    : Proceeds Uploads (uploadProfilesHandler crates settings ambient sourceId upload) .starting := by
  unfold uploadProfilesHandler
  apply Follows.bindExcept (follows_authenticate (Still.uploads _) trivial fun _ => trivial)
  rintro ⟨_, token⟩ _ rfl
  apply Follows.bindExcept
    (m := fun phase (res : Except SqlError (Option Db.JobDetails)) =>
      ∀ details, res = .ok (some details) → details.status = .done →
        phase = .verified sourceId)
  . apply Follows.liftExcept
    apply follows_atomic
    intro s
    by_cases hdone : s.core.statusOf sourceId = some .done
    . refine ⟨.verified sourceId, .verify (inserts_of_jobs ?_ _) hdone, fun _ _ _ => rfl⟩
      rw [Db.getJobDetails, runDb_query]
    . refine ⟨.starting, .stay (inserts_of_jobs ?_ _), ?_⟩
      . rw [Db.getJobDetails, runDb_query]
      . intro details hres hstatus
        rw [Db.getJobDetails, fst_runDb_query] at hres
        split at hres
        . contradiction
        . injection hres with hres
          rw [Option.map_eq_some_iff] at hres
          rcases hres with ⟨row, hrow, rfl⟩
          apply absurd _ hdone
          unfold Core.statusOf
          change Option.map _ (s.db.jobs.find? sourceId) = _
          rw [hrow]
          exact congrArg some hstatus
  . intro res phase hphase
    split
    . exact follows_pure trivial
    . exact follows_pure trivial
    . next details =>
      split
      . exact follows_pure trivial
      . next hverify =>
        have hdone := (uploadProfilesHandler.verify_eq_ok hverify).right.right
        rw [hphase details rfl hdone]
        unfold uploadProfilesHandler.mergeAndSubmit
        apply Follows.bindExcept follows_profilesDir
        rintro dir _ rfl
        apply Follows.bindExcept (m := fun phase _ => phase = .profiled sourceId)
          (follows_until ((still_saveParts _ _ _ _).follows (Still.uploads _)))
        rintro filesSaved _ rfl
        split
        . exact follows_pure trivial
        . apply Follows.bindExcept (m := fun phase _ => phase = .profiled sourceId)
            (follows_until ((still_merge _ _ _).follows (Still.uploads _)))
          rintro _ _ rfl
          apply Follows.bindExcept (follows_updatePgoMergedPath _ _).liftExcept
          intro res phase hmerged
          split
          . exact follows_pure trivial
          . rw [hmerged rfl]
            apply (follows_submit_merged rfl _ _ _ _).weaken
            intro _ res _
            cases res <;> trivial

end Upload

theorem Uploads.inserts {phase phase' : UploadPhase} {s s' : State} (h : Uploads phase s phase' s')
    : Inserts phase s s' := by
  cases h <;> assumption

theorem Grow.isMerged {db db' : Db} (h : Grow db.pgoProfiles db'.pgoProfiles) {sourceId : String}
    (hmerged : db.IsMerged sourceId)
    : db'.IsMerged sourceId := by
  rcases hmerged with ⟨profile, hprofile, hsome⟩
  rcases h sourceId profile hprofile with ⟨profile', hprofile', hgrow⟩
  exact ⟨profile', hprofile', hgrow hsome⟩

theorem Grow.contains {profiles profiles' : Table PgoProfileRow.instrumentJobId}
    (h : Grow profiles profiles') {sourceId : String} (hcontains : profiles.contains sourceId)
    : profiles'.contains sourceId := by
  rw [Table.contains, Option.isSome_iff_exists] at hcontains ⊢
  rcases hcontains with ⟨profile, hprofile⟩
  rcases h sourceId profile hprofile with ⟨profile', hprofile', _⟩
  exact ⟨profile', hprofile'⟩

theorem Turn.grow {action : Action} (h : Turn crates system system' action)
    : Grow system.state.db.pgoProfiles system'.state.db.pgoProfiles := by
  cases h with
  | run hthread hdone hdeed => exact hdeed.pgoProfiles
  | @restart boot hboots =>
    have hprofiles : system'.state.db.pgoProfiles = system.state.db.pgoProfiles := by
      generalize system'.state.db = db' at hboots
      cases hboots <;> rfl
    rw [hprofiles]
    exact grow_refl _
  | quiet hdb =>
    rw [hdb]
    exact grow_refl _

theorem UploadPhase.Holds.mono {s s' : State} {phase : UploadPhase} (h : phase.Holds s)
    (hdone : ∀ id, s.core.statusOf id = some .done → s'.core.statusOf id = some .done)
    (hgrow : Grow s.db.pgoProfiles s'.db.pgoProfiles)
    : phase.Holds s' := by
  cases phase with
  | starting => trivial
  | verified sourceId => exact hdone _ h
  | profiled sourceId => exact ⟨hdone _ h.left, hgrow.contains h.right⟩
  | merged sourceId => exact ⟨hdone _ h.left, hgrow.isMerged h.right⟩

theorem UploadPhase.Holds.step {s s' : State} {phase phase' : UploadPhase} (h : phase.Holds s)
    (huploads : Uploads phase s phase' s')
    (hdone : ∀ id, s.core.statusOf id = some .done → s'.core.statusOf id = some .done)
    (hgrow : Grow s.db.pgoProfiles s'.db.pgoProfiles)
    : phase'.Holds s' := by
  cases huploads with
  | stay => exact h.mono hdone hgrow
  | verify _ hstatus => exact hdone _ hstatus
  | profile _ hcontains => exact ⟨hdone _ h, hcontains⟩
  | merge _ hmerged => exact ⟨hdone _ h.left, hmerged h.right⟩

def JobRow.IsGrounded (row : JobRow) (s : State) : Prop :=
  row.jobType = .pgoOptimize →
    ∃ sourceId, row.pgoSourceJobId = some sourceId
      ∧ s.core.statusOf sourceId = some .done ∧ s.db.IsMerged sourceId

theorem JobRow.IsGrounded.mono {row row' : JobRow} {s s' : State} (h : row.IsGrounded s)
    (hsubmitted : row.submitted = row'.submitted)
    (hdone : ∀ id, s.core.statusOf id = some .done → s'.core.statusOf id = some .done)
    (hgrow : Grow s.db.pgoProfiles s'.db.pgoProfiles)
    : row'.IsGrounded s' := by
  intro htype
  have hjobType : row.submitted.jobType = row'.submitted.jobType :=
    congrArg JobRow.jobType hsubmitted
  have hsourceId : row.submitted.pgoSourceJobId = row'.submitted.pgoSourceJobId :=
    congrArg JobRow.pgoSourceJobId hsubmitted
  rcases h (hjobType.trans htype) with ⟨sourceId, hrow, hstatus, hmerged⟩
  exact ⟨sourceId, hsourceId.symm.trans hrow, hdone _ hstatus, hgrow.isMerged hmerged⟩

structure IsMerging (crates : Crates) (settings : Settings) (system : System) : Prop where
  reachable : system.Reachable crates settings
  uploading : ∃ phases,
    Pool.Conforms Uploads (fun _ _ => True) (fun _ _ _ => True) system.threads phases
      ∧ ∀ phase ∈ phases, phase.Holds system.state
  grounded : ∀ row ∈ system.state.db.jobs.rows, row.IsGrounded system.state

theorem follows_uploads_route (request : Request) (ambient : Ambient)
    : Follows Uploads (fun _ _ => True)
        (do let response ← (route crates settings request ambient).respond
            pure (Answer.response response))
        .starting := by
  by_cases hupload : (Label.handler request ambient).isUpload = false
  . exact follows_uploads_of_deed hupload (always_handler (deed_route request))
  . cases request with
    | uploadProfiles id upload => exact follows_handler_of follows_upload
    | _ => exact absurd rfl hupload

theorem follows_uploads_processJob (externals : Externals) (job : Job)
    : Follows Uploads (fun _ _ => True)
        (do let outcome ← processJob crates settings externals job
            pure (Answer.outcome outcome))
        .starting := by
  apply @follows_uploads_of_deed crates _ (.worker job) rfl
  apply Always.bind (deed_processJob externals job)
  intro _
  exact always_pure _

theorem IsMerging.step {action : Action} (h : IsMerging crates settings system)
    (hstep : system.step crates settings action = some system')
    : IsMerging crates settings system' := by
  have hdone : ∀ id, system.state.core.statusOf id = some .done →
      system'.state.core.statusOf id = some .done := by
    intro id hid
    exact (h.reachable.statusMoves hstep id).lasts (.inl rfl) hid
  have hgrow := (turn_of_step h.reachable.allAlways hstep).left.grow
  rcases h.uploading with ⟨phases, hconforms, hholds⟩
  -- Where the rows stay, they stay grounded.
  have hgrounded : system'.state.db.jobs = system.state.db.jobs →
      ∀ row ∈ system'.state.db.jobs.rows, row.IsGrounded system'.state := by
    intro hjobs row hrow
    rw [hjobs] at hrow
    exact (h.grounded row hrow).mono rfl hdone hgrow
  have hstarting : ∀ phase ∈ phases ++ [.starting], phase.Holds system'.state := by
    intro phase hphase
    rw [List.mem_append, List.mem_singleton] at hphase
    rcases hphase with hphase | rfl
    . exact (hholds phase hphase).mono hdone hgrow
    . trivial
  refine ⟨h.reachable.step hstep, ?_, ?_⟩
  . cases System.stepsTo hstep with
    | @request request ambient _ =>
      exact ⟨_, hconforms.spawn trivial (follows_uploads_route request ambient), hstarting⟩
    | @recv externals job queue _ _ =>
      refine ⟨_, Pool.Conforms.spawn hconforms trivial ?_, hstarting⟩
      exact follows_uploads_processJob externals job
    | run hrun =>
      rcases hconforms.runThread (fun _ _ _ _ _ _ _ => trivial) hrun with
        ⟨phase, phase', hphase, huploads, hconforms'⟩
      refine ⟨_, hconforms', ?_⟩
      intro other hother
      rcases List.mem_or_eq_of_mem_set hother with hother | rfl
      . exact (hholds other hother).mono hdone hgrow
      . exact (hholds phase (List.mem_of_getElem? hphase)).step huploads hdone hgrow
    | changeFiles => exact ⟨phases, hconforms, hholds⟩
    | restart hthreads _ =>
      rw [hthreads]
      exact ⟨[], Pool.conforms_nil, fun _ hphase => absurd hphase List.not_mem_nil⟩
  . cases System.stepsTo hstep with
    | run hrun =>
      rcases hconforms.runThread (fun _ _ _ _ _ _ _ => trivial) hrun with
        ⟨phase, phase', hphase, huploads, _⟩
      intro row hrow htype
      rcases huploads.inserts row hrow htype with ⟨old, hold, hsubmitted⟩ | ⟨sourceId, rfl, hrow⟩
      . exact (h.grounded old hold).mono hsubmitted hdone hgrow htype
      . have hmerged := hholds _ (List.mem_of_getElem? hphase)
        exact ⟨sourceId, hrow, hdone _ hmerged.left, hgrow.isMerged hmerged.right⟩
    | request => exact hgrounded rfl
    | recv => exact hgrounded rfl
    | changeFiles => exact hgrounded rfl
    | restart _ hcore => exact hgrounded (congrArg Core.jobs hcore)

theorem System.Reachable.isMerging (h : system.Reachable crates settings)
    : IsMerging crates settings system := by
  rcases h with ⟨boot, system₀, actions, hmain, hrun⟩
  apply Machine.invariant_of_run _ _ hrun
  . intro action _ system system' h hstep
    exact h.step hstep
  . have ⟨hthreads, hcore⟩ := main_eq_some hmain
    refine ⟨⟨boot, system₀, [], hmain, rfl⟩, ⟨[], ?_, ?_⟩, ?_⟩
    . rw [hthreads]
      exact Pool.conforms_nil
    . intro phase hphase
      contradiction
    . have hjobs : system₀.state.db.jobs = .empty := congrArg Core.jobs hcore
      rw [hjobs]
      intro row hrow
      contradiction

end Koval
