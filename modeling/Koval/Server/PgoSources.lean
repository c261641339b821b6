import Koval.Server.PgoJobs
import Koval.Server.PgoRuns

/-!
This module contains why no optimization fails for lack of what it starts from.
-/

namespace Koval

open Prog

variable {crates : Crates} {settings : Settings} {system system' : System}

def Core.Blames (c : Core) : Prop :=
  ∃ row ∈ c.jobs.rows, ∃ errMsg, row.errorMsg = some errMsg ∧ processJob.MissesSource errMsg

def Blameless (s s' : State) : Prop := s'.core.Blames → s.core.Blames

def Job.IsGrounded (job : Job) (db : Db) : Prop :=
  job.jobType = .pgoOptimize →
    ∃ sourceId, job.pgoSourceJobId = some sourceId ∧ db.IsMerged sourceId

inductive Footing where
  | handler
  | worker (job : Job)
  | lost
  deriving DecidableEq

inductive Treads : Footing → State → Footing → State → Prop where
  | stay {footing : Footing} {s s' : State} (hblameless : Blameless s s') :
    Treads footing s footing s'
  | lose {job : Job} {s s' : State} (hmisses : ¬ job.IsGrounded s.db) :
    Treads (.worker job) s .lost s'
  | lost {s s' : State} : Treads .lost s .lost s'

theorem blameless_of_jobs {s s' : State} (h : s'.db.jobs = s.db.jobs) : Blameless s s' := by
  rintro ⟨row, hrow, hblames⟩
  change row ∈ s'.db.jobs.rows at hrow
  rw [h] at hrow
  exact ⟨row, hrow, hblames⟩

theorem Aside.blameless (s s' : State) (h : Aside s s') : Blameless s s' := blameless_of_jobs h.jobs

theorem Still.blameless {s s' : State} (h : Still s s') : Blameless s s' := h.aside.blameless

theorem blames_setStatus {c : Core} {id : String} {status : Status}
    {startedAt finishedAt errorMsg : Option String}
    (hmsg : ∀ errMsg, errorMsg = some errMsg → ¬ processJob.MissesSource errMsg)
    (h : (c.setStatus id status startedAt finishedAt errorMsg).Blames)
    : c.Blames := by
  rcases h with ⟨row, hrow, errMsg, herr, hmisses⟩
  rcases Table.exists_of_mem_updateKey (JobRow.id_setStatus _ _ _ _) hrow with ⟨old, hold, heq⟩
  split at heq
  . rw [heq] at herr
    exact absurd hmisses (hmsg errMsg herr)
  . rw [heq] at herr
    exact ⟨old, hold, errMsg, herr, hmisses⟩

theorem blameless_updateJobStatus {id : String} {status : Status}
    {startedAt finishedAt errorMsg : Option String}
    (hmsg : ∀ errMsg, errorMsg = some errMsg → ¬ processJob.MissesSource errMsg)
    (faults : Faults Stmt)
    : Always Blameless
        (lockDb faults (Db.updateJobStatus id status startedAt finishedAt errorMsg)) := by
  apply always_atomic
  intro s
  cases hrun : s.runDb faults (Db.updateJobStatus id status startedAt finishedAt errorMsg) with
  | mk res s' =>
    have ⟨hdb, _⟩ := run_of_runDb hrun
    rcases Db.run_updateJobStatus_cases hdb with ⟨_, hdb'⟩ | ⟨_, _, _, hdb'⟩
    . intro h
      apply blames_setStatus hmsg
      dsimp only at h
      unfold State.core at h
      rw [hdb'] at h
      exact h
    . apply blameless_of_jobs
      dsimp only
      rw [hdb']

theorem blameless_submit {ambient : Ambient} (job : Job) (scope : Nat) (queuedAt : DateTime)
    (insertError : String) (accept : String → Response)
    : Always Blameless (submit crates ambient scope job queuedAt insertError accept).run := by
  unfold submit
  apply Always.bindExcept
  . apply Always.liftExcept
    apply always_atomic
    intro s
    dsimp only
    cases hrun : s.runDb (ambient.faults scope) (Db.insertJob crates job.id job.tokenId job.project
        job.gitRef job.hardware queuedAt.toRfc3339 job.jobType job.pgoSourceJobId) with
    | mk res s' =>
      have ⟨hdb, hs⟩ := run_of_runDb hrun
      rcases run_insertJob_cases hdb with ⟨rfl, jobs, hinsert, hdb'⟩ | ⟨err, rfl, hdb'⟩
      . rintro ⟨row, hrow, errMsg, herr, hmisses⟩
        dsimp only [State.core] at hrow
        rw [hs, hdb'] at hrow
        change row ∈ jobs.rows at hrow
        rw [Table.rows_of_insert? hinsert, List.mem_append, List.mem_singleton] at hrow
        rcases hrow with hrow | rfl
        . exact ⟨row, hrow, errMsg, herr, hmisses⟩
        . contradiction
      . apply blameless_of_jobs
        dsimp only
        rw [hdb']
  . intro res
    split
    . exact always_throw _
    . apply Always.bindExcept
      . apply Always.liftExcept
        apply always_atomic
        intro s
        apply blameless_of_jobs
        dsimp only
        split <;> rfl
      . intro res
        split
        . exact always_pure _
        . apply Always.bindExcept
          . apply Always.liftExcept
            apply blameless_updateJobStatus
            rintro errMsg ⟨⟩
            exact processJob.not_missesSource (by simp)
          . intro _
            exact always_throw _
        . exact always_throw _

namespace processJob

variable {externals : Externals} {job : Job} {α : Type}

theorem works_of_blameless {prog : Worker α} (h : Always Blameless prog.run)
    : Works Treads (fun _ _ => True) (.worker job) prog := by
  apply (h.follows fun _ _ => .stay).weaken
  intro _ res hfooting
  cases res with
  | ok _ => exact hfooting
  | error _ => trivial

theorem blameless_perform (effect : Effect) : Always Blameless (perform effect) := by
  apply always_atomic
  intro s
  exact blameless_of_jobs rfl

theorem blameless_deliver (payload : WebhookPayload) (webhooks : List (String × String))
    : Always Blameless (deliver payload webhooks) := by
  unfold deliver
  split
  . exact always_pure _
  . exact blameless_perform _

theorem blameless_query {select : Db → α} (tag : Stmt) (faults : Faults Stmt)
    : Always Blameless (lockDb faults (Sql.query tag select)) :=
  (still_reading (Sql.keeps_query _ _ _) faults).mono fun _ _ h => h.blameless

theorem works_failJob {errMsg : String} (h : ¬ MissesSource errMsg)
    : Works Treads (fun _ _ => True) (.worker job)
        (failJob settings externals job errMsg : Worker α) := by
  apply works_of_blameless
  unfold failJob
  apply Always.bindExcept (blameless_query _ _).liftExcept
  intro webhooks
  apply Always.bindExcept
  . apply Always.liftExcept
    apply blameless_updateJobStatus
    rintro _ ⟨⟩
    exact h
  . intro res
    apply Always.bindExcept (always_tryDb res)
    intro _
    apply Always.bindExcept (blameless_perform _).liftExcept
    intro _
    apply Always.bindExcept (blameless_deliver _ _).liftExcept
    intro _
    exact always_throw _

def Misses (job : Job) (footing : Footing) : Prop :=
  footing = .lost ∨ (footing = .worker job ∧ ∀ db, ¬ job.IsGrounded db)

theorem treads_of_misses (footing : Footing) (s s' : State) (h : Misses job footing)
    : ∃ footing', Treads footing s footing' s' ∧ Misses job footing' := by
  rcases h with rfl | ⟨rfl, hmisses⟩
  . exact ⟨.lost, .lost, .inl rfl⟩
  . exact ⟨.lost, .lose (hmisses s.db), .inl rfl⟩

theorem follows_failJob_of_misses {footing : Footing} (h : Misses job footing) (errMsg : String)
    : Follows Treads (Until (fun footing' _ => footing' = .worker job) fun _ _ => True)
        (failJob settings externals job errMsg : Worker α).run footing := by
  have hlift : ∀ {β : Type} (prog : Prog State β) {footing : Footing}, Misses job footing →
      Follows Treads (Until (fun footing' _ => Misses job footing') fun _ _ => True)
        (ExceptT.lift prog : Worker β).run footing := by
    intro _ prog _ h
    exact (follows_of_exists treads_of_misses prog h).liftExcept
  unfold failJob
  apply Follows.bindExcept (hlift _ h)
  intro webhooks _ h
  apply Follows.bindExcept (hlift _ h)
  intro res _ h
  apply Follows.bindExcept (m := fun footing' _ => Misses job footing')
  . unfold tryDb
    split
    . exact follows_pure h
    . exact follows_pure trivial
  . intro _ _ h
    apply Follows.bindExcept (hlift _ h)
    intro _ _ h
    apply Follows.bindExcept (hlift _ h)
    intro _ _ _
    exact follows_pure trivial

theorem rules_treads
    : Rules settings externals job Treads (fun _ _ => True) (.worker job) where
  still h := .stay h.blameless
  ends _ := trivial
  failJob := works_failJob

theorem follows_getPgoProfile (hoptimize : job.jobType = .pgoOptimize) {sourceId : String}
    (hsource : job.pgoSourceJobId = some sourceId) (faults : Faults Stmt)
    : Follows Treads
        (fun footing res =>
          match res with
          | .ok none => footing = .lost
          | .ok (some profile) =>
            footing = if profile.mergedPath.isSome then .worker job else .lost
          | .error _ => footing = .worker job)
        (lockDb faults (Db.getPgoProfile sourceId)) (.worker job) := by
  -- A merged profile is all that the job has to find.
  have hmisses : ∀ {s : State}, ¬ s.db.IsMerged sourceId → ¬ job.IsGrounded s.db := by
    intro s hnot hgrounded
    rcases hgrounded hoptimize with ⟨sourceId', hsource', hmerged⟩
    rw [hsource] at hsource'
    injection hsource' with hid
    rw [← hid] at hmerged
    exact hnot hmerged
  apply follows_atomic
  intro s
  have hs : (s.runDb faults (Db.getPgoProfile sourceId)).snd = s := runDb_query _ _ _ _
  have hres : (s.runDb faults (Db.getPgoProfile sourceId)).fst = _ := fst_runDb_query _ _ _ _
  rw [hs, hres]
  cases faults .getPgoProfile with
  | some msg => exact ⟨.worker job, .stay id, rfl⟩
  | none =>
    cases hfind : s.db.pgoProfiles.find? sourceId with
    | none =>
      refine ⟨.lost, .lose (hmisses ?_), ?_⟩
      . rintro ⟨profile, hprofile, _⟩
        rw [hfind] at hprofile
        contradiction
      . rfl
    | some profile =>
      dsimp only
      split
      . exact ⟨.worker job, .stay id, rfl⟩
      . next hnone =>
        refine ⟨.lost, .lose (hmisses ?_), rfl⟩
        rintro ⟨profile', hprofile, hsome⟩
        rw [hfind] at hprofile
        injection hprofile with heq
        rw [heq] at hnone
        exact hnone hsome

theorem works_rustflags (config : BuildConfig)
    : Works Treads (fun _ _ => True) (.worker job) (rustflags settings externals job config) := by
  have rules : Rules settings externals job Treads (fun _ _ => True) (.worker job) := rules_treads
  unfold rustflags
  split
  . exact works_pure _
  . exact works_pure _
  . next hoptimize =>
    split
    . next hsource =>
      apply follows_failJob_of_misses
      refine .inr ⟨rfl, ?_⟩
      intro db hgrounded
      rcases hgrounded hoptimize with ⟨sourceId, hsome, _⟩
      rw [hsource] at hsome
      contradiction
    . next sourceId hsource =>
      apply Works.bind
      . unfold mergedPath
        apply Follows.bindExcept (follows_getPgoProfile hoptimize hsource _).liftExcept
        intro res footing hfooting
        split
        . rw [hfooting]
          exact rules.failJob (not_missesSource (by simp))
        . exact follows_failJob_of_misses (.inl hfooting) _
        . next profile =>
          dsimp only at hfooting
          split
          . next hnone =>
            rw [hnone] at hfooting
            exact follows_failJob_of_misses (.inl hfooting) _
          . next path hsome =>
            rw [hsome] at hfooting
            rw [hfooting]
            exact rules.works_mergedFile _
      . intro _
        exact works_pure _

theorem blameless_complete (fileSize : Nat) (sha256 : String)
    : Always Blameless
        (atomic fun s =>
          let (res, s) := s.runDb (externals.faults 3)
            (complete.go crates settings job externals.finished.toRfc3339 fileSize sha256)
          match res with
          | .ok () => (Except.ok (), s.note (.completed job))
          | .error err => (.error err, s)) := by
  apply always_atomic
  intro s
  cases hrun : s.runDb (externals.faults 3)
      (complete.go crates settings job externals.finished.toRfc3339 fileSize sha256) with
  | mk res s' =>
    intro h
    rcases complete.run_go_cases hrun with
      ⟨artifact, _, ⟨rfl, hcore⟩ | ⟨err, rfl, hcore | hcore | hcore⟩⟩
    . change s'.core.Blames at h
      rw [hcore] at h
      exact blames_setStatus (by intro errMsg hnone; contradiction) h
    . change s'.core.Blames at h
      rw [hcore] at h
      exact h
    . change s'.core.Blames at h
      rw [hcore] at h
      exact h
    . change s'.core.Blames at h
      rw [hcore] at h
      exact h

theorem follows_treads (externals : Externals) (job : Job)
    : Follows Treads (fun _ _ => True)
        (do let outcome ← processJob crates settings externals job
            pure (Answer.outcome outcome))
        (.worker job) := by
  apply Follows.bind (m := fun _ _ => True)
  . apply follows_processJob_of rules_treads works_rustflags
    . apply works_of_blameless
      unfold start
      apply Always.bindExcept
      . apply Always.liftExcept
        apply blameless_updateJobStatus
        intro errMsg hnone
        contradiction
      . intro res
        apply Always.bindExcept (always_tryDb res)
        intro _
        split
        . exact (blameless_perform _).liftExcept
        . exact always_pure _
    . intro fileSize sha256
      apply works_of_blameless
      unfold complete
      apply Always.bindExcept (blameless_query _ _).liftExcept
      intro webhooks
      apply Always.bindExcept
      . apply Always.liftExcept
        exact blameless_complete fileSize sha256
      . intro res
        apply Always.bindExcept (always_tryDb res)
        intro _
        exact (blameless_deliver _ _).liftExcept
    . intro s s' h
      exact .stay h.blameless
    . trivial
  . intro _ _ _
    exact follows_pure trivial

end processJob

theorem follows_treads_route (request : Request) (ambient : Ambient)
    : Follows Treads (fun _ _ => True)
        (do let response ← (route crates settings request ambient).respond
            pure (Answer.response response))
        .handler := by
  apply follows_handler_of
  apply proceeds_route
  . intro s s' h
    exact .stay h.blameless
  . intro job scope queuedAt insertError accept _
    apply ((blameless_submit job scope queuedAt insertError accept).follows fun _ _ => .stay).weaken
    intro _ res _
    cases res <;> trivial

theorem IsMerging.isGrounded (h : IsMerging crates settings system) {job : Job}
    (hjob : job ∈ system.state.core.recorded)
    : job.IsGrounded system.state.db := by
  intro htype
  rcases h.reachable.exists_lives with ⟨phases, _, hlife⟩
  rcases hlife.recorded.rows job hjob with ⟨queuedAt, hsubmitted⟩
  unfold Core.submittedOf at hsubmitted
  rw [Option.map_eq_some_iff] at hsubmitted
  rcases hsubmitted with ⟨row, hrow, hsubmitted⟩
  have hjobType : row.submitted.jobType = job.jobType := congrArg JobRow.jobType hsubmitted
  have hsourceId : row.submitted.pgoSourceJobId = job.pgoSourceJobId :=
    congrArg JobRow.pgoSourceJobId hsubmitted
  rcases h.grounded row (Table.mem_of_find? hrow) (hjobType.trans htype) with
    ⟨sourceId, hsource, _, hmerged⟩
  exact ⟨sourceId, hsourceId.symm.trans hsource, hmerged⟩

theorem Grow.isGrounded {db db' : Db} (hgrow : Grow db.pgoProfiles db'.pgoProfiles) {job : Job}
    (h : job.IsGrounded db)
    : job.IsGrounded db' := by
  intro htype
  rcases h htype with ⟨sourceId, hsource, hmerged⟩
  exact ⟨sourceId, hsource, hgrow.isMerged hmerged⟩

def Stands (label : Label) (footing : Footing) : Prop :=
  ∀ job, label = .worker job → footing = .worker job ∨ footing = .lost

theorem Stands.treads (label : Label) (footing : Footing) (s : State) (footing' : Footing)
    (s' : State) (h : Stands label footing) (htreads : Treads footing s footing' s')
    : Stands label footing' := by
  intro job hjob
  cases htreads with
  | stay => exact h job hjob
  | lose => exact .inr rfl
  | lost => exact .inr rfl

theorem Recorded.exists_source {c : Core} {phases : List Phase} (h : Recorded crates c phases)
    {row : JobRow} (hrow : row ∈ c.jobs.rows) (htype : row.jobType = .pgoOptimize)
    : ∃ source ∈ c.jobs.rows,
        row.pgoSourceJobId = some source.id
          ∧
        source.jobType = .pgoInstrument
          ∧
        source.tokenId = row.tokenId := by
  have hfind : c.submittedOf row.id = some row.submitted := by
    unfold Core.submittedOf
    rw [Table.find?_of_mem hrow]
    rfl
  rcases h.ofRow row.id (by simp [hfind]) with ⟨job, hjob, hid⟩
  rcases h.rows job hjob with ⟨queuedAt, hsubmitted⟩
  rw [hid, hfind] at hsubmitted
  injection hsubmitted with hsubmitted
  have hjobType : row.submitted.jobType = job.jobType := congrArg JobRow.jobType hsubmitted
  have hsourceId : row.submitted.pgoSourceJobId = job.pgoSourceJobId :=
    congrArg JobRow.pgoSourceJobId hsubmitted
  have htokenId : row.submitted.tokenId = job.tokenId := congrArg JobRow.tokenId hsubmitted
  rcases h.optimizes job hjob (hjobType.symm.trans htype) with ⟨source, hsource, hoptimizes⟩
  rcases h.rows source hsource with ⟨queuedAt', hsource'⟩
  unfold Core.submittedOf at hsource'
  rw [Option.map_eq_some_iff] at hsource'
  rcases hsource' with ⟨sourceRow, hfind', hsubmitted'⟩
  have hsourceType : sourceRow.submitted.jobType = source.jobType :=
    congrArg JobRow.jobType hsubmitted'
  have hsourceToken : sourceRow.submitted.tokenId = source.tokenId :=
    congrArg JobRow.tokenId hsubmitted'
  have hsourceRowId : sourceRow.id = source.id := Table.key_of_find? hfind'
  refine ⟨sourceRow, Table.mem_of_find? hfind', ?_, ?_, ?_⟩
  . rw [hsourceRowId]
    exact hsourceId.trans hoptimizes.sourceId
  . exact hsourceType.trans hoptimizes.sourceType
  . exact hsourceToken.trans (hoptimizes.tokenId.symm.trans htokenId.symm)

structure IsBlameless (crates : Crates) (settings : Settings) (system : System) : Prop where
  reachable : system.Reachable crates settings
  treading : ∃ footings,
    Pool.Conforms Treads Stands (fun _ _ _ => True) system.threads footings
      ∧ .lost ∉ footings
      ∧ ∀ job, .worker job ∈ footings → job.IsGrounded system.state.db
  blameless : ¬ system.state.core.Blames

theorem IsBlameless.step {action : Action} (h : IsBlameless crates settings system)
    (hstep : system.step crates settings action = some system')
    : IsBlameless crates settings system' := by
  have hgrow := (turn_of_step h.reachable.allAlways hstep).left.grow
  rcases h.treading with ⟨footings, hconforms, hlost, hgrounded⟩
  have hgrounded' : ∀ job, .worker job ∈ footings → job.IsGrounded system'.state.db := by
    intro job hjob
    exact hgrow.isGrounded (hgrounded job hjob)
  have hreachable := h.reachable.step hstep
  cases System.stepsTo hstep with
  | @request request ambient _ =>
    refine ⟨hreachable, ⟨footings ++ [.handler], ?_, ?_, ?_⟩, h.blameless⟩
    . apply hconforms.spawn _ (follows_treads_route request ambient)
      intro job hjob
      contradiction
    . simp [hlost]
    . intro job hjob
      rw [List.mem_append, List.mem_singleton] at hjob
      rcases hjob with hjob | hjob
      . exact hgrounded job hjob
      . contradiction
  | @recv externals job queue hjobs _ =>
    have hjob : job ∈ system.state.core.waiting := by
      change job ∈ system.state.queue.jobs
      rw [hjobs]
      exact List.mem_cons_self
    rcases h.reachable.exists_lives with ⟨phases, _, hlife⟩
    have hnew := h.reachable.isMerging.isGrounded (hlife.recorded.waiting job hjob)
    refine ⟨hreachable, ⟨footings ++ [.worker job], ?_, ?_, ?_⟩, h.blameless⟩
    . apply Pool.Conforms.spawn hconforms _ (processJob.follows_treads externals job)
      rintro _ ⟨⟩
      exact .inl rfl
    . simp [hlost]
    . intro other hother
      rw [List.mem_append, List.mem_singleton] at hother
      rcases hother with hother | hother
      . exact hgrounded other hother
      . injection hother with heq
        rw [heq]
        exact hnew
  | run hrun =>
    rcases hconforms.runThread Stands.treads hrun with
      ⟨footing, footing', hfooting, htreads, hconforms'⟩
    have hmem := List.mem_of_getElem? hfooting
    -- Whoever stands on the ground keeps it.
    have hstay : footing' = footing ∧ Blameless system.state system'.state := by
      cases htreads with
      | stay hblameless => exact ⟨rfl, hblameless⟩
      | lose hmisses => exact absurd (hgrounded _ hmem) hmisses
      | lost => exact absurd hmem hlost
    rw [hstay.left] at hconforms'
    refine ⟨hreachable, ⟨_, hconforms', ?_, ?_⟩, fun hblames => h.blameless (hstay.right hblames)⟩
    . intro hmem'
      rcases List.mem_or_eq_of_mem_set hmem' with hmem' | heq
      . exact hlost hmem'
      . rw [← heq] at hmem
        exact hlost hmem
    . intro job hjob
      rcases List.mem_or_eq_of_mem_set hjob with hjob | heq
      . exact hgrounded' job hjob
      . rw [← heq] at hmem
        exact hgrounded' job hmem
  | changeFiles => exact ⟨hreachable, ⟨footings, hconforms, hlost, hgrounded⟩, h.blameless⟩
  | restart hthreads hcore =>
    refine ⟨hreachable, ⟨[], ?_, List.not_mem_nil, ?_⟩, ?_⟩
    . rw [hthreads]
      exact Pool.conforms_nil
    . intro job hjob
      contradiction
    . rw [hcore]
      exact h.blameless

theorem System.Reachable.isBlameless (h : system.Reachable crates settings)
    : IsBlameless crates settings system := by
  rcases h with ⟨boot, system₀, actions, hmain, hrun⟩
  apply Machine.invariant_of_run _ _ hrun
  . intro action _ system system' h hstep
    exact h.step hstep
  . have ⟨hthreads, hcore⟩ := main_eq_some hmain
    refine ⟨⟨boot, system₀, [], hmain, rfl⟩, ⟨[], ?_, List.not_mem_nil, ?_⟩, ?_⟩
    . rw [hthreads]
      exact Pool.conforms_nil
    . intro job hjob
      contradiction
    . rw [hcore]
      rintro ⟨row, hrow, _⟩
      contradiction

/--
In every state that the server reaches: every optimization job names a finished instrumentation job
of the same token, whose profiles are merged; the same holds of what a worker works on, and no job
has failed for lack of it.
-/
theorem System.Reachable.optimizes_finished (h : system.Reachable crates settings)
    : (∀ row ∈ system.state.db.jobs.rows, row.jobType = .pgoOptimize →
        ∃ source ∈ system.state.db.jobs.rows, ∃ profile ∈ system.state.db.pgoProfiles.rows,
          row.pgoSourceJobId = some source.id
            ∧
          source.jobType = .pgoInstrument
            ∧
          source.status = .done
            ∧
          source.tokenId = row.tokenId
            ∧
          profile.instrumentJobId = source.id
            ∧
          profile.mergedPath.isSome)
        ∧
      (∀ thread ∈ system.threads, ∀ job, thread.label = .worker job → job.jobType = .pgoOptimize →
        ∃ sourceId, job.pgoSourceJobId = some sourceId ∧ system.state.db.IsMerged sourceId)
        ∧
      (∀ row ∈ system.state.db.jobs.rows, ∀ errMsg, row.errorMsg = some errMsg →
        ¬ processJob.MissesSource errMsg) := by
  refine ⟨?_, ?_, ?_⟩
  . intro row hrow htype
    rcases h.isMerging.grounded row hrow htype with ⟨sourceId, hsourceId, hdone, hmerged⟩
    rcases h.exists_lives with ⟨phases, _, hlife⟩
    rcases hlife.recorded.exists_source hrow htype with
      ⟨source, hsource, hsourceId', hsourceType, htokenId⟩
    have hid : sourceId = source.id := Option.some.inj (hsourceId.symm.trans hsourceId')
    rw [hid] at hdone hmerged
    rcases hmerged with ⟨profile, hprofile, hsome⟩
    refine ⟨source, hsource, profile, Table.mem_of_find? hprofile, hsourceId', hsourceType, ?_,
      htokenId, Table.key_of_find? hprofile, hsome⟩
    unfold Core.statusOf at hdone
    rw [Table.find?_of_mem hsource] at hdone
    exact Option.some.inj hdone
  . intro thread hthread job hlabel htype
    rcases h.isBlameless.treading with ⟨footings, hconforms, hlost, hgrounded⟩
    rcases hconforms.exists_phase hthread with ⟨footing, hfooting, hstands, _⟩
    rcases hstands job hlabel with rfl | rfl
    . exact hgrounded job hfooting htype
    . exact absurd hfooting hlost
  . intro row hrow errMsg herr hmisses
    exact h.isBlameless.blameless ⟨row, hrow, errMsg, herr, hmisses⟩

-- A build that is instrumented, then optimized.
def Samples.optimized : List Action := uploaded none ++ processed 3 externals 12

theorem System.Reachable.optimizes_finished_uploaded
    : ∃ system : System,
        ∃ row ∈ system.state.db.jobs.rows, row.status = .done
          ∧
        ∃ source ∈ system.state.db.jobs.rows, ∃ profile ∈ system.state.db.pgoProfiles.rows,
          row.pgoSourceJobId = some source.id
            ∧
          source.status = .done
            ∧
          profile.instrumentJobId = source.id
            ∧
          profile.mergedPath.isSome := by
  rcases Samples.exists_of_runs Samples.optimized
      (fun system => ∃ row ∈ system.state.db.jobs.rows,
        row.jobType = .pgoOptimize ∧ row.status = .done)
      (by decide +kernel) with
    ⟨system₀, system, hmain, hrun, row, hrow, htype, hdone⟩
  have hreachable : system.Reachable Samples.github.crates Samples.settings :=
    ⟨Samples.boot, system₀, _, hmain, hrun⟩
  rcases hreachable.optimizes_finished.left row hrow htype with
    ⟨source, hsource, profile, hprofile, hsourceId, _, hfinished, _, hid, hmerged⟩
  exact ⟨system, row, hrow, hdone, source, hsource, profile, hprofile, hsourceId, hfinished, hid,
    hmerged⟩

end Koval
