import Koval.Server.Frames
import Koval.Server.Routes.HandlerLemmas
import Koval.Server.System

/-!
This module contains what the steps of the handlers leave as it is.
-/

namespace Koval

open Prog

variable {crates : Crates} {settings : Settings} {ambient : Ambient}

theorem moves_authenticate (rawToken : String) (now : DateTime) (limit : Nat)
    : Sql.Moves Db.Spares (authenticateAndRateLimit.go crates rawToken now limit) := by
  unfold authenticateAndRateLimit.go
  apply Sql.Moves.bind Db.Spares.trans (Sql.moves_query Db.spares_refl _ _)
  intro activeTokens
  split
  . exact Sql.moves_pure Db.spares_refl _
  . split
    . exact Sql.moves_pure Db.spares_refl _
    . apply Sql.Moves.bind Db.Spares.trans (Db.moves_pruneRateLimits _)
      intro _
      apply Sql.Moves.bind Db.Spares.trans (Sql.moves_query Db.spares_refl _ _)
      intro currentRequests
      split
      . exact Sql.moves_pure Db.spares_refl _
      . apply Sql.Moves.bind Db.Spares.trans (Db.moves_incrementRateLimit _ _)
        intro _
        exact Sql.moves_pure Db.spares_refl _

theorem spares_authenticateAndRateLimit (rawToken : String) (now : DateTime) (limit : Nat)
    (faults : Faults Stmt) (db : Db)
    : db.Spares (authenticateAndRateLimit crates rawToken now limit faults db).snd := by
  have h := @moves_authenticate crates rawToken now limit faults db
  unfold authenticateAndRateLimit
  split
  . next hrun =>
    rw [hrun] at h
    exact h
  . next hrun =>
    rw [hrun] at h
    exact h

theorem still_authenticateAndRateLimit (tokenStr : String) (s : State)
    : Still s { s with
        db := (authenticateAndRateLimit crates tokenStr ambient.now settings.rateLimitLimit
          (ambient.faults 0) s.db).snd } := by
  have := @jobView_authenticateAndRateLimit crates tokenStr ambient.now settings.rateLimitLimit
    (ambient.faults 0) s.db
  simp only [Db.jobView, Prod.mk.injEq] at this
  refine ⟨⟨spares_authenticateAndRateLimit _ _ _ _ _, rfl⟩, ?_⟩
  simp only [State.core, this]

theorem still_authenticate (refuse : AuthError → Response)
    : Always Still (authenticate crates settings ambient refuse).run := by
  unfold authenticate
  split
  . exact always_throw _
  . apply Always.bindExcept
    . apply Always.liftExcept
      apply always_atomic
      intro s
      exact still_authenticateAndRateLimit _ s
    . intro res
      split
      . exact always_pure _
      . exact always_throw _

theorem follows_authenticate {φ : Type} {trans : φ → State → φ → State → Prop} {phase : φ}
    {early : φ → Response → Prop} {refuse : AuthError → Response}
    (hstill : ∀ s s', Still s s' → trans phase s phase s')
    (hmissing : early phase (.text .unauthorized "Missing or invalid authorization header"))
    (hrefuse : ∀ err, early phase (refuse err))
    : Follows trans (Until (fun phase' _ => phase' = phase) early)
        (authenticate crates settings ambient refuse).run phase := by
  unfold authenticate
  split
  . exact follows_pure hmissing
  . apply Follows.bindExcept (m := fun phase' _ => phase' = phase)
    . apply Follows.liftExcept
      apply follows_atomic
      intro s
      exact ⟨phase, hstill _ _ (still_authenticateAndRateLimit _ s), rfl⟩
    . rintro res _ rfl
      split
      . exact follows_pure (by rfl)
      . exact follows_pure (hrefuse _)

theorem still_exists? (path : Path) : Always Still (exists? path) := by
  apply always_atomic
  intro s
  exact ⟨spares_refl s, rfl⟩

theorem still_readFile (path : Path) : Always Still (readFile ambient path) := by
  apply always_atomic
  intro s
  split <;> exact ⟨spares_refl s, rfl⟩

-- The handlers that submit nothing

theorem still_statusHandler (jobId : String)
    : Always Still (statusHandler crates settings ambient jobId).run := by
  unfold statusHandler
  apply Always.bindExcept (still_authenticate _)
  intro _
  apply Always.bindExcept (still_reading (Db.keeps_getJobStatus _ _) _).liftExcept
  intro res
  split
  . split
    . apply Always.bindExcept (still_reading (Db.keeps_getArtifact _ _) _).liftExcept
      intro res
      split <;> exact always_pure _
    . exact always_pure _
  . exact always_throw _
  . exact always_throw _

theorem still_binaryHandler (jobId : String)
    : Always Still (binaryHandler crates settings ambient jobId).run := by
  unfold binaryHandler
  apply Always.bindExcept (still_authenticate _)
  intro _
  apply Always.bindExcept (still_reading (Db.keeps_getArtifact _ _) _).liftExcept
  intro res
  split
  . exact always_throw _
  . exact always_throw _
  . apply Always.bindExcept (still_exists? _).liftExcept
    intro doesExist
    split
    . exact always_throw _
    . apply Always.bindExcept (still_readFile _).liftExcept
      intro content
      split
      . exact always_throw _
      . exact always_pure _

theorem still_listJobsHandler : Always Still (listJobsHandler crates settings ambient).run := by
  unfold listJobsHandler
  apply Always.bindExcept (still_authenticate _)
  intro _
  apply Always.bindExcept (still_reading (Sql.keeps_query _ _ _) _).liftExcept
  intro res
  split
  . exact always_pure _
  . exact always_throw _

theorem still_registerWebhookHandler (payload : WebhookRequest)
    : Always Still (registerWebhookHandler crates settings ambient payload).run := by
  unfold registerWebhookHandler
  apply Always.bindExcept (still_authenticate _)
  intro _
  apply Always.bindExcept
    (still_lockDb (Db.keeps_insertWebhook _ _ _ _) (Db.moves_insertWebhook _ _ _ _) _).liftExcept
  intro res
  split
  . exact always_pure _
  . exact always_throw _

theorem still_listWebhooksHandler
    : Always Still (listWebhooksHandler crates settings ambient).run := by
  unfold listWebhooksHandler
  apply Always.bindExcept (still_authenticate _)
  intro _
  apply Always.bindExcept (still_reading (Sql.keeps_query _ _ _) _).liftExcept
  intro res
  split
  . exact always_pure _
  . exact always_throw _

theorem still_deleteWebhookHandler (id : Int)
    : Always Still (deleteWebhookHandler crates settings ambient id).run := by
  unfold deleteWebhookHandler
  apply Always.bindExcept (still_authenticate _)
  intro _
  apply Always.bindExcept
    (still_lockDb (Db.keeps_deactivateWebhook _ _) (Db.moves_deactivateWebhook _ _) _).liftExcept
  intro res
  split
  . exact always_pure _
  . exact always_throw _
  . exact always_throw _

theorem still_authenticateAdmin : Always Still (authenticateAdmin crates settings ambient).run := by
  unfold authenticateAdmin
  apply Always.bindExcept (still_authenticate _)
  rintro ⟨tokenStr, token⟩
  dsimp only
  split
  . exact always_throw _
  . exact always_pure _

theorem still_listTokensHandler : Always Still (listTokensHandler crates settings ambient).run := by
  unfold listTokensHandler
  apply Always.bindExcept still_authenticateAdmin
  intro _
  apply Always.bindExcept (still_reading (Sql.keeps_query _ _ _) _).liftExcept
  intro res
  split
  . exact always_pure _
  . exact always_throw _

theorem still_getMergedProfileHandler (instrumentJobId : String)
    : Always Still (getMergedProfileHandler crates settings ambient instrumentJobId).run := by
  unfold getMergedProfileHandler
  apply Always.bindExcept (still_authenticate _)
  intro _
  apply Always.bindExcept (still_reading (Sql.keeps_query _ _ _) _).liftExcept
  intro res
  split
  . apply Always.bindExcept (still_reading (Sql.keeps_query _ _ _) _).liftExcept
    intro res
    split
    . split
      . exact always_throw _
      . split
        . exact always_throw _
        . apply Always.bindExcept (still_exists? _).liftExcept
          intro doesExist
          split
          . exact always_throw _
          . apply Always.bindExcept (still_readFile _).liftExcept
            intro content
            split
            . exact always_pure _
            . exact always_throw _
    . exact always_throw _
  . exact always_throw _

/-- How a thread may change the tokens. -/
inductive TokensMove (crates : Crates) : Label → Db → Db → Prop where
  | stay {label : Label} {db db' : Db} (htokens : db'.tokens = db.tokens)
    (hlast : db'.lastTokenId = db.lastTokenId) : TokensMove crates label db db'
  | insert {payload : TokenRequest} {ambient : Ambient} {tokenHash createdAt : String} {db db' : Db}
    (hhash : crates.bcryptHash ambient.salt ambient.uuid = .ok tokenHash)
    (hinsert : db.tokens.insert? ⟨db.lastTokenId + 1, tokenHash, payload.name, createdAt, true⟩
      = some db'.tokens)
    (hlast : db'.lastTokenId = db.lastTokenId + 1) :
    TokensMove crates (.handler (.createToken payload) ambient) db db'
  | revoke {id : Int} {ambient : Ambient} {db db' : Db}
    (htokens : db'.tokens = db.tokens.updateKey id (fun row => { row with isActive := false })
      (by intro row; rfl))
    (hlast : db'.lastTokenId = db.lastTokenId) :
    TokensMove crates (.handler (.deleteToken id) ambient) db db'

def Label.isUpload (label : Label) : Bool :=
  match label with
  | handler (.uploadProfiles _ _) _ => true
  | _ => false

def Grow (profiles profiles' : Table PgoProfileRow.instrumentJobId) : Prop :=
  ∀ id row, profiles.find? id = some row →
    ∃ row', profiles'.find? id = some row' ∧ (row.mergedPath.isSome → row'.mergedPath.isSome)

/-- What a step of the thread may change, apart from the rest of the jobs and the webhooks. -/
structure Deed (crates : Crates) (label : Label) (s s' : State) : Prop where
  tokens : TokensMove crates label s.db s'.db
  rates : ∀ row ∈ s'.db.rateLimit.rows,
    (∃ row' ∈ s.db.rateLimit.rows, row'.tokenId = row.tokenId) ∨ s.db.tokens.contains row.tokenId
  pgoProfiles : Grow s.db.pgoProfiles s'.db.pgoProfiles
  optimizes : label.isUpload = false → ∀ row ∈ s'.db.jobs.rows, row.jobType = .pgoOptimize →
    ∃ row' ∈ s.db.jobs.rows, row'.submitted = row.submitted
  artifacts : label.isWorker = false → s'.db.artifacts = s.db.artifacts
  buildCache : label.isWorker = false → s'.db.buildCache = s.db.buildCache
  deliveries : label.isWorker = false → s'.deliveries = s.deliveries
  counts : s.db.CountsWebhooks → s'.db.CountsWebhooks

theorem grow_refl (profiles : Table PgoProfileRow.instrumentJobId) : Grow profiles profiles :=
  fun _ row hrow => ⟨row, hrow, id⟩

theorem Spares.deed {s s' : State} (h : Spares s s') (label : Label) : Deed crates label s s' where
  tokens := .stay h.db.tokens h.db.lastTokenId
  rates := h.db.rates
  pgoProfiles := by
    rw [h.db.pgoProfiles]
    exact grow_refl _
  optimizes _ := h.db.optimizes
  artifacts _ := h.db.artifacts
  buildCache _ := h.db.buildCache
  deliveries _ := h.deliveries
  counts := h.db.counts

theorem deed_of_spares {α : Type} {prog : Prog State α} {label : Label} (h : Always Spares prog)
    : Always (Deed crates label) prog :=
  h.mono fun _ _ h => h.deed label

theorem deed_of_still {α : Type} {prog : Prog State α} {label : Label} (h : Always Still prog)
    : Always (Deed crates label) prog :=
  h.mono fun _ _ h => h.toSpares.deed label

-- The handlers that submit a job

theorem spares_enqueue (job : Job) : Always Spares (enqueue job) := by
  apply always_atomic
  intro s
  dsimp only
  split <;> exact ⟨s.db.spares_refl, rfl⟩

theorem spares_cacheLookup (tuple : BuildTuple) : Always Spares (cacheLookup crates ambient tuple) := by
  apply always_atomic
  intro s
  have h := spares_runDb (moves_reading (cacheLookup.keeps_go id (tuple.cacheKey crates)))
    (ambient.faults 1) s
  split
  . next hrun =>
    rw [hrun] at h
    split <;> exact ⟨h.db, h.deliveries⟩
  . next hrun =>
    rw [hrun] at h
    exact h

theorem deed_recordJob {label : Label} {job : Job}
    (h : label.isUpload = false → job.jobType ≠ .pgoOptimize) (faults : Faults Stmt)
    (queuedAt : String)
    : Always (Deed crates label) (recordJob crates faults job queuedAt) := by
  apply always_atomic
  intro s
  dsimp only
  cases hrun : s.runDb faults (Db.insertJob crates job.id job.tokenId job.project job.gitRef
      job.hardware queuedAt job.jobType job.pgoSourceJobId) with
  | mk res s' =>
    have ⟨hdb, hs⟩ := run_of_runDb hrun
    have hrefl : Deed crates label s s := (spares_refl s).deed label
    rcases run_insertJob_cases hdb with ⟨rfl, jobs, hinsert, hdb'⟩ | ⟨err, rfl, hdb'⟩
    . dsimp only
      rw [hs, hdb']
      refine { hrefl with tokens := .stay rfl rfl, optimizes := ?_ }
      intro hupload row hrow htype
      change row ∈ jobs.rows at hrow
      rw [Table.rows_of_insert? hinsert, List.mem_append, List.mem_singleton] at hrow
      rcases hrow with hrow | rfl
      . exact ⟨row, hrow, rfl⟩
      . exact absurd htype (h hupload)
    . dsimp only
      rw [hs, hdb']
      exact hrefl

theorem deed_submit {label : Label} {job : Job}
    (h : label.isUpload = false → job.jobType ≠ .pgoOptimize) (scope : Nat)
    (queuedAt : DateTime) (insertError : String) (accept : String → Response)
    : Always (Deed crates label)
        (submit crates ambient scope job queuedAt insertError accept).run := by
  unfold submit
  apply Always.bindExcept (deed_recordJob h _ _).liftExcept
  intro res
  split
  . exact always_throw _
  . apply Always.bindExcept (deed_of_spares (spares_enqueue job)).liftExcept
    intro res
    split
    . exact always_pure _
    . apply Always.bindExcept
        (deed_of_spares (spares_lockDb (Db.moves_updateJobStatus _ _ _ _ _) _)).liftExcept
      intro _
      exact always_throw _
    . exact always_throw _

theorem deed_buildHandler (payload : JobRequest)
    : Always (Deed crates (.handler (.build payload) ambient))
        (buildHandler crates settings ambient payload).run := by
  unfold buildHandler
  apply Always.bindExcept (deed_of_still (still_authenticate _))
  rintro ⟨_, token⟩
  dsimp only
  split
  . exact always_throw _
  . next jobType hvalidate =>
    apply Always.bindExcept
    . unfold buildHandler.lookup
      split
      . exact (deed_of_spares (spares_cacheLookup _)).liftExcept
      . exact always_pure _
    . intro cached
      split
      . exact always_pure _
      . exact deed_submit (fun _ => buildHandler.jobType_of_validate hvalidate) _ _ _ _

theorem deed_forgeInstallHandler (params : ForgeInstallParams) (hardware : HardwareProfile)
    : Always (Deed crates (.handler (.forgeInstall params hardware) ambient))
        (forgeInstallHandler crates settings ambient params hardware).run := by
  unfold forgeInstallHandler
  apply Always.bindExcept (deed_of_still (still_authenticate _))
  rintro ⟨_, token⟩
  dsimp only
  split
  . exact always_throw _
  . apply Always.bindExcept (deed_of_spares (spares_cacheLookup _)).liftExcept
    intro cached
    split
    . exact always_pure _
    . exact deed_submit (by simp [ForgeInstallParams.job]) _ _ _ _

-- The handlers that change what the others leave

theorem still_saveParts (upload : Upload) (dir : Path) (parts : List Part) (filesSaved : Nat)
    : Always Still (uploadProfilesHandler.saveParts upload dir parts filesSaved).run := by
  induction parts generalizing filesSaved with
  | nil => exact always_pure _
  | cons part parts ih =>
    unfold uploadProfilesHandler.saveParts
    split
    . exact always_throw _
    . split
      . exact ih filesSaved
      . split
        . exact always_throw _
        . split
          . exact always_throw _
          . split
            . exact ih filesSaved
            . apply Always.bindExcept
              . apply always_atomicExcept
                intro s
                split <;> exact ⟨⟨s.db.spares_refl, rfl⟩, rfl⟩
              . intro _
                exact ih (filesSaved + 1)

theorem still_merge (upload : Upload) (dir mergedPath : Path)
    : Always Still (uploadProfilesHandler.merge upload dir mergedPath).run := by
  unfold uploadProfilesHandler.merge
  apply Always.bindExcept
  . apply always_atomicExcept
    intro s
    dsimp only
    split
    . exact ⟨spares_refl s, rfl⟩
    . split <;> exact ⟨spares_refl s, rfl⟩
  . intro cmd
    apply Always.bindExcept
    . apply Always.liftExcept
      apply always_atomic
      intro s
      dsimp only
      split <;> exact ⟨⟨s.db.spares_refl, rfl⟩, rfl⟩
    . intro _
      split
      . exact always_throw _
      . exact always_throw _
      . split
        . exact always_throw _
        . exact always_pure _

theorem grow_insert {profiles profiles' : Table PgoProfileRow.instrumentJobId} {row : PgoProfileRow}
    (h : profiles.insert? row = some profiles')
    : Grow profiles profiles' := by
  intro id old hold
  refine ⟨old, ?_, fun hsome => hsome⟩
  rw [Table.find?_of_insert? h, if_neg]
  . exact hold
  . rintro rfl
    have := Table.find?_fresh_of_insert? h
    rw [this] at hold
    contradiction

theorem deed_insertPgoProfile {label : Label} (dir : Path)
    (instrumentJobId profilesDir createdAt : String) (faults : Faults Stmt) (s : State)
    : Deed crates label s ((s.perform (.createDirAll dir)).runDb faults
        (Db.insertPgoProfile instrumentJobId profilesDir createdAt)).snd := by
  have hrefl : Deed crates label s s := (spares_refl s).deed label
  cases hrun : (s.perform (.createDirAll dir)).runDb faults
      (Db.insertPgoProfile instrumentJobId profilesDir createdAt) with
  | mk res s' =>
    have ⟨hdb, hs⟩ := run_of_runDb hrun
    rw [hs]
    rcases Sql.run_execute_cases hdb with ⟨_, hchange⟩ | ⟨err, _, hdb'⟩
    . rcases Db.inserted_eq_ok hchange with ⟨profiles, hinsert, hdb'⟩
      rw [hdb']
      exact { hrefl with tokens := .stay rfl rfl, pgoProfiles := grow_insert hinsert }
    . rw [hdb']
      exact { hrefl with tokens := .stay rfl rfl }

theorem always_profilesDir {R : State → State → Prop} (hrefl : ∀ s, R s s) {instrumentJobId : String}
    (hinsert : ∀ (dir : Path) (createdAt : String) (s : State),
      R s ((s.perform (.createDirAll dir)).runDb (ambient.faults 2)
        (Db.insertPgoProfile instrumentJobId dir.display createdAt)).snd)
    (upload : Upload)
    : Always R (uploadProfilesHandler.profilesDir settings ambient upload instrumentJobId).run := by
  apply always_atomicExcept
  intro s
  dsimp only
  have hget : (s.runDb (ambient.faults 2) (Db.getPgoProfile instrumentJobId)).snd = s :=
    runDb_query _ _ _ _
  split
  . next hrun =>
    rw [hrun] at hget
    rw [hget]
    exact hrefl s
  . next hrun =>
    rw [hrun] at hget
    rw [hget]
    exact hrefl s
  . next hrun =>
    rw [hrun] at hget
    dsimp only at hget
    rw [hget]
    split
    . exact hrefl s
    . have hinsert := hinsert
        ((settings.artifactsDir.join (.ofString "pgo_profiles")).join (.ofString instrumentJobId))
        ambient.now.toRfc3339 s
      split
      . next hrun =>
        rw [hrun] at hinsert
        exact hinsert
      . next hrun =>
        rw [hrun] at hinsert
        exact hinsert

theorem deed_profilesDir {label : Label} (instrumentJobId : String) (upload : Upload)
    : Always (Deed crates label)
        (uploadProfilesHandler.profilesDir settings ambient upload instrumentJobId).run := by
  apply always_profilesDir
  . intro s
    exact (spares_refl s).deed label
  . intro dir createdAt s
    exact deed_insertPgoProfile _ _ _ _ _ _

theorem deed_updatePgoMergedPath {label : Label} (instrumentJobId mergedPath : String)
    (faults : Faults Stmt)
    : Always (Deed crates label)
        (lockDb faults (Db.updatePgoMergedPath instrumentJobId mergedPath)) := by
  apply always_atomic
  intro s
  cases hrun : s.runDb faults (Db.updatePgoMergedPath instrumentJobId mergedPath) with
  | mk res s' =>
    have ⟨hdb, hs⟩ := run_of_runDb hrun
    have hrefl : Deed crates label s s := (spares_refl s).deed _
    rcases Sql.run_execute_cases hdb with ⟨_, hchange⟩ | ⟨err, _, hdb'⟩
    . injection hchange with hdb'
      rw [hs, ← hdb']
      refine { hrefl with tokens := .stay rfl rfl, pgoProfiles := ?_ }
      intro id row hrow
      dsimp only
      rw [Table.find?_updateKey]
      split
      . rw [hrow]
        exact ⟨_, rfl, fun _ => rfl⟩
      . exact ⟨row, hrow, fun hsome => hsome⟩
    . rw [hs, hdb']
      exact hrefl

theorem deed_uploadProfilesHandler (instrumentJobId : String) (upload : Upload)
    : Always (Deed crates (.handler (.uploadProfiles instrumentJobId upload) ambient))
        (uploadProfilesHandler crates settings ambient instrumentJobId upload).run := by
  unfold uploadProfilesHandler
  apply Always.bindExcept (deed_of_still (still_authenticate _))
  rintro ⟨_, token⟩
  apply Always.bindExcept (deed_of_still (still_reading (Sql.keeps_query _ _ _) _)).liftExcept
  intro res
  split
  . exact always_throw _
  . exact always_throw _
  . split
    . exact always_throw _
    . unfold uploadProfilesHandler.mergeAndSubmit
      apply Always.bindExcept (deed_profilesDir _ _)
      intro dir
      apply Always.bindExcept (deed_of_still (still_saveParts _ _ _ _))
      intro filesSaved
      split
      . exact always_throw _
      . apply Always.bindExcept (deed_of_still (still_merge _ _ _))
        intro _
        apply Always.bindExcept (deed_updatePgoMergedPath _ _ _).liftExcept
        intro res
        split
        . exact always_throw _
        . exact deed_submit (fun h => Bool.noConfusion h) _ _ _ _

theorem deed_createTokenHandler (payload : TokenRequest)
    : Always (Deed crates (.handler (.createToken payload) ambient))
        (createTokenHandler crates settings ambient payload).run := by
  unfold createTokenHandler
  apply Always.bindExcept (deed_of_still still_authenticateAdmin)
  intro _
  dsimp only
  split
  . exact always_throw _
  . next tokenHash hhash =>
    apply Always.bindExcept
    . apply Always.liftExcept
      apply always_atomic
      intro s
      cases hrun : s.runDb (ambient.faults 1)
          (Db.insertToken tokenHash payload.name ambient.now.toRfc3339) with
      | mk res s' =>
        have ⟨hdb, hs⟩ := run_of_runDb hrun
        have hrefl : Deed crates (.handler (.createToken payload) ambient) s s :=
          (spares_refl s).deed _
        rcases Db.run_insertToken_cases hdb with ⟨tokens, hinsert, hdb'⟩ | ⟨err, _, hdb'⟩
        . rw [hs, hdb']
          exact { hrefl with tokens := .insert hhash hinsert rfl }
        . rw [hs, hdb']
          exact hrefl
    . intro res
      split
      . exact always_pure _
      . exact always_throw _

theorem deed_deleteTokenHandler (id : Int)
    : Always (Deed crates (.handler (.deleteToken id) ambient))
        (deleteTokenHandler crates settings ambient id).run := by
  unfold deleteTokenHandler
  apply Always.bindExcept (deed_of_still still_authenticateAdmin)
  intro _
  apply Always.bindExcept
  . apply Always.liftExcept
    apply always_atomic
    intro s
    cases hrun : s.runDb (ambient.faults 1) (Db.revokeToken id) with
    | mk res s' =>
      have ⟨hdb, hs⟩ := run_of_runDb hrun
      have hrefl : Deed crates (.handler (.deleteToken id) ambient) s s := (spares_refl s).deed _
      rcases Sql.run_execute_cases hdb with ⟨_, hchange⟩ | ⟨err, _, hdb'⟩
      . injection hchange with hdb'
        rw [hs, ← hdb']
        exact { hrefl with tokens := .revoke rfl rfl }
      . rw [hs, hdb']
        exact hrefl
  . intro res
    split
    . exact always_pure _
    . exact always_throw _

theorem deed_route (request : Request)
    : Always (Deed crates (.handler request ambient)) (route crates settings request ambient).run := by
  cases request with
  | build payload => exact deed_buildHandler payload
  | forgeInstall params hardware => exact deed_forgeInstallHandler params hardware
  | uploadProfiles id upload => exact deed_uploadProfilesHandler id upload
  | getMergedProfile id => exact deed_of_still (still_getMergedProfileHandler id)
  | status jobId => exact deed_of_still (still_statusHandler jobId)
  | binary jobId => exact deed_of_still (still_binaryHandler jobId)
  | listJobs => exact deed_of_still still_listJobsHandler
  | registerWebhook payload => exact deed_of_still (still_registerWebhookHandler payload)
  | listWebhooks => exact deed_of_still still_listWebhooksHandler
  | deleteWebhook id => exact deed_of_still (still_deleteWebhookHandler id)
  | createToken payload => exact deed_createTokenHandler payload
  | listTokens => exact deed_of_still still_listTokensHandler
  | deleteToken id => exact deed_deleteTokenHandler id

theorem always_handler {R : State → State → Prop} {handler : Handler Response}
    (h : Always R handler.run)
    : Always R (do let response ← handler.respond
                   pure (Answer.response response)) := by
  apply Always.bind
  . apply Always.bind h
    intro res
    split <;> exact always_pure _
  . intro response
    exact always_pure _

end Koval
