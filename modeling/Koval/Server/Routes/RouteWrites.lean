import Koval.Server.Writes
import Koval.Server.Routes.Confined
import Koval.Server.Routes.RouteFrames

/-!
This module contains what the steps of the handlers write, into the database and into files.
-/

namespace Koval

open Prog

variable {crates : Crates} {settings : Settings} {ambient : Ambient}

def Path.IsArchive (path : Path) : Prop := Path.ofString ".tar.gz" <:+ path

structure Handles (crates : Crates) (settings : Settings) (s s' : State) : Prop where
  writes : s.db.Writes crates settings s'.db
  archives : ∀ path, Path.IsArchive path → s'.files.find? path = s.files.find? path

theorem handles_of_eq {s s' : State} (hdb : s'.db = s.db) (hfiles : s'.files = s.files)
    : Handles crates settings s s' where
  writes := Db.writes_of_eq hdb
  archives := by
    intro path _
    rw [hfiles]

theorem handles_of_files_eq {s s' : State} (hwrites : s.db.Writes crates settings s'.db)
    (hfiles : s'.files = s.files)
    : Handles crates settings s s' where
  writes := hwrites
  archives := by
    intro path _
    rw [hfiles]

theorem handles_write {suf : Path} {dir name : Path} (hname : Path.IsName name)
    (hsuffix : suf <:+ name) (hsuf : suf.getLast?.any (· ≠ 122)) {s s' : State}
    (hdb : s'.db = s.db) {data : Bytes}
    (hfiles : s'.files = s.files.replace ⟨dir.join name, data⟩)
    : Handles crates settings s s' where
  writes := Db.writes_of_eq hdb
  archives := by
    rintro path harchive
    rw [hfiles, Table.find?_replace, if_neg]
    rintro rfl
    -- The last byte of an archive is a `z`.
    have hlast : (dir.join name).getLast? = some 122 := by
      rcases harchive with ⟨pre, hpre⟩
      have hpre : pre ++ Path.ofString ".tar.gz" = dir.join name := hpre
      rw [← hpre, List.getLast?_append]
      rfl
    rcases hsuffix with ⟨pre, rfl⟩
    rw [Path.join_eq_append hname, List.getLast?_append, List.getLast?_append] at hlast
    cases hsome : suf.getLast? with
    | none =>
      rw [hsome] at hsuf
      contradiction
    | some b =>
      rw [hsome] at hsuf hlast
      simp only [Option.some_or, Option.some.injEq] at hlast
      rw [hlast] at hsuf
      contradiction

theorem files_of_runDb {α : Type} {program : DbM α} {faults : Faults Stmt} {s s' : State}
    {res : Except SqlError α} (h : s.runDb faults program = (res, s'))
    : s'.files = s.files := (congrArg State.files (run_of_runDb h).right).trans rfl

theorem handles_lockDb {α : Type} {program : DbM α}
    (h : Sql.Moves (Db.Writes crates settings) program) (faults : Faults Stmt)
    : Always (Handles crates settings) (lockDb faults program) := by
  apply always_atomic
  intro s
  exact handles_of_files_eq (h faults s.db) rfl

theorem handles_reading {α : Type} {program : DbM α} (h : Sql.Keeps id program)
    (faults : Faults Stmt)
    : Always (Handles crates settings) (lockDb faults program) := by
  apply handles_lockDb
  intro faults db
  exact Db.writes_of_eq (h faults db)

theorem handles_query {α : Type} (tag : Stmt) (select : Db → α) (faults : Faults Stmt)
    : Always (Handles crates settings) (lockDb faults (Sql.query tag select)) :=
  handles_reading (Sql.keeps_query id tag select) faults

theorem writes_authenticateAndRateLimit (rawToken : String) (now : DateTime) (limit : Nat)
    (faults : Faults Stmt) (db : Db)
    : db.Writes crates settings
        (authenticateAndRateLimit crates rawToken now limit faults db).snd := by
  have h := @Db.writes_authenticate crates settings rawToken now limit faults db
  unfold authenticateAndRateLimit
  split
  . next hrun =>
    rw [hrun] at h
    exact h
  . next hrun =>
    rw [hrun] at h
    exact h

theorem handles_of_authenticate (refuse : AuthError → Response)
    : Always (Handles crates settings) (authenticate crates settings ambient refuse).run := by
  unfold authenticate
  split
  . exact always_throw _
  . apply Always.bindExcept
    . apply Always.liftExcept
      apply always_atomic
      intro s
      exact handles_of_files_eq (writes_authenticateAndRateLimit _ _ _ _ _) rfl
    . intro res
      split
      . exact always_pure _
      . exact always_throw _

theorem handles_of_authenticateAdmin
    : Always (Handles crates settings) (authenticateAdmin crates settings ambient).run := by
  unfold authenticateAdmin
  apply Always.bindExcept (handles_of_authenticate _)
  rintro ⟨tokenStr, token⟩
  dsimp only
  split
  . exact always_throw _
  . exact always_pure _

theorem handles_exists? (path : Path) : Always (Handles crates settings) (exists? path) := by
  apply always_atomic
  intro s
  exact handles_of_eq rfl rfl

theorem handles_readFile (path : Path) : Always (Handles crates settings) (readFile ambient path) := by
  apply always_atomic
  intro s
  split <;> exact handles_of_eq rfl rfl

-- The handlers that submit a job

theorem handles_cacheLookup (tuple : BuildTuple)
    : Always (Handles crates settings) (cacheLookup crates ambient tuple) := by
  apply always_atomic
  intro s
  have h : ((cacheLookup.go (tuple.cacheKey crates)).run (ambient.faults 1) s.db).snd = s.db :=
    cacheLookup.keeps_go id (tuple.cacheKey crates) (ambient.faults 1) s.db
  split
  . next hrun =>
    have ⟨hdb, _⟩ := run_of_runDb hrun
    rw [hdb] at h
    have hfiles := files_of_runDb hrun
    split <;> exact handles_of_eq h hfiles
  . next hrun =>
    have ⟨hdb, _⟩ := run_of_runDb hrun
    rw [hdb] at h
    exact handles_of_eq h (files_of_runDb hrun)

theorem handles_recordJob (job : Job) (faults : Faults Stmt) (queuedAt : DateTime)
    : Always (Handles crates settings) (recordJob crates faults job queuedAt.toRfc3339) := by
  apply always_atomic
  intro s
  have h := @Db.writes_insertJob crates settings job queuedAt faults s.db
  dsimp only
  cases hrun : s.runDb faults (Db.insertJob crates job.id job.tokenId job.project job.gitRef
      job.hardware queuedAt.toRfc3339 job.jobType job.pgoSourceJobId) with
  | mk res s' =>
    have ⟨hdb, _⟩ := run_of_runDb hrun
    have hfiles := files_of_runDb hrun
    rw [hdb] at h
    cases res with
    | ok _ => exact handles_of_files_eq h hfiles
    | error err => exact handles_of_files_eq h hfiles

theorem handles_enqueue (job : Job) : Always (Handles crates settings) (enqueue job) := by
  apply always_atomic
  intro s
  dsimp only
  split <;> exact handles_of_eq rfl rfl

theorem handles_submit (scope : Nat) (job : Job) (queuedAt : DateTime) (insertError : String)
    (accept : String → Response)
    : Always (Handles crates settings)
        (submit crates ambient scope job queuedAt insertError accept).run := by
  unfold submit
  apply Always.bindExcept (handles_recordJob job _ queuedAt).liftExcept
  intro res
  split
  . exact always_throw _
  . apply Always.bindExcept (handles_enqueue job).liftExcept
    intro res
    split
    . exact always_pure _
    . apply Always.bindExcept
        (handles_lockDb (Db.writes_updateJobStatus _ _ _ Db.isTime_none (Db.isTime_some _))
          _).liftExcept
      intro _
      exact always_throw _
    . exact always_throw _

theorem handles_buildHandler (payload : JobRequest)
    : Always (Handles crates settings) (buildHandler crates settings ambient payload).run := by
  unfold buildHandler
  apply Always.bindExcept (handles_of_authenticate _)
  rintro ⟨_, token⟩
  dsimp only
  split
  . exact always_throw _
  . apply Always.bindExcept
    . unfold buildHandler.lookup
      split
      . exact (handles_cacheLookup _).liftExcept
      . exact always_pure _
    . intro cached
      split
      . exact always_pure _
      . exact handles_submit _ _ _ _ _

theorem handles_forgeInstallHandler (params : ForgeInstallParams) (hardware : HardwareProfile)
    : Always (Handles crates settings)
        (forgeInstallHandler crates settings ambient params hardware).run := by
  unfold forgeInstallHandler
  apply Always.bindExcept (handles_of_authenticate _)
  rintro ⟨_, token⟩
  dsimp only
  split
  . exact always_throw _
  . apply Always.bindExcept (handles_cacheLookup _).liftExcept
    intro cached
    split
    . exact always_pure _
    . exact handles_submit _ _ _ _ _

-- The upload of profiles

theorem handles_profilesDir (instrumentJobId : String) (upload : Upload)
    : Always (Handles crates settings)
        (uploadProfilesHandler.profilesDir settings ambient upload instrumentJobId).run := by
  apply always_atomicExcept
  intro s
  dsimp only
  have hget : (s.runDb (ambient.faults 2) (Db.getPgoProfile instrumentJobId)).snd = s :=
    runDb_query _ _ _ _
  split
  . next hrun =>
    rw [hrun] at hget
    exact handles_of_eq (congrArg State.db hget) (congrArg State.files hget)
  . next hrun =>
    rw [hrun] at hget
    exact handles_of_eq (congrArg State.db hget) (congrArg State.files hget)
  . next hrun =>
    rw [hrun] at hget
    dsimp only at hget
    rw [hget]
    split
    . exact handles_of_eq rfl rfl
    . have h := @Db.writes_insertPgoProfile crates settings instrumentJobId ambient.now
        (ambient.faults 2) s.db
      split
      . next hrun =>
        have ⟨hdb, _⟩ := run_of_runDb hrun
        have hfiles := files_of_runDb hrun
        rw [show (Db.insertPgoProfile instrumentJobId
          (Db.profilesDir settings instrumentJobId).display ambient.now.toRfc3339).run
            (ambient.faults 2) s.db = _ from hdb] at h
        exact handles_of_files_eq h hfiles
      . next hrun =>
        have ⟨hdb, _⟩ := run_of_runDb hrun
        have hfiles := files_of_runDb hrun
        rw [show (Db.insertPgoProfile instrumentJobId
          (Db.profilesDir settings instrumentJobId).display ambient.now.toRfc3339).run
            (ambient.faults 2) s.db = _ from hdb] at h
        exact handles_of_files_eq h hfiles

theorem handles_saveParts (upload : Upload) (dir : Path) (parts : List Part) (filesSaved : Nat)
    : Always (Handles crates settings)
        (uploadProfilesHandler.saveParts upload dir parts filesSaved).run := by
  induction parts generalizing filesSaved with
  | nil => exact always_pure _
  | cons part parts ih =>
    unfold uploadProfilesHandler.saveParts
    split
    . exact always_throw _
    . split
      . exact ih filesSaved
      . split
        . exact always_throw _
        . next hends =>
          split
          . exact always_throw _
          . rcases uploadProfilesHandler.exists_cleanName (by simpa using hends) with ⟨name, hclean, hname, hsuffix⟩
            rw [hclean]
            apply Always.bindExcept
            . apply always_atomicExcept
              intro s
              split
              . exact handles_of_eq rfl rfl
              . exact handles_write hname hsuffix (by decide) rfl rfl
            . intro _
              exact ih (filesSaved + 1)

theorem handles_merge (upload : Upload) (dir : Path)
    : Always (Handles crates settings)
        (uploadProfilesHandler.merge upload dir (dir.join (.ofString "merged.profdata"))).run := by
  unfold uploadProfilesHandler.merge
  apply Always.bindExcept
  . apply always_atomicExcept
    intro s
    dsimp only
    split
    . exact handles_of_eq rfl rfl
    . split <;> exact handles_of_eq rfl rfl
  . intro cmd
    apply Always.bindExcept
    . apply Always.liftExcept
      apply always_atomic
      intro s
      dsimp only
      split
      . exact handles_write uploadProfilesHandler.isName_mergedProfdata (List.suffix_refl _)
          (by decide) rfl rfl
      . exact handles_of_eq rfl rfl
    . intro _
      split
      . exact always_throw _
      . exact always_throw _
      . split
        . exact always_throw _
        . exact always_pure _

theorem handles_uploadProfilesHandler (instrumentJobId : String) (upload : Upload)
    : Always (Handles crates settings)
        (uploadProfilesHandler crates settings ambient instrumentJobId upload).run := by
  unfold uploadProfilesHandler
  apply Always.bindExcept (handles_of_authenticate _)
  rintro ⟨_, token⟩
  apply Always.bindExcept (handles_query _ _ _).liftExcept
  intro res
  split
  . exact always_throw _
  . exact always_throw _
  . split
    . exact always_throw _
    . unfold uploadProfilesHandler.mergeAndSubmit
      apply Always.bindExcept (handles_profilesDir _ _)
      intro dir
      apply Always.bindExcept (handles_saveParts _ _ _ _)
      intro filesSaved
      split
      . exact always_throw _
      . apply Always.bindExcept (handles_merge _ _)
        intro _
        apply Always.bindExcept (handles_lockDb (Db.writes_updatePgoMergedPath _ _) _).liftExcept
        intro res
        split
        . exact always_throw _
        . exact handles_submit _ _ _ _ _

theorem handles_getMergedProfileHandler (instrumentJobId : String)
    : Always (Handles crates settings)
        (getMergedProfileHandler crates settings ambient instrumentJobId).run := by
  unfold getMergedProfileHandler
  apply Always.bindExcept (handles_of_authenticate _)
  intro _
  apply Always.bindExcept (handles_query _ _ _).liftExcept
  intro res
  split
  . apply Always.bindExcept (handles_query _ _ _).liftExcept
    intro res
    split
    . split
      . exact always_throw _
      . split
        . exact always_throw _
        . apply Always.bindExcept (handles_exists? _).liftExcept
          intro doesExist
          split
          . exact always_throw _
          . apply Always.bindExcept (handles_readFile _).liftExcept
            intro content
            split
            . exact always_pure _
            . exact always_throw _
    . exact always_throw _
  . exact always_throw _

-- The other handlers

theorem handles_statusHandler (jobId : String)
    : Always (Handles crates settings) (statusHandler crates settings ambient jobId).run := by
  unfold statusHandler
  apply Always.bindExcept (handles_of_authenticate _)
  intro _
  apply Always.bindExcept (handles_reading (Db.keeps_getJobStatus _ _) _).liftExcept
  intro res
  split
  . split
    . apply Always.bindExcept (handles_reading (Db.keeps_getArtifact _ _) _).liftExcept
      intro res
      split <;> exact always_pure _
    . exact always_pure _
  . exact always_throw _
  . exact always_throw _

theorem handles_binaryHandler (jobId : String)
    : Always (Handles crates settings) (binaryHandler crates settings ambient jobId).run := by
  unfold binaryHandler
  apply Always.bindExcept (handles_of_authenticate _)
  intro _
  apply Always.bindExcept (handles_reading (Db.keeps_getArtifact _ _) _).liftExcept
  intro res
  split
  . exact always_throw _
  . exact always_throw _
  . apply Always.bindExcept (handles_exists? _).liftExcept
    intro doesExist
    split
    . exact always_throw _
    . apply Always.bindExcept (handles_readFile _).liftExcept
      intro content
      split
      . exact always_throw _
      . exact always_pure _

theorem handles_answer {α β : Type} {identify : Handler β} {program : β → DbM α}
    {next : Except SqlError α → Handler Response} {faults : Faults Stmt}
    (hidentify : Always (Handles crates settings) identify.run)
    (hprogram : ∀ b, Sql.Moves (Db.Writes crates settings) (program b))
    (hnext : ∀ res, Always (Handles crates settings) (next res).run)
    : Always (Handles crates settings)
        (do let b ← identify
            let res ← ExceptT.lift (lockDb faults (program b))
            next res).run := by
  apply Always.bindExcept hidentify
  intro b
  apply Always.bindExcept (handles_lockDb (hprogram b) _).liftExcept
  exact hnext

theorem handles_listJobsHandler
    : Always (Handles crates settings) (listJobsHandler crates settings ambient).run := by
  apply handles_answer (handles_of_authenticate _)
  . intro _
    exact Db.writes_query _ _
  . intro res
    split
    . exact always_pure _
    . exact always_throw _

theorem handles_registerWebhookHandler (payload : WebhookRequest)
    : Always (Handles crates settings)
        (registerWebhookHandler crates settings ambient payload).run := by
  apply handles_answer (handles_of_authenticate _)
  . intro _
    exact Db.writes_insertWebhook _ _ _ _
  . intro res
    split
    . exact always_pure _
    . exact always_throw _

theorem handles_listWebhooksHandler
    : Always (Handles crates settings) (listWebhooksHandler crates settings ambient).run := by
  apply handles_answer (handles_of_authenticate _)
  . intro _
    exact Db.writes_query _ _
  . intro res
    split
    . exact always_pure _
    . exact always_throw _

theorem handles_deleteWebhookHandler (id : Int)
    : Always (Handles crates settings) (deleteWebhookHandler crates settings ambient id).run := by
  apply handles_answer (handles_of_authenticate _)
  . intro _
    exact Db.writes_deactivateWebhook _ _
  . intro res
    split
    . exact always_pure _
    . exact always_throw _
    . exact always_throw _

theorem handles_listTokensHandler
    : Always (Handles crates settings) (listTokensHandler crates settings ambient).run := by
  apply handles_answer handles_of_authenticateAdmin
  . intro _
    exact Db.writes_query _ _
  . intro res
    split
    . exact always_pure _
    . exact always_throw _

theorem handles_deleteTokenHandler (id : Int)
    : Always (Handles crates settings) (deleteTokenHandler crates settings ambient id).run := by
  apply handles_answer handles_of_authenticateAdmin
  . intro _
    exact Db.writes_revokeToken _
  . intro res
    split
    . exact always_pure _
    . exact always_throw _

theorem handles_createTokenHandler (payload : TokenRequest)
    : Always (Handles crates settings) (createTokenHandler crates settings ambient payload).run := by
  unfold createTokenHandler
  apply Always.bindExcept handles_of_authenticateAdmin
  intro _
  dsimp only
  split
  . exact always_throw _
  . next hhash =>
    apply Always.bindExcept (handles_lockDb (Db.writes_insertToken hhash _ _) _).liftExcept
    intro res
    split
    . exact always_pure _
    . exact always_throw _

theorem handles_route (request : Request)
    : Always (Handles crates settings) (route crates settings request ambient).run := by
  cases request with
  | build payload => exact handles_buildHandler payload
  | forgeInstall params hardware => exact handles_forgeInstallHandler params hardware
  | uploadProfiles id upload => exact handles_uploadProfilesHandler id upload
  | getMergedProfile id => exact handles_getMergedProfileHandler id
  | status jobId => exact handles_statusHandler jobId
  | binary jobId => exact handles_binaryHandler jobId
  | listJobs => exact handles_listJobsHandler
  | registerWebhook payload => exact handles_registerWebhookHandler payload
  | listWebhooks => exact handles_listWebhooksHandler
  | deleteWebhook id => exact handles_deleteWebhookHandler id
  | createToken payload => exact handles_createTokenHandler payload
  | listTokens => exact handles_listTokensHandler
  | deleteToken id => exact handles_deleteTokenHandler id

end Koval
