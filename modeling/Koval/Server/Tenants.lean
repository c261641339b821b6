import Koval.Server.Routes.Authenticated

/-!
This module contains the rows that belong to a token, and how the requests of other tokens leave them
as they are.
-/

namespace Koval

open Prog

/-- What the tables for webhooks, jobs and profiles hold. -/
structure TenantRows where
  webhooks : List WebhookRow
  jobs : List JobRow
  pgoProfiles : List PgoProfileRow
  deriving DecidableEq

namespace Db

def isJobOf (db : Db) (tokenId : Int) (id : String) : Bool :=
  db.jobs.rows.any fun row => row.tokenId = tokenId && row.id = id

def rowsOf (db : Db) (tokenId : Int) : TenantRows where
  webhooks := db.webhooks.rows.filter fun row => row.tokenId = tokenId
  jobs := db.jobs.rows.filter fun row => row.tokenId = tokenId
  pgoProfiles := db.pgoProfiles.rows.filter fun row => db.isJobOf tokenId row.instrumentJobId

-- Whatever fails, the rows of the token stay as they are, unless one of the jobs `ids` is the token's.
def Leaves (tokenId : Int) (ids : List String) (db db' : Db) : Prop :=
  (∀ id ∈ ids, db.isJobOf tokenId id = false) → db'.rowsOf tokenId = db.rowsOf tokenId

variable {db db' : Db} {tokenId : Int} {ids : List String}

theorem isJobOf_eq_any (db : Db) (tokenId : Int) (id : String)
    : db.isJobOf tokenId id = (db.rowsOf tokenId).jobs.any fun row => row.id = id := by
  unfold isJobOf rowsOf
  rw [List.any_filter]

theorem isJobOf_eq (db : Db) (tokenId : Int) (id : String)
    : db.isJobOf tokenId id = (db.jobs.find? id).any fun row => row.tokenId = tokenId := by
  rw [Bool.eq_iff_iff]
  unfold isJobOf
  simp only [List.any_eq_true, Option.any_eq_true, Bool.and_eq_true, decide_eq_true_eq]
  constructor
  . rintro ⟨row, hrow, howner, hid⟩
    exact ⟨row, Table.find?_eq_some_iff.mpr ⟨hrow, hid⟩, howner⟩
  . rintro ⟨row, hfind, howner⟩
    exact ⟨row, Table.mem_of_find? hfind, howner, Table.key_of_find? hfind⟩

theorem isJobOf_of_fresh {id : String} (h : db.jobs.contains id = false)
    : db.isJobOf tokenId id = false := by
  unfold Table.contains at h
  rw [Option.isSome_eq_false_iff, Option.isNone_iff_eq_none] at h
  rw [isJobOf_eq, h]
  rfl

theorem isJobOf_congr (h : db'.rowsOf tokenId = db.rowsOf tokenId) (id : String)
    : db'.isJobOf tokenId id = db.isJobOf tokenId id := by
  rw [isJobOf_eq_any, isJobOf_eq_any, h]

theorem leaves_refl (db : Db) : db.Leaves tokenId ids db := fun _ => rfl

theorem Leaves.trans (db db' db'' : Db) (h : db.Leaves tokenId ids db')
    (h' : db'.Leaves tokenId ids db'')
    : db.Leaves tokenId ids db'' := by
  intro hids
  have h := h hids
  refine (h' ?_).trans h
  intro id hid
  rw [isJobOf_congr h]
  exact hids id hid

theorem ne_of_isJobOf {id : String} (h : db.isJobOf tokenId id = false) {row : JobRow}
    (hrow : row ∈ db.jobs.rows) (hid : row.id = id)
    : row.tokenId ≠ tokenId := by
  unfold isJobOf at h
  rw [List.any_eq_false] at h
  intro howner
  apply h row hrow
  simp [howner, hid]

theorem isJobOf_with_jobs {jobs : Table JobRow.id}
    (h : jobs.rows.filter (fun row => row.tokenId = tokenId)
      = db.jobs.rows.filter fun row => row.tokenId = tokenId)
    : { db with jobs }.isJobOf tokenId = db.isJobOf tokenId := by
  funext id
  unfold isJobOf
  rw [← List.any_filter, ← List.any_filter]
  exact congrArg (List.any · _) h

theorem rowsOf_with_jobs {jobs : Table JobRow.id}
    (h : jobs.rows.filter (fun row => row.tokenId = tokenId)
      = db.jobs.rows.filter fun row => row.tokenId = tokenId)
    : { db with jobs }.rowsOf tokenId = db.rowsOf tokenId := by
  unfold rowsOf
  rw [isJobOf_with_jobs h, h]

theorem leaves_rateLimit (db : Db) (rateLimit : Table RateLimitRow.key)
    : db.Leaves tokenId ids { db with rateLimit } := fun _ => rfl

theorem leaves_insertWebhook {owner : Int} (howner : owner ≠ tokenId) (url secret createdAt : String)
    : Sql.Moves (Leaves tokenId ids) (insertWebhook owner url secret createdAt) := by
  apply Sql.Moves.bind Leaves.trans
  . apply Sql.moves_execute leaves_refl
    intro db db' hchange _
    rcases inserted_eq_ok hchange with ⟨webhooks, hinsert, rfl⟩
    unfold rowsOf
    dsimp only
    rw [Table.filter_of_insert? hinsert, decide_eq_false howner, if_neg Bool.false_ne_true,
      List.append_nil]
    rfl
  . intro _
    exact Sql.moves_query leaves_refl _ _

theorem leaves_deactivateWebhook {owner : Int} (howner : owner ≠ tokenId) (id : Int)
    : Sql.Moves (Leaves tokenId ids) (deactivateWebhook id owner) := by
  apply Sql.moves_execute leaves_refl
  intro db db' hchange _
  split at hchange
  . injection hchange with hchange
    rw [← hchange]
    unfold rowsOf
    dsimp only
    rw [Table.filter_updateKey_eq_self]
    . rfl
    . intro row
      split <;> rfl
    . intro row _ _ hkeep
      rw [decide_eq_true_eq] at hkeep
      rw [hkeep, if_neg (Ne.symm howner)]
  . contradiction

theorem leaves_insertJob {crates : Crates} {job : Job} (howner : job.tokenId ≠ tokenId)
    (queuedAt : String)
    : Sql.Moves (Leaves tokenId ids) (insertJob crates job.id job.tokenId job.project job.gitRef
        job.hardware queuedAt job.jobType job.pgoSourceJobId) := by
  apply Sql.moves_execute leaves_refl
  intro db db' hchange _
  rcases inserted_eq_ok hchange with ⟨jobs, hinsert, rfl⟩
  apply rowsOf_with_jobs
  rw [Table.filter_of_insert? hinsert, decide_eq_false howner, if_neg Bool.false_ne_true,
    List.append_nil]

theorem filter_updateJobStatus {id : String} (h : db.isJobOf tokenId id = false) (status : Status)
    (startedAt finishedAt errorMsg : Option String)
    : (db.jobs.updateKey id (JobRow.setStatus status startedAt finishedAt errorMsg)
          (JobRow.id_setStatus _ _ _ _)).rows.filter (fun row => row.tokenId = tokenId)
        =
      db.jobs.rows.filter fun row => row.tokenId = tokenId := by
  apply Table.filter_updateKey_eq_self
  . intro row
    rfl
  . intro row hrow hkey howner
    rw [decide_eq_true_eq] at howner
    exact absurd howner (ne_of_isJobOf h hrow hkey)

theorem leaves_updateJobStatus {id : String} (hid : id ∈ ids) (status : Status)
    (startedAt finishedAt errorMsg : Option String)
    : Sql.Moves (Leaves tokenId ids) (updateJobStatus id status startedAt finishedAt errorMsg) := by
  apply Sql.moves_execute leaves_refl
  intro db db' hchange hids
  injection hchange with hchange
  rw [← hchange]
  exact rowsOf_with_jobs (filter_updateJobStatus (hids id hid) _ _ _ _)

theorem leaves_insertPgoProfile {id : String} (hid : id ∈ ids) (profilesDir createdAt : String)
    : Sql.Moves (Leaves tokenId ids) (insertPgoProfile id profilesDir createdAt) := by
  apply Sql.moves_execute leaves_refl
  intro db db' hchange hids
  rcases inserted_eq_ok hchange with ⟨pgoProfiles, hinsert, rfl⟩
  unfold rowsOf
  dsimp only
  rw [Table.filter_of_insert? hinsert]
  change TenantRows.mk _ _ (_ ++ if db.isJobOf tokenId id then _ else _) = _
  rw [hids id hid, if_neg Bool.false_ne_true, List.append_nil]
  rfl

theorem leaves_updatePgoMergedPath {id : String} (hid : id ∈ ids) (mergedPath : String)
    : Sql.Moves (Leaves tokenId ids) (updatePgoMergedPath id mergedPath) := by
  apply Sql.moves_execute leaves_refl
  intro db db' hchange hids
  injection hchange with hchange
  rw [← hchange]
  unfold rowsOf
  dsimp only
  rw [Table.filter_updateKey_eq_self]
  . rfl
  . intro row
    rfl
  . intro row _ hkey howner
    change db.isJobOf tokenId row.instrumentJobId at howner
    rw [hkey, hids id hid] at howner
    contradiction

theorem leaves_insertToken (tokenHash name createdAt : String)
    : Sql.Moves (Leaves tokenId ids) (insertToken tokenHash name createdAt) := by
  apply Sql.Moves.bind Leaves.trans
  . apply Sql.moves_execute leaves_refl
    intro db db' hchange _
    dsimp only at hchange
    split at hchange
    . contradiction
    . rcases inserted_eq_ok hchange with ⟨tokens, _, rfl⟩
      rfl
  . intro _
    exact Sql.moves_query leaves_refl _ _

theorem leaves_revokeToken (id : Int) : Sql.Moves (Leaves tokenId ids) (revokeToken id) := by
  apply Sql.moves_execute leaves_refl
  intro db db' hchange _
  injection hchange with hchange
  rw [← hchange]
  rfl

end Db

variable {crates : Crates} {settings : Settings} {ambient : Ambient} {tokenId : Int}
  {ids : List String}

-- The handlers that only read

def ReadsOnly (s s' : State) : Prop := s'.db = { s.db with rateLimit := s'.db.rateLimit }

theorem readsOnly_of_db_eq {s s' : State} (h : s'.db = s.db) : ReadsOnly s s' := by
  unfold ReadsOnly
  rw [h]

theorem reads_authenticate (refuse : AuthError → Response)
    : Always ReadsOnly (authenticate crates settings ambient refuse).run := by
  unfold authenticate
  split
  . exact always_throw _
  . apply Always.bindExcept
    . apply Always.liftExcept
      apply always_atomic
      intro s
      exact authenticateAndRateLimit.db_eq s.db
    . intro res
      split
      . exact always_pure _
      . exact always_throw _

theorem reads_lockDb {α : Type} {program : DbM α} (h : Sql.Keeps id program) (faults : Faults Stmt)
    : Always ReadsOnly (lockDb faults program) := by
  apply always_atomic
  intro s
  exact readsOnly_of_db_eq (h faults s.db)

theorem reads_query {α : Type} (tag : Stmt) (select : Db → α) (faults : Faults Stmt)
    : Always ReadsOnly (lockDb faults (Sql.query tag select)) :=
  reads_lockDb (Sql.keeps_query _ _ _) faults

theorem reads_exists? (path : Path) : Always ReadsOnly (exists? path) := by
  apply always_atomic
  intro s
  exact readsOnly_of_db_eq rfl

theorem reads_readFile (path : Path) : Always ReadsOnly (readFile ambient path) := by
  apply always_atomic
  intro s
  split <;> exact readsOnly_of_db_eq rfl

theorem reads_statusHandler (jobId : String)
    : Always ReadsOnly (statusHandler crates settings ambient jobId).run := by
  unfold statusHandler
  apply Always.bindExcept (reads_authenticate _)
  intro _
  apply Always.bindExcept (reads_lockDb (Db.keeps_getJobStatus _ _) _).liftExcept
  intro res
  split
  . split
    . apply Always.bindExcept (reads_lockDb (Db.keeps_getArtifact _ _) _).liftExcept
      intro res
      split <;> exact always_pure _
    . exact always_pure _
  . exact always_throw _
  . exact always_throw _

theorem reads_binaryHandler (jobId : String)
    : Always ReadsOnly (binaryHandler crates settings ambient jobId).run := by
  unfold binaryHandler
  apply Always.bindExcept (reads_authenticate _)
  intro _
  apply Always.bindExcept (reads_lockDb (Db.keeps_getArtifact _ _) _).liftExcept
  intro res
  split
  . exact always_throw _
  . exact always_throw _
  . apply Always.bindExcept (reads_exists? _).liftExcept
    intro doesExist
    split
    . exact always_throw _
    . apply Always.bindExcept (reads_readFile _).liftExcept
      intro content
      split
      . exact always_throw _
      . exact always_pure _

theorem reads_listJobsHandler : Always ReadsOnly (listJobsHandler crates settings ambient).run := by
  unfold listJobsHandler
  apply Always.bindExcept (reads_authenticate _)
  intro _
  apply Always.bindExcept (reads_query _ _ _).liftExcept
  intro res
  split
  . exact always_pure _
  . exact always_throw _

theorem reads_listWebhooksHandler
    : Always ReadsOnly (listWebhooksHandler crates settings ambient).run := by
  unfold listWebhooksHandler
  apply Always.bindExcept (reads_authenticate _)
  intro _
  apply Always.bindExcept (reads_query _ _ _).liftExcept
  intro res
  split
  . exact always_pure _
  . exact always_throw _

theorem reads_authenticateAdmin
    : Always ReadsOnly (authenticateAdmin crates settings ambient).run := by
  unfold authenticateAdmin
  apply Always.bindExcept (reads_authenticate _)
  rintro ⟨tokenStr, token⟩
  dsimp only
  split
  . exact always_throw _
  . exact always_pure _

theorem reads_listTokensHandler
    : Always ReadsOnly (listTokensHandler crates settings ambient).run := by
  unfold listTokensHandler
  apply Always.bindExcept reads_authenticateAdmin
  intro _
  apply Always.bindExcept (reads_query _ _ _).liftExcept
  intro res
  split
  . exact always_pure _
  . exact always_throw _

theorem reads_getMergedProfileHandler (instrumentJobId : String)
    : Always ReadsOnly (getMergedProfileHandler crates settings ambient instrumentJobId).run := by
  unfold getMergedProfileHandler
  apply Always.bindExcept (reads_authenticate _)
  intro _
  apply Always.bindExcept (reads_query _ _ _).liftExcept
  intro res
  split
  . apply Always.bindExcept (reads_query _ _ _).liftExcept
    intro res
    split
    . split
      . exact always_throw _
      . split
        . exact always_throw _
        . apply Always.bindExcept (reads_exists? _).liftExcept
          intro doesExist
          split
          . exact always_throw _
          . apply Always.bindExcept (reads_readFile _).liftExcept
            intro content
            split
            . exact always_pure _
            . exact always_throw _
    . exact always_throw _
  . exact always_throw _

-- The handlers that write

def LeavesRows (tokenId : Int) (ids : List String) (s s' : State) : Prop :=
  s.db.Leaves tokenId ids s'.db

theorem leavesRows_of_readsOnly {s s' : State} (h : ReadsOnly s s') : LeavesRows tokenId ids s s' := by
  unfold ReadsOnly at h
  unfold LeavesRows
  rw [h]
  exact s.db.leaves_rateLimit _

theorem leaves_of_reads {α : Type} {prog : Prog State α} (h : Always ReadsOnly prog)
    : Always (LeavesRows tokenId ids) prog :=
  h.mono fun _ _ => leavesRows_of_readsOnly

theorem leaves_runDb {α : Type} {program : DbM α} (h : Sql.Moves (Db.Leaves tokenId ids) program)
    (faults : Faults Stmt) (s : State)
    : LeavesRows tokenId ids s (s.runDb faults program).snd := h faults s.db

theorem leaves_lockDb {α : Type} {program : DbM α} (h : Sql.Moves (Db.Leaves tokenId ids) program)
    (faults : Faults Stmt)
    : Always (LeavesRows tokenId ids) (lockDb faults program) :=
  always_atomic (leaves_runDb h faults)

theorem reads_cacheLookup (tuple : BuildTuple)
    : Always ReadsOnly (cacheLookup crates ambient tuple) := by
  apply always_atomic
  intro s
  have hdb : (s.runDb (ambient.faults 1) (cacheLookup.go (tuple.cacheKey crates))).snd.db = s.db :=
    cacheLookup.keeps_go id _ _ _
  apply readsOnly_of_db_eq
  split
  . next hrun =>
    rw [hrun] at hdb
    split <;> exact hdb
  . next hrun =>
    rw [hrun] at hdb
    exact hdb

theorem leaves_submit {job : Job} (howner : job.tokenId ≠ tokenId) (hid : job.id ∈ ids)
    (scope : Nat) (queuedAt : DateTime) (insertError : String) (accept : String → Response)
    : Always (LeavesRows tokenId ids)
        (submit crates ambient scope job queuedAt insertError accept).run := by
  unfold submit
  apply Always.bindExcept
  . apply Always.liftExcept
    apply always_atomic
    intro s
    have hinsert := @leaves_runDb tokenId ids _ _ (@Db.leaves_insertJob _ _ crates _ howner
      queuedAt.toRfc3339) (ambient.faults scope) s
    dsimp only
    split <;> exact hinsert
  . intro res
    split
    . exact always_throw _
    . apply Always.bindExcept
      . apply Always.liftExcept
        apply always_atomic
        intro s
        dsimp only
        split <;> exact s.db.leaves_refl
      . intro res
        split
        . exact always_pure _
        . apply Always.bindExcept
            (leaves_lockDb (Db.leaves_updateJobStatus hid _ _ _ _) _).liftExcept
          intro _
          exact always_throw _
        . exact always_throw _

theorem leaves_profilesDir {instrumentJobId : String} (hid : instrumentJobId ∈ ids) (upload : Upload)
    : Always (LeavesRows tokenId ids)
        (uploadProfilesHandler.profilesDir settings ambient upload instrumentJobId).run := by
  apply always_profilesDir
  . intro s
    exact s.db.leaves_refl
  . intro dir createdAt s
    exact leaves_runDb (Db.leaves_insertPgoProfile hid _ _) _ (s.perform (.createDirAll dir))

theorem reads_saveParts (upload : Upload) (dir : Path) (parts : List Part) (filesSaved : Nat)
    : Always ReadsOnly (uploadProfilesHandler.saveParts upload dir parts filesSaved).run := by
  induction parts generalizing filesSaved with
  | nil => exact always_pure _
  | cons part parts ih =>
    unfold uploadProfilesHandler.saveParts
    split
    . exact always_throw _
    . split
      . exact ih filesSaved
      . split
        . exact always_throw _
        . split
          . exact always_throw _
          . split
            . exact ih filesSaved
            . apply Always.bindExcept
              . apply always_atomicExcept
                intro s
                split <;> exact readsOnly_of_db_eq rfl
              . intro _
                exact ih (filesSaved + 1)

theorem reads_merge (upload : Upload) (dir mergedPath : Path)
    : Always ReadsOnly (uploadProfilesHandler.merge upload dir mergedPath).run := by
  unfold uploadProfilesHandler.merge
  apply Always.bindExcept
  . apply always_atomicExcept
    intro s
    dsimp only
    split
    . exact readsOnly_of_db_eq rfl
    . split <;> exact readsOnly_of_db_eq rfl
  . intro cmd
    apply Always.bindExcept
    . apply Always.liftExcept
      apply always_atomic
      intro s
      dsimp only
      split <;> exact readsOnly_of_db_eq rfl
    . intro _
      split
      . exact always_throw _
      . exact always_throw _
      . split
        . exact always_throw _
        . exact always_pure _

theorem leaves_mergeAndSubmit {instrumentJobId : String} (hid : instrumentJobId ∈ ids)
    (huuid : ambient.uuid ∈ ids) (upload : Upload) (jobDetails : Db.JobDetails) {owner : Int}
    (howner : owner ≠ tokenId)
    : Always (LeavesRows tokenId ids)
        (uploadProfilesHandler.mergeAndSubmit crates settings ambient upload instrumentJobId
          jobDetails owner).run := by
  unfold uploadProfilesHandler.mergeAndSubmit
  apply Always.bindExcept (leaves_profilesDir hid _)
  intro dir
  apply Always.bindExcept (leaves_of_reads (reads_saveParts _ _ _ _))
  intro filesSaved
  split
  . exact always_throw _
  . apply Always.bindExcept (leaves_of_reads (reads_merge _ _ _))
    intro _
    apply Always.bindExcept (leaves_lockDb (Db.leaves_updatePgoMergedPath hid _) _).liftExcept
    intro res
    split
    . exact always_throw _
    . exact leaves_submit howner huuid _ _ _ _

theorem leaves_createTokenHandler (payload : TokenRequest)
    : Always (LeavesRows tokenId ids) (createTokenHandler crates settings ambient payload).run := by
  unfold createTokenHandler
  apply Always.bindExcept (leaves_of_reads reads_authenticateAdmin)
  intro _
  dsimp only
  split
  . exact always_throw _
  . apply Always.bindExcept (leaves_lockDb (Db.leaves_insertToken _ _ _) _).liftExcept
    intro res
    split
    . exact always_pure _
    . exact always_throw _

theorem leaves_deleteTokenHandler (id : Int)
    : Always (LeavesRows tokenId ids) (deleteTokenHandler crates settings ambient id).run := by
  unfold deleteTokenHandler
  apply Always.bindExcept (leaves_of_reads reads_authenticateAdmin)
  intro _
  apply Always.bindExcept (leaves_lockDb (Db.leaves_revokeToken _) _).liftExcept
  intro res
  split
  . exact always_pure _
  . exact always_throw _

-- What becomes of the rows when a handler runs by itself

variable {s : State} {token : Token}

theorem rowsOf_runAlone {handler : Handler Response}
    (h : Always (LeavesRows tokenId ids) handler.run)
    (hids : ∀ id ∈ ids, s.db.isJobOf tokenId id = false)
    : (handler.respond.runAlone s).snd.db.rowsOf tokenId = s.db.rowsOf tokenId := by
  have hrespond : Always (LeavesRows tokenId ids) handler.respond := by
    apply Always.bind h
    intro res
    split <;> exact always_pure _
  have hends := @ends_runAlone State Response Eq (fun _ => rfl) handler.respond s
  have hleaves := hrespond.ends (fun s s' s'' => Db.Leaves.trans s.db s'.db s''.db)
    (by rintro s _ rfl; exact s.db.leaves_refl) hends
  exact hleaves hids

section Owner

variable (hauth : AuthenticatesAs crates settings ambient s token)
include hauth

theorem rowsOf_runAlone_authenticate (ids : List String) (refuse : AuthError → Response)
    {next : String × Token → Handler Response}
    (h : ∀ secret, Always (LeavesRows tokenId ids) (next (secret, token)).run)
    (hids : ∀ id ∈ ids, s.db.isJobOf tokenId id = false)
    : ((authenticate crates settings ambient refuse >>= next).respond.runAlone s).snd.db.rowsOf tokenId
        =
      s.db.rowsOf tokenId := by
  rcases hauth.runAlone_bind refuse next with ⟨secret, rateLimit, hrun⟩
  rw [hrun]
  exact rowsOf_runAlone (s := { s with db := { s.db with rateLimit } }) (h secret) hids

variable (howner : token.id ≠ tokenId)
include howner

theorem rowsOf_buildHandler (huuid : s.db.isJobOf tokenId ambient.uuid = false) (payload : JobRequest)
    : ((route crates settings (.build payload) ambient).respond.runAlone s).snd.db.rowsOf tokenId
        =
      s.db.rowsOf tokenId := by
  apply rowsOf_runAlone_authenticate hauth [ambient.uuid]
  . intro secret
    dsimp only
    split
    . exact always_throw _
    . apply Always.bindExcept
      . unfold buildHandler.lookup
        split
        . exact (leaves_of_reads (reads_cacheLookup _)).liftExcept
        . exact always_pure _
      . intro cached
        split
        . exact always_pure _
        . apply leaves_submit
          . exact howner
          . exact List.mem_cons_self
  . simpa using huuid

theorem rowsOf_forgeInstallHandler (huuid : s.db.isJobOf tokenId ambient.uuid = false)
    (params : ForgeInstallParams) (hardware : HardwareProfile)
    : ((route crates settings (.forgeInstall params hardware) ambient).respond.runAlone s).snd.db.rowsOf
          tokenId
        =
      s.db.rowsOf tokenId := by
  apply rowsOf_runAlone_authenticate hauth [ambient.uuid]
  . intro secret
    dsimp only
    split
    . exact always_throw _
    . apply Always.bindExcept (leaves_of_reads (reads_cacheLookup _)).liftExcept
      intro cached
      split
      . exact always_pure _
      . apply leaves_submit
        . exact howner
        . exact List.mem_cons_self
  . simpa using huuid

theorem rowsOf_registerWebhookHandler (payload : WebhookRequest)
    : ((route crates settings (.registerWebhook payload) ambient).respond.runAlone s).snd.db.rowsOf
          tokenId
        =
      s.db.rowsOf tokenId := by
  apply rowsOf_runAlone_authenticate hauth []
  . intro secret
    apply Always.bindExcept (leaves_lockDb (Db.leaves_insertWebhook howner _ _ _) _).liftExcept
    intro res
    split
    . exact always_pure _
    . exact always_throw _
  . intro id hid
    contradiction

theorem rowsOf_deleteWebhookHandler (id : Int)
    : ((route crates settings (.deleteWebhook id) ambient).respond.runAlone s).snd.db.rowsOf tokenId
        =
      s.db.rowsOf tokenId := by
  apply rowsOf_runAlone_authenticate hauth []
  . intro secret
    apply Always.bindExcept (leaves_lockDb (Db.leaves_deactivateWebhook howner _) _).liftExcept
    intro res
    split
    . exact always_pure _
    . exact always_throw _
    . exact always_throw _
  . intro id hid
    contradiction

theorem rowsOf_uploadProfilesHandler (huuid : s.db.isJobOf tokenId ambient.uuid = false)
    (instrumentJobId : String) (upload : Upload)
    : ((route crates settings (.uploadProfiles instrumentJobId upload) ambient).respond.runAlone
          s).snd.db.rowsOf tokenId
        =
      s.db.rowsOf tokenId := by
  rcases hauth.runAlone_bind refuseByCause _ with ⟨secret, rateLimit, hrun⟩
  refine (congrArg (fun res : Response × State => res.snd.db.rowsOf tokenId) hrun).trans ?_
  dsimp only
  rw [Db.getJobDetails, runAlone_query_bind]
  cases ambient.faults 1 .getJobDetails with
  | some msg => rfl
  | none =>
    dsimp only
    cases hfind : s.db.jobs.find? instrumentJobId with
    | none => rfl
    | some row =>
      rw [Option.map_some]
      dsimp only
      split
      . rfl
      . next hverify =>
        have hrow : row.tokenId = token.id := by
          unfold uploadProfilesHandler.verify at hverify
          split at hverify
          . contradiction
          . next hsame => exact Decidable.not_not.mp hsame
        have hid : s.db.isJobOf tokenId instrumentJobId = false := by
          rw [Db.isJobOf_eq, hfind]
          simpa [hrow] using howner
        refine @rowsOf_runAlone _ [ambient.uuid, instrumentJobId]
          { s with db := { s.db with rateLimit } } _ ?_ ?_
        . apply leaves_mergeAndSubmit
          . simp
          . simp
          . exact howner
        . intro id hmem
          rw [List.mem_cons, List.mem_singleton] at hmem
          rcases hmem with rfl | rfl
          . exact huuid
          . exact hid

theorem rowsOf_route (huuid : s.db.isJobOf tokenId ambient.uuid = false) (request : Request)
    : ((route crates settings request ambient).respond.runAlone s).snd.db.rowsOf tokenId
        =
      s.db.rowsOf tokenId := by
  have hids : ∀ id ∈ ([] : List String), s.db.isJobOf tokenId id = false := by
    intro id hid
    contradiction
  have hreads : ∀ {handler : Handler Response}, Always ReadsOnly handler.run →
      (handler.respond.runAlone s).snd.db.rowsOf tokenId = s.db.rowsOf tokenId := by
    intro handler h
    exact rowsOf_runAlone (leaves_of_reads h) hids
  cases request with
  | build payload => exact rowsOf_buildHandler hauth howner huuid payload
  | forgeInstall params hardware => exact rowsOf_forgeInstallHandler hauth howner huuid params hardware
  | uploadProfiles id upload => exact rowsOf_uploadProfilesHandler hauth howner huuid id upload
  | getMergedProfile id => exact hreads (reads_getMergedProfileHandler id)
  | status jobId => exact hreads (reads_statusHandler jobId)
  | binary jobId => exact hreads (reads_binaryHandler jobId)
  | listJobs => exact hreads reads_listJobsHandler
  | registerWebhook payload => exact rowsOf_registerWebhookHandler hauth howner payload
  | listWebhooks => exact hreads reads_listWebhooksHandler
  | deleteWebhook id => exact rowsOf_deleteWebhookHandler hauth howner id
  | createToken payload => exact rowsOf_runAlone (leaves_createTokenHandler payload) hids
  | listTokens => exact hreads reads_listTokensHandler
  | deleteToken id => exact rowsOf_runAlone (leaves_deleteTokenHandler id) hids

end Owner

end Koval
