import Koval.Server.Frames
import Koval.Server.System
import Koval.Server.Worker.ProcessJob
import Mathlib.Logic.Relation

/-!
This module contains what the single statements write into the database. All changes that the
server makes are chains of these.
-/

namespace Koval
namespace Db

def profilesDir (settings : Settings) (instrumentJobId : String) : Path :=
  (settings.artifactsDir.join (.ofString "pgo_profiles")).join (.ofString instrumentJobId)

def IsTime (column : Option String) : Prop := ∀ text ∈ column, ∃ now : DateTime, text = now.toRfc3339

theorem isTime_none : IsTime none := by
  intro text htext
  contradiction

theorem isTime_some (now : DateTime) : IsTime (some now.toRfc3339) := by
  rintro _ ⟨⟩
  exact ⟨now, rfl⟩

theorem isTime_orElse {column column' : Option String} (h : IsTime column) (h' : IsTime column')
    : IsTime (column <|> column') := by
  cases column with
  | some text => exact h
  | none => exact h'

/-- A write of one statement, with what the server puts into it. -/
inductive Write (crates : Crates) (settings : Settings) : Db → Db → Prop where
  | insertToken {db : Db} {salt plaintext tokenHash name : String} {now : DateTime}
    {tokens : Table Token.id} (hhash : crates.bcryptHash salt plaintext = .ok tokenHash)
    (hunique : ∀ token ∈ db.tokens.rows, token.tokenHash ≠ tokenHash)
    (hinsert : db.tokens.insert? ⟨db.lastTokenId + 1, tokenHash, name, now.toRfc3339, true⟩
      = some tokens) :
    Write crates settings db { db with tokens, lastTokenId := db.lastTokenId + 1 }
  | revokeToken {db : Db} (id : Int) :
    Write crates settings db
      { db with
        tokens := db.tokens.updateKey id (fun row => { row with isActive := false })
          (by intro row; rfl) }
  | insertJob {db : Db} {job : Job} {now : DateTime} {jobs : Table JobRow.id}
    (htoken : db.tokens.contains job.tokenId)
    (hsource : ∀ id, job.pgoSourceJobId = some id → db.jobs.contains id ∨ id = job.id)
    (hinsert : db.jobs.insert? (.ofJob crates job now.toRfc3339) = some jobs) :
    Write crates settings db { db with jobs }
  | updateJobStatus {db : Db} (id : String) (status : Status)
    {startedAt finishedAt : Option String} (errorMsg : Option String)
    (hstarted : IsTime startedAt) (hfinished : IsTime finishedAt) :
    Write crates settings db
      { db with
        jobs := db.jobs.updateKey id (JobRow.setStatus status startedAt finishedAt errorMsg)
          (JobRow.id_setStatus _ _ _ _) }
  | insertPgoProfile {db : Db} {instrumentJobId : String} {now : DateTime}
    {pgoProfiles : Table PgoProfileRow.instrumentJobId} (hjob : db.jobs.contains instrumentJobId)
    (hinsert : db.pgoProfiles.insert?
      ⟨instrumentJobId, (profilesDir settings instrumentJobId).display, none, now.toRfc3339⟩
        = some pgoProfiles) :
    Write crates settings db { db with pgoProfiles }
  | updatePgoMergedPath {db : Db} (instrumentJobId mergedPath : String) :
    Write crates settings db
      { db with
        pgoProfiles := db.pgoProfiles.updateKey instrumentJobId
          (fun row => { row with mergedPath := some mergedPath }) (by intro row; rfl) }
  | insertArtifact {db : Db} {job : Job} (hjob : db.jobs.contains job.id) (fileSize : Nat)
    (content : Bytes) :
    Write crates settings db
      { db with
        artifacts := db.artifacts.replace
          ⟨job.id, (processJob.archivePath settings job).display, fileSize, crates.sha256 content⟩ }
  | insertCacheEntry {db : Db} {job : Job} (hjob : db.jobs.contains job.id) (now : DateTime) :
    Write crates settings db
      { db with
        buildCache :=
          db.buildCache.replace ⟨job.tuple.cacheKey crates, job.id, now.toRfc3339⟩ }
  | incrementRateLimit {db : Db} {tokenId : Int} (htoken : db.tokens.contains tokenId)
    (now : DateTime) :
    Write crates settings db
      { db with
        rateLimit := db.rateLimit.upsert ⟨tokenId, now.toRfc3339Millis, 1⟩ RateLimitRow.increment
          RateLimitRow.key_increment }
  | pruneRateLimits {db : Db} (beforeWindow : String) :
    Write crates settings db
      { db with
        rateLimit := db.rateLimit.filter fun row => !decide (row.windowStart < beforeWindow) }
  | insertWebhook {db : Db} {tokenId : Int} {url secret : String} {now : DateTime}
    {webhooks : Table WebhookRow.id} (htoken : db.tokens.contains tokenId)
    (hinsert : db.webhooks.insert?
      ⟨db.lastWebhookId + 1, tokenId, url, secret, now.toRfc3339, true⟩ = some webhooks) :
    Write crates settings db { db with webhooks, lastWebhookId := db.lastWebhookId + 1 }
  | deactivateWebhook {db : Db} (id tokenId : Int) :
    Write crates settings db (db.deactivated id tokenId)

abbrev Writes (crates : Crates) (settings : Settings) : Db → Db → Prop :=
  Relation.ReflTransGen (Write crates settings)

variable {crates : Crates} {settings : Settings}

theorem writes_refl (db : Db) : db.Writes crates settings db := .refl

theorem writes_of_eq {db db' : Db} (h : db' = db) : db.Writes crates settings db' := by
  subst h
  exact writes_refl db'

theorem Writes.trans (db db' db'' : Db) (h : db.Writes crates settings db')
    (h' : db'.Writes crates settings db'')
    : db.Writes crates settings db'' := Relation.ReflTransGen.trans h h'

theorem Writes.preserves {I : Db → Prop} {db db' : Db} (h : db.Writes crates settings db')
    (hwrite : ∀ db db', Write crates settings db db' → I db → I db') (hdb : I db)
    : I db' := by
  induction h with
  | refl => exact hdb
  | tail _ hlast ih => exact hwrite _ _ hlast ih

theorem Writes.relates {R : Db → Db → Prop} {db db' : Db} (h : db.Writes crates settings db')
    (hrefl : ∀ db, R db db) (htrans : ∀ db db' db'', R db db' → R db' db'' → R db db'')
    (hwrite : ∀ db db', Write crates settings db db' → R db db')
    : R db db' :=
  h.preserves (fun mid db' hlast hmid => htrans db mid db' hmid (hwrite mid db' hlast)) (hrefl db)

-- The statements

theorem exists_of_inserted {ρ κ : Type} {key : ρ → κ} {columns : String} {references : Bool}
    {table : Option (Table key)} {store : Table key → Db} {db : Db}
    (h : inserted columns references table store = .ok db)
    : references ∧ ∃ table', table = some table' ∧ db = store table' := by
  unfold inserted at h
  split at h
  . contradiction
  . next table' =>
    split at h
    . next hreferences =>
      injection h with h
      exact ⟨hreferences, table', rfl, h.symm⟩
    . contradiction

theorem writes_query {α : Type} (tag : Stmt) (select : Db → α)
    : Sql.Moves (Writes crates settings) (Sql.query tag select) :=
  Sql.moves_query writes_refl tag select

theorem writes_execute (tag : Stmt) {change : Db → Except SqlError Db}
    (h : ∀ db db', change db = .ok db' → Write crates settings db db')
    : Sql.Moves (Writes crates settings) (Sql.execute tag change) := by
  apply Sql.moves_execute writes_refl
  intro db db' hchange
  exact .single (h db db' hchange)

theorem writes_insertToken {salt plaintext tokenHash : String}
    (hhash : crates.bcryptHash salt plaintext = .ok tokenHash) (name : String) (now : DateTime)
    : Sql.Moves (Writes crates settings) (insertToken tokenHash name now.toRfc3339) := by
  apply Sql.Moves.bind Writes.trans
  . apply writes_execute
    intro db db' h
    dsimp only at h
    split at h
    . contradiction
    . next hany =>
      rcases exists_of_inserted h with ⟨_, tokens, hinsert, rfl⟩
      refine .insertToken hhash ?_ hinsert
      intro token htoken heq
      apply hany
      rw [List.any_eq_true]
      exact ⟨token, htoken, decide_eq_true heq⟩
  . intro _
    exact writes_query _ _

theorem writes_revokeToken (id : Int) : Sql.Moves (Writes crates settings) (revokeToken id) := by
  apply writes_execute
  intro db db' h
  injection h with h
  rw [← h]
  exact .revokeToken id

theorem writes_insertJob (job : Job) (now : DateTime)
    : Sql.Moves (Writes crates settings)
        (insertJob crates job.id job.tokenId job.project job.gitRef job.hardware now.toRfc3339
          job.jobType job.pgoSourceJobId) := by
  apply writes_execute
  intro db db' h
  rcases exists_of_inserted h with ⟨hreferences, jobs, hinsert, rfl⟩
  rw [Bool.and_eq_true, Option.all_eq_true] at hreferences
  refine .insertJob hreferences.left ?_ hinsert
  intro id hid
  have := hreferences.right id hid
  rw [Bool.or_eq_true, beq_iff_eq] at this
  exact this

theorem writes_updateJobStatus (id : String) (status : Status) {startedAt finishedAt : Option String}
    (errorMsg : Option String) (hstarted : IsTime startedAt) (hfinished : IsTime finishedAt)
    : Sql.Moves (Writes crates settings)
        (updateJobStatus id status startedAt finishedAt errorMsg) := by
  apply writes_execute
  intro db db' h
  injection h with h
  rw [← h]
  exact .updateJobStatus id status errorMsg hstarted hfinished

theorem writes_insertPgoProfile (instrumentJobId : String) (now : DateTime)
    : Sql.Moves (Writes crates settings)
        (insertPgoProfile instrumentJobId (profilesDir settings instrumentJobId).display
          now.toRfc3339) := by
  apply writes_execute
  intro db db' h
  rcases exists_of_inserted h with ⟨hjob, pgoProfiles, hinsert, rfl⟩
  exact .insertPgoProfile hjob hinsert

theorem writes_updatePgoMergedPath (instrumentJobId mergedPath : String)
    : Sql.Moves (Writes crates settings) (updatePgoMergedPath instrumentJobId mergedPath) := by
  apply writes_execute
  intro db db' h
  injection h with h
  rw [← h]
  exact .updatePgoMergedPath instrumentJobId mergedPath

theorem writes_insertWebhook (tokenId : Int) (url secret : String) (now : DateTime)
    : Sql.Moves (Writes crates settings) (insertWebhook tokenId url secret now.toRfc3339) := by
  apply Sql.Moves.bind Writes.trans
  . apply writes_execute
    intro db db' h
    rcases exists_of_inserted h with ⟨htoken, webhooks, hinsert, rfl⟩
    exact .insertWebhook htoken hinsert
  . intro _
    exact writes_query _ _

theorem writes_deactivateWebhook (id tokenId : Int)
    : Sql.Moves (Writes crates settings) (deactivateWebhook id tokenId) := by
  apply writes_execute
  intro db db' h
  split at h
  . injection h with h
    rw [← h]
    exact .deactivateWebhook id tokenId
  . contradiction

theorem writes_incrementRateLimit (tokenId : Int) (now : DateTime)
    : Sql.Moves (Writes crates settings) (incrementRateLimit tokenId now.toRfc3339Millis) := by
  apply writes_execute
  intro db db' h
  split at h
  . next htoken =>
    injection h with h
    rw [← h]
    exact .incrementRateLimit htoken now
  . contradiction

theorem writes_pruneRateLimits (beforeWindow : String)
    : Sql.Moves (Writes crates settings) (pruneRateLimits beforeWindow) := by
  apply writes_execute
  intro db db' h
  injection h with h
  rw [← h]
  exact .pruneRateLimits beforeWindow

-- The three statements that complete a job

theorem writes_complete (job : Job) (now : DateTime) (fileSize : Nat) (content : Bytes)
    : Sql.Moves (Writes crates settings)
        (processJob.complete.go crates settings job now.toRfc3339 fileSize
          (crates.sha256 content)) := by
  apply Sql.Moves.bind Writes.trans
  . apply writes_execute
    intro db db' h
    split at h
    . next hjob =>
      injection h with h
      rw [← h]
      exact .insertArtifact hjob fileSize content
    . contradiction
  . intro _
    apply Sql.Moves.bind Writes.trans
    . apply writes_execute
      intro db db' h
      split at h
      . next hjob =>
        injection h with h
        rw [← h]
        exact .insertCacheEntry hjob now
      . contradiction
    . intro _
      exact writes_updateJobStatus _ _ _ isTime_none (isTime_some now)

theorem writes_authenticate (rawToken : String) (now : DateTime) (limit : Nat)
    : Sql.Moves (Writes crates settings)
        (authenticateAndRateLimit.go crates rawToken now limit) := by
  unfold authenticateAndRateLimit.go
  apply Sql.Moves.bind Writes.trans (writes_query _ _)
  intro activeTokens
  split
  . exact Sql.moves_pure writes_refl _
  . split
    . exact Sql.moves_pure writes_refl _
    . apply Sql.Moves.bind Writes.trans (writes_pruneRateLimits _)
      intro _
      apply Sql.Moves.bind Writes.trans (writes_query _ _)
      intro currentRequests
      split
      . exact Sql.moves_pure writes_refl _
      . apply Sql.Moves.bind Writes.trans (writes_incrementRateLimit _ _)
        intro _
        exact Sql.moves_pure writes_refl _

theorem writes_bootstrapAdminToken (boot : Boot)
    : Sql.Moves (Writes crates settings) (bootstrapAdminToken crates boot) := by
  unfold bootstrapAdminToken
  apply Sql.Moves.bind Writes.trans (writes_query _ _)
  intro activeTokens
  split
  . dsimp only
    split
    . exact Sql.moves_pure writes_refl _
    . next hhash =>
      apply Sql.Moves.bind Writes.trans (writes_insertToken hhash _ _)
      intro _
      exact Sql.moves_pure writes_refl _
  . exact Sql.moves_pure writes_refl _

end Db
end Koval
