import Koval.Server.Db

namespace Koval
namespace Db

-- What the statements do when nothing outside the database fails.

@[simp]
theorem run_getActiveTokens (db : Db)
    : getActiveTokens.run .none db = (.ok (db.tokens.rows.filter (·.isActive)), db) := rfl

@[simp]
theorem run_pruneRateLimits (beforeWindow : String) (db : Db)
    : (pruneRateLimits beforeWindow).run .none db
        =
      (.ok (), { db with
        rateLimit := db.rateLimit.filter fun row => !decide (row.windowStart < beforeWindow) }) :=
  rfl

@[simp]
theorem run_getSlidingWindowCount (tokenId : Int) (sinceTime : String) (db : Db)
    : (getSlidingWindowCount tokenId sinceTime).run .none db
        =
      (.ok (db.rateLimit.sum (·.requestCount) fun (id, windowStart) =>
        id = tokenId && windowStart ≥ sinceTime), db) := rfl

theorem run_incrementRateLimit {tokenId : Int} {db : Db} (h : db.tokens.contains tokenId)
    (windowStart : String)
    : (incrementRateLimit tokenId windowStart).run .none db
        =
      (.ok (), { db with
        rateLimit := db.rateLimit.upsert ⟨tokenId, windowStart, 1⟩ RateLimitRow.increment
          RateLimitRow.key_increment }) := by
  unfold incrementRateLimit
  rw [Sql.run_execute_none, if_pos h]

theorem inserted_eq_ok {ρ κ : Type} {key : ρ → κ} {columns : String} {references : Bool}
    {table : Option (Table key)} {store : Table key → Db} {db : Db}
    (h : inserted columns references table store = .ok db)
    : ∃ table', table = some table' ∧ db = store table' := by
  unfold inserted at h
  split at h
  . contradiction
  . next table' =>
    split at h
    . injection h with h
      exact ⟨table', rfl, h.symm⟩
    . contradiction

def jobView (db : Db) : Table JobRow.id × Table ArtifactRow.jobId × Table CacheRow.cacheKey :=
  (db.jobs, db.artifacts, db.buildCache)

-- What the other statements do not touch, whatever fails.

theorem keeps_getActiveTokens : Sql.Keeps jobView getActiveTokens := Sql.keeps_query _ _ _

theorem keeps_insertToken (tokenHash name createdAt : String)
    : Sql.Keeps jobView (insertToken tokenHash name createdAt) := by
  apply Sql.Keeps.bind
  . apply Sql.keeps_execute
    intro db db' h
    dsimp only at h
    split at h
    . contradiction
    . rcases inserted_eq_ok h with ⟨tokens, _, rfl⟩
      rfl
  . intro _
    exact Sql.keeps_query _ _ _

theorem keeps_revokeToken (id : Int) : Sql.Keeps jobView (revokeToken id) := by
  apply Sql.keeps_execute
  intro db db' h
  injection h with h
  rw [← h]
  rfl

theorem keeps_insertPgoProfile (instrumentJobId profilesDir createdAt : String)
    : Sql.Keeps jobView (insertPgoProfile instrumentJobId profilesDir createdAt) := by
  apply Sql.keeps_execute
  intro db db' h
  rcases inserted_eq_ok h with ⟨pgoProfiles, _, rfl⟩
  rfl

theorem keeps_getPgoProfile (instrumentJobId : String)
    : Sql.Keeps jobView (getPgoProfile instrumentJobId) := Sql.keeps_query _ _ _

theorem keeps_updatePgoMergedPath (instrumentJobId mergedPath : String)
    : Sql.Keeps jobView (updatePgoMergedPath instrumentJobId mergedPath) := by
  apply Sql.keeps_execute
  intro db db' h
  injection h with h
  rw [← h]
  rfl

theorem keeps_getJobPosition {γ : Type} (view : Db → γ) (id : String)
    : Sql.Keeps view (getJobPosition id) := by
  apply Sql.Keeps.bind
  . exact Sql.keeps_query _ _ _
  . intro job
    cases job with
    | none => exact Sql.keeps_pure _ _
    | some job =>
      dsimp only
      split
      . apply Sql.Keeps.bind
        . exact Sql.keeps_query _ _ _
        . intro count
          exact Sql.keeps_pure _ _
      . exact Sql.keeps_pure _ _

theorem keeps_getJobStatus {γ : Type} (view : Db → γ) (id : String)
    : Sql.Keeps view (getJobStatus id) := by
  apply Sql.Keeps.bind (keeps_getJobPosition view id)
  intro position
  exact Sql.keeps_query _ _ _

theorem keeps_getArtifact {γ : Type} (view : Db → γ) (jobId : String)
    : Sql.Keeps view (getArtifact jobId) := Sql.keeps_query _ _ _

theorem keeps_incrementRateLimit (tokenId : Int) (windowStart : String)
    : Sql.Keeps jobView (incrementRateLimit tokenId windowStart) := by
  apply Sql.keeps_execute
  intro db db' h
  split at h
  . injection h with h
    rw [← h]
    rfl
  . contradiction

theorem keeps_pruneRateLimits (beforeWindow : String)
    : Sql.Keeps jobView (pruneRateLimits beforeWindow) := by
  apply Sql.keeps_execute
  intro db db' h
  injection h with h
  rw [← h]
  rfl

theorem keeps_insertWebhook (tokenId : Int) (url secret createdAt : String)
    : Sql.Keeps jobView (insertWebhook tokenId url secret createdAt) := by
  apply Sql.Keeps.bind
  . apply Sql.keeps_execute
    intro db db' h
    rcases inserted_eq_ok h with ⟨webhooks, _, rfl⟩
    rfl
  . intro _
    exact Sql.keeps_query _ _ _

theorem keeps_deactivateWebhook (id tokenId : Int)
    : Sql.Keeps jobView (deactivateWebhook id tokenId) := by
  apply Sql.keeps_execute
  intro db db' h
  split at h
  . injection h with h
    rw [← h]
    rfl
  . contradiction

theorem run_insertToken_cases {tokenHash name createdAt : String} {faults : Faults Stmt}
    {db db' : Db} {res : Except SqlError Int}
    (h : (insertToken tokenHash name createdAt).run faults db = (res, db'))
    : (∃ tokens,
          db.tokens.insert? ⟨db.lastTokenId + 1, tokenHash, name, createdAt, true⟩ = some tokens
            ∧
          db' = { db with tokens, lastTokenId := db.lastTokenId + 1 })
        ∨
      (∃ err, res = .error err ∧ db' = db) := by
  have hquery : ∀ {mid : Db} {res : Except SqlError Int} {db' : Db},
      (Sql.query .insertToken (·.lastTokenId)).run faults mid = (res, db') → db' = mid := by
    intro mid res db' h
    have hdb := Sql.keeps_query id .insertToken (fun db : Db => db.lastTokenId) faults mid
    rw [h] at hdb
    exact hdb
  rcases Sql.run_bind_cases h with ⟨_, mid, hinsert, hrest⟩ | ⟨err, hinsert, hres⟩
  . rcases Sql.run_execute_cases hinsert with ⟨_, hchange⟩ | ⟨err, herr, _⟩
    . dsimp only at hchange
      split at hchange
      . contradiction
      . rcases inserted_eq_ok hchange with ⟨tokens, htokens, hmid⟩
        rw [hquery hrest, hmid]
        exact .inl ⟨tokens, htokens, rfl⟩
    . contradiction
  . rcases Sql.run_execute_cases hinsert with ⟨hok, _⟩ | ⟨_, _, hdb⟩
    . contradiction
    . exact .inr ⟨err, hres, hdb⟩

theorem run_insertArtifact_cases {jobId filePath sha256 : String} {fileSize : Nat}
    {faults : Faults Stmt} {db db' : Db} {res : Except SqlError Unit}
    (h : (insertArtifact jobId filePath fileSize sha256).run faults db = (res, db'))
    : (res = .ok () ∧ db' = { db with
          artifacts := db.artifacts.replace ⟨jobId, filePath, fileSize, sha256⟩ })
        ∨
      (∃ err, res = .error err ∧ db' = db) := by
  cases Sql.run_execute_cases h with
  | inl h =>
    have hchange := h.right
    split at hchange
    . injection hchange with hdb
      exact .inl ⟨h.left, hdb.symm⟩
    . contradiction
  | inr h => exact .inr h

theorem run_insertCacheEntry_cases {cacheKey jobId createdAt : String} {faults : Faults Stmt}
    {db db' : Db} {res : Except SqlError Unit}
    (h : (insertCacheEntry cacheKey jobId createdAt).run faults db = (res, db'))
    : (res = .ok () ∧ db' = { db with
          buildCache := db.buildCache.replace ⟨cacheKey, jobId, createdAt⟩ })
        ∨
      (∃ err, res = .error err ∧ db' = db) := by
  cases Sql.run_execute_cases h with
  | inl h =>
    have hchange := h.right
    split at hchange
    . injection hchange with hdb
      exact .inl ⟨h.left, hdb.symm⟩
    . contradiction
  | inr h => exact .inr h

-- This one fails for reasons outside the database only.
theorem run_updateJobStatus_cases {id : String} {status : Status}
    {startedAt finishedAt errorMsg : Option String} {faults : Faults Stmt} {db db' : Db}
    {res : Except SqlError Unit}
    (h : (updateJobStatus id status startedAt finishedAt errorMsg).run faults db = (res, db'))
    : (res = .ok () ∧ db' = { db with
          jobs := db.jobs.updateKey id (JobRow.setStatus status startedAt finishedAt errorMsg)
            (JobRow.id_setStatus _ _ _ _) })
        ∨
      (∃ msg, faults .updateJobStatus = some msg ∧ res = .error (.failure msg) ∧ db' = db) := by
  unfold updateJobStatus Sql.run Sql.execute at h
  split at h
  . next msg hfault =>
    injection h with hres hdb
    exact .inr ⟨msg, hfault, hres.symm, hdb.symm⟩
  . injection h with hres hdb
    exact .inl ⟨hres.symm, hdb.symm⟩

-- What a reader learns from an answer.

theorem run_getJobPosition_eq_ok {id : String} {faults : Faults Stmt} {db db' : Db}
    {position : Option Nat} (h : (getJobPosition id).run faults db = (.ok position, db'))
    : db' = db ∧ (position.isSome ↔ ∃ row, db.jobs.find? id = some row ∧ row.status = .queued) := by
  rcases Sql.run_bind_eq_ok h with ⟨job, mid, hjob, h⟩
  have ⟨hjob, hmid⟩ := Sql.run_query_eq_ok hjob
  rw [hjob, hmid] at h
  cases hfind : db.jobs.find? id with
  | none =>
    rw [hfind] at h
    have ⟨hposition, hdb⟩ := Sql.run_pure_eq_ok h
    simp [hposition, hdb]
  | some row =>
    rw [hfind] at h
    dsimp only at h
    split at h
    . next hqueued =>
      rcases Sql.run_bind_eq_ok h with ⟨count, mid, hcount, h⟩
      have ⟨_, hmid⟩ := Sql.run_query_eq_ok hcount
      have ⟨hposition, hdb⟩ := Sql.run_pure_eq_ok h
      simp [hposition, hdb, hmid, hqueued]
    . next hqueued =>
      have ⟨hposition, hdb⟩ := Sql.run_pure_eq_ok h
      simp [hposition, hdb, hqueued]

theorem run_getJobStatus_eq_ok {id : String} {faults : Faults Stmt} {db db' : Db}
    {jobStatus : JobStatus} (h : (getJobStatus id).run faults db = (.ok (some jobStatus), db'))
    : db' = db ∧ ∃ row,
        db.jobs.find? id = some row
          ∧
        jobStatus.status = row.status
          ∧
        (jobStatus.position.isSome ↔ row.status = .queued) := by
  rcases Sql.run_bind_eq_ok h with ⟨position, mid, hposition, h⟩
  have ⟨hmid, hposition⟩ := run_getJobPosition_eq_ok hposition
  have ⟨hstatus, hdb⟩ := Sql.run_query_eq_ok h
  rw [hmid] at hstatus hdb
  refine ⟨hdb, ?_⟩
  cases hfind : db.jobs.find? id with
  | none => simp [hfind] at hstatus
  | some row =>
    simp only [hfind, Option.map_some, Option.some.injEq] at hstatus
    refine ⟨row, rfl, ?_⟩
    rw [hstatus]
    simpa [hfind] using hposition

end Db
end Koval
