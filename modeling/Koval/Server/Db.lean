import Koval.Sql.Statement
import Koval.Sql.Table
import Koval.Server.Cache

/-!
This module contains the database: its tables, and the statements that the server makes on them.
-/

namespace Koval

structure JobRow where
  id : String
  tokenId : Int
  project : String
  gitRef : String
  hardwareJson : String
  status : Status
  queuedAt : String
  startedAt : Option String := none
  finishedAt : Option String := none
  errorMsg : Option String := none
  jobType : JobType := .standard
  pgoSourceJobId : Option String := none
  deriving DecidableEq, Repr

namespace JobRow

def setStatus (status : Status) (startedAt finishedAt errorMsg : Option String) (row : JobRow) :
    JobRow :=
  { row with
    status
    startedAt := startedAt <|> row.startedAt
    finishedAt
    errorMsg }

theorem id_setStatus (status : Status) (startedAt finishedAt errorMsg : Option String) (row : JobRow)
    : (row.setStatus status startedAt finishedAt errorMsg).id = row.id := rfl

end JobRow

structure PgoProfileRow where
  instrumentJobId : String
  profilesDir : String
  mergedPath : Option String
  createdAt : String
  deriving DecidableEq, Repr

structure ArtifactRow where
  jobId : String
  filePath : String
  fileSize : Nat
  sha256 : String
  deriving DecidableEq, Repr

structure RateLimitRow where
  tokenId : Int
  windowStart : String
  requestCount : Nat
  deriving DecidableEq, Repr

structure WebhookRow where
  id : Int
  tokenId : Int
  url : String
  secret : String
  createdAt : String
  isActive : Bool
  deriving DecidableEq, Repr

structure CacheRow where
  cacheKey : String
  jobId : String
  createdAt : String
  deriving DecidableEq, Repr

namespace RateLimitRow

def key (row : RateLimitRow) : Int × String := (row.tokenId, row.windowStart)

def increment (row : RateLimitRow) : RateLimitRow :=
  { row with requestCount := row.requestCount + 1 }

theorem key_increment (row : RateLimitRow) : row.increment.key = row.key := rfl

end RateLimitRow

structure Db where
  tokens : Table Token.id := .empty
  jobs : Table JobRow.id := .empty
  pgoProfiles : Table PgoProfileRow.instrumentJobId := .empty
  artifacts : Table ArtifactRow.jobId := .empty
  rateLimit : Table RateLimitRow.key := .empty
  webhooks : Table WebhookRow.id := .empty
  buildCache : Table CacheRow.cacheKey := .empty
  -- the largest ids ever given, as AUTOINCREMENT asks for
  lastTokenId : Int := 0
  lastWebhookId : Int := 0

instance : Inhabited Db := ⟨{}⟩

inductive Stmt where
  | insertToken
  | getActiveTokens
  | getActiveTokenRecords
  | revokeToken
  | insertPgoProfile
  | getPgoProfile
  | updatePgoMergedPath
  | insertJob
  | getJobStatus
  | getJobDetails
  | getJobPosition
  | updateJobStatus
  | insertArtifact
  | getArtifact
  | incrementRateLimit
  | pruneRateLimits
  | getSlidingWindowCount
  | insertWebhook
  | getWebhooksForToken
  | deactivateWebhook
  | getWebhooksDeliveryInfo
  | getRecentJobs
  | getCacheEntry
  | insertCacheEntry
  deriving DecidableEq, Repr

abbrev DbM := Sql Stmt Db

namespace Db

def foreignKeyError : SqlError := .constraint "FOREIGN KEY constraint failed"

def uniqueError (columns : String) : SqlError :=
  .constraint ("UNIQUE constraint failed: " ++ columns)

def inserted {ρ κ : Type} {key : ρ → κ} (columns : String) (references : Bool)
    (table : Option (Table key)) (store : Table key → Db) : Except SqlError Db :=
  match table with
  | none => .error (uniqueError columns)
  | some table => if references then .ok (store table) else .error foreignKeyError

-- TOKEN QUERIES

def insertToken (tokenHash name createdAt : String) : DbM Int := do
  Sql.execute .insertToken fun db =>
    let row := ⟨db.lastTokenId + 1, tokenHash, name, createdAt, true⟩
    if db.tokens.rows.any fun old => old.tokenHash = tokenHash then
      .error (uniqueError "tokens.token_hash")
    else
      inserted "tokens.id" true (db.tokens.insert? row) fun tokens =>
        { db with tokens, lastTokenId := db.lastTokenId + 1 }
  Sql.query .insertToken (·.lastTokenId)

def getActiveTokens : DbM (List Token) :=
  Sql.query .getActiveTokens fun db => db.tokens.rows.filter (·.isActive)

def revokeToken (id : Int) : DbM Unit :=
  Sql.execute .revokeToken fun db =>
    .ok { db with
      tokens := db.tokens.updateKey id (fun row => { row with isActive := false })
        (by intro row; rfl) }

-- JOB QUERIES

def insertPgoProfile (instrumentJobId profilesDir createdAt : String) : DbM Unit :=
  Sql.execute .insertPgoProfile fun db =>
    inserted "pgo_profiles.instrument_job_id" (db.jobs.contains instrumentJobId)
      (db.pgoProfiles.insert? ⟨instrumentJobId, profilesDir, none, createdAt⟩)
      fun pgoProfiles => { db with pgoProfiles }

def getPgoProfile (instrumentJobId : String) : DbM (Option PgoProfileRow) :=
  Sql.query .getPgoProfile (·.pgoProfiles.find? instrumentJobId)

def updatePgoMergedPath (instrumentJobId mergedPath : String) : DbM Unit :=
  Sql.execute .updatePgoMergedPath fun db =>
    .ok { db with
      pgoProfiles := db.pgoProfiles.updateKey instrumentJobId
        (fun row => { row with mergedPath := some mergedPath }) (by intro row; rfl) }

def insertJob (ext : Crates) (id : String) (tokenId : Int) (project gitRef : String)
    (hardware : HardwareProfile) (queuedAt : String) (jobType : JobType)
    (pgoSourceJobId : Option String) : DbM Unit :=
  Sql.execute .insertJob fun db =>
    let row := {
      id, tokenId, project, gitRef, queuedAt, jobType, pgoSourceJobId
      hardwareJson := hardwareJson ext hardware
      status := .queued
    }
    let references :=
      db.tokens.contains tokenId && pgoSourceJobId.all fun j => db.jobs.contains j || j == id
    inserted "jobs.id" references (db.jobs.insert? row) fun jobs => { db with jobs }

def getJobPosition (id : String) : DbM (Option Nat) := do
  let job ← Sql.query .getJobPosition (·.jobs.find? id)
  match job with
  | some job =>
    if job.status = .queued then
      let count ← Sql.query .getJobPosition fun db =>
        db.jobs.rows.countP fun row => row.status = .queued && row.queuedAt < job.queuedAt
      pure (some (count + 1))
    else
      pure none
  | none => pure none

def getJobStatus (id : String) : DbM (Option JobStatus) := do
  let position ← getJobPosition id
  Sql.query .getJobStatus fun db =>
    (db.jobs.find? id).map fun row => {
      status := row.status
      queuedAt := row.queuedAt
      startedAt := row.startedAt
      finishedAt := row.finishedAt
      errorMsg := row.errorMsg
      position
      jobType := row.jobType
    }

structure JobDetails where
  id : String
  tokenId : Int
  project : String
  gitRef : String
  hardware : HardwareProfile
  status : Status
  jobType : JobType
  deriving DecidableEq, Repr

def profileOrDefault (ext : Crates) (json : String) : HardwareProfile :=
  match ext.profileFromStr json with
  | .ok hardware => hardware
  | .error _ => default

def getJobDetails (ext : Crates) (id : String) : DbM (Option JobDetails) :=
  Sql.query .getJobDetails fun db =>
    (db.jobs.find? id).map fun row => {
      id := row.id
      tokenId := row.tokenId
      project := row.project
      gitRef := row.gitRef
      hardware := profileOrDefault ext row.hardwareJson
      status := row.status
      jobType := row.jobType
    }

def updateJobStatus (id : String) (status : Status) (startedAt finishedAt errorMsg : Option String) :
    DbM Unit :=
  Sql.execute .updateJobStatus fun db =>
    .ok { db with
      jobs := db.jobs.updateKey id
        (JobRow.setStatus status startedAt finishedAt errorMsg) (JobRow.id_setStatus _ _ _ _) }

-- ARTIFACT QUERIES

def insertArtifact (jobId filePath : String) (fileSize : Nat) (sha256 : String) : DbM Unit :=
  Sql.execute .insertArtifact fun db =>
    if db.jobs.contains jobId then
      .ok { db with artifacts := db.artifacts.replace ⟨jobId, filePath, fileSize, sha256⟩ }
    else
      .error foreignKeyError

def getArtifact (jobId : String) : DbM (Option (String × Nat × String)) :=
  Sql.query .getArtifact fun db =>
    (db.artifacts.find? jobId).map fun row => (row.filePath, row.fileSize, row.sha256)

-- RATE LIMIT QUERIES

def incrementRateLimit (tokenId : Int) (windowStart : String) : DbM Unit :=
  Sql.execute .incrementRateLimit fun db =>
    if db.tokens.contains tokenId then
      .ok { db with
        rateLimit := db.rateLimit.upsert ⟨tokenId, windowStart, 1⟩ RateLimitRow.increment
          RateLimitRow.key_increment }
    else
      .error foreignKeyError

def pruneRateLimits (beforeWindow : String) : DbM Unit :=
  Sql.execute .pruneRateLimits fun db =>
    .ok { db with
      rateLimit := db.rateLimit.filter fun row => !decide (row.windowStart < beforeWindow) }

def getSlidingWindowCount (tokenId : Int) (sinceTime : String) : DbM Nat :=
  Sql.query .getSlidingWindowCount fun db =>
    db.rateLimit.sum (·.requestCount) fun (id, windowStart) =>
      id = tokenId && windowStart ≥ sinceTime

-- WEBHOOK QUERIES

def insertWebhook (tokenId : Int) (url secret createdAt : String) : DbM Int := do
  Sql.execute .insertWebhook fun db =>
    let row := ⟨db.lastWebhookId + 1, tokenId, url, secret, createdAt, true⟩
    inserted "webhooks.id" (db.tokens.contains tokenId) (db.webhooks.insert? row) fun webhooks =>
      { db with webhooks, lastWebhookId := db.lastWebhookId + 1 }
  Sql.query .insertWebhook (·.lastWebhookId)

def getWebhooksForToken (tokenId : Int) : DbM (List WebhookRecord) :=
  Sql.query .getWebhooksForToken fun db =>
    (db.webhooks.rows.filter fun row => row.tokenId = tokenId && row.isActive).map fun row =>
      ⟨row.id, row.url, row.createdAt, row.isActive⟩

def deactivateWebhook (id tokenId : Int) : DbM Unit :=
  Sql.execute .deactivateWebhook fun db =>
    if db.webhooks.rows.any fun row => row.id = id && row.tokenId = tokenId then
      .ok { db with
        webhooks := db.webhooks.updateKey id
          (fun row => if row.tokenId = tokenId then { row with isActive := false } else row)
          (by intro row; split <;> rfl) }
    else
      .error .queryReturnedNoRows

def getWebhooksDeliveryInfo (tokenId : Int) : DbM (List (String × String)) :=
  Sql.query .getWebhooksDeliveryInfo fun db =>
    (db.webhooks.rows.filter fun row => row.tokenId = tokenId && row.isActive).map fun row =>
      (row.url, row.secret)

-- ADDITIONAL TOKEN ADMIN QUERIES

def getActiveTokenRecords : DbM (List TokenRecord) :=
  Sql.query .getActiveTokenRecords fun db =>
    (db.tokens.rows.filter (·.isActive)).map fun row => ⟨row.id, row.name, row.createdAt⟩

-- RECENT JOBS QUERY

def getRecentJobs (tokenId : Int) (limit : Nat) : DbM (List JobSummary) :=
  Sql.query .getRecentJobs fun db =>
    let rows := db.jobs.rows.filter (·.tokenId = tokenId)
    ((rows.insertionSort (·.queuedAt ≥ ·.queuedAt)).take limit).map fun row =>
      ⟨row.id, row.project, row.gitRef, row.status, row.queuedAt, row.startedAt, row.finishedAt⟩

-- BUILD_CACHE QUERIES

def getCacheEntry (cacheKey : String) : DbM (Option String) :=
  Sql.query .getCacheEntry fun db => (db.buildCache.find? cacheKey).map (·.jobId)

def insertCacheEntry (cacheKey jobId createdAt : String) : DbM Unit :=
  Sql.execute .insertCacheEntry fun db =>
    if db.jobs.contains jobId then
      .ok { db with buildCache := db.buildCache.replace ⟨cacheKey, jobId, createdAt⟩ }
    else
      .error foreignKeyError

end Db

end Koval
