import Koval.Server.InitDb
import Koval.Server.Samples

/-!
This module contains database files of all versions of the server, and what the current one makes of
them.
-/

namespace Koval

open Sql InitDb

def Status.text (status : Status) : String :=
  match status with
  | queued => "queued"
  | building => "building"
  | done => "done"
  | failed => "failed"

def JobType.text (jobType : JobType) : String :=
  match jobType with
  | standard => "standard"
  | pgoInstrument => "pgo_instrument"
  | pgoOptimize => "pgo_optimize"

namespace Versions

def ofBool (b : Bool) : Value := .integer (if b then 1 else 0)

def ofOption (text : Option String) : Value :=
  match text with
  | some text => .text text
  | none => .null

def tokenValues (row : Token) : List Value :=
  [.integer row.id, .text row.tokenHash, .text row.name, .text row.createdAt, ofBool row.isActive]

-- The values of the columns that jobs have had in all versions.
def firstJobValues (row : JobRow) : List Value :=
  [.text row.id, .integer row.tokenId, .text row.project, .text row.gitRef, .text row.hardwareJson,
    .text row.status.text, .text row.queuedAt, ofOption row.startedAt, ofOption row.finishedAt,
    ofOption row.errorMsg]

def jobValues (row : JobRow) : List Value :=
  firstJobValues row ++ [.text row.jobType.text, ofOption row.pgoSourceJobId]

def pgoProfileValues (row : PgoProfileRow) : List Value :=
  [.text row.instrumentJobId, .text row.profilesDir, ofOption row.mergedPath, .text row.createdAt]

def artifactValues (row : ArtifactRow) : List Value :=
  [.text row.jobId, .text row.filePath, .integer row.fileSize, .text row.sha256]

def rateLimitValues (row : RateLimitRow) : List Value :=
  [.integer row.tokenId, .text row.windowStart, .integer row.requestCount]

def webhookValues (row : WebhookRow) : List Value :=
  [.integer row.id, .integer row.tokenId, .text row.url, .text row.secret, .text row.createdAt,
    ofBool row.isActive]

def cacheValues (row : CacheRow) : List Value :=
  [.text row.cacheKey, .text row.jobId, .text row.createdAt]

def filled {ρ : Type} (relation : Relation) (values : ρ → List Value)
    (h : ∀ row, (values row).length = relation.columns.length) (rows : List ρ) (lastId : Int := 0) :
    Relation := { relation with
  rows := rows.map values
  lastId
  wide := by
    intro row hrow
    rcases List.mem_map.mp hrow with ⟨old, _, rfl⟩
    exact h old }

-- The tables of the current version, each with its definition, but for the jobs.
def stored (db : Db) : List (Relation × Relation) := [
  (tokens, filled tokens tokenValues (fun _ => rfl) db.tokens.rows db.lastTokenId),
  (pgoProfiles, filled pgoProfiles pgoProfileValues (fun _ => rfl) db.pgoProfiles.rows),
  (artifacts, filled artifacts artifactValues (fun _ => rfl) db.artifacts.rows),
  (rateLimit, filled rateLimit rateLimitValues (fun _ => rfl) db.rateLimit.rows),
  (webhooks, filled webhooks webhookValues (fun _ => rfl) db.webhooks.rows db.lastWebhookId),
  (buildCache, filled buildCache cacheValues (fun _ => rfl) db.buildCache.rows)
]

def storedJobs (db : Db) : Relation := filled jobs jobValues (fun _ => rfl) db.jobs.rows

structure IsFileOf (db : Db) (catalog : Catalog) : Prop where
  jobs : catalog.find? "jobs" = some (storedJobs db)
  others : ∀ entry ∈ stored db, catalog.find? (foldName entry.fst.name) = some entry.snd

-- What has become of a table of jobs in the versions since.
def Precedes (relation relation' : Relation) : Prop :=
  relation = relation'
    ∨ relation.addColumn pgoSourceJobId (some pgoSourceKey) = relation'
    ∨ (relation.addColumn jobType none).addColumn pgoSourceJobId (some pgoSourceKey) = relation'

/-- The same where tables without rows may be missing, and jobs may lack their last columns. -/
structure IsOldFileOf (db : Db) (catalog : Catalog) : Prop where
  jobs : Precedes ((catalog.find? "jobs").getD InitDb.jobs) (storedJobs db)
  others : ∀ entry ∈ stored db, (catalog.find? (foldName entry.fst.name)).getD entry.fst = entry.snd

/-- The values are such as the columns take. -/
def IsChecked (relation : Relation) : Prop :=
  ∀ row ∈ relation.rows, ∀ entry ∈ relation.columns.zip row,
    entry.fst.accepts entry.snd ∧ (entry.fst.notNull → entry.snd ≠ .null)

theorem isChecked_filled {ρ : Type} {relation : Relation} {values : ρ → List Value}
    {h : ∀ row, (values row).length = relation.columns.length} {rows : List ρ} {lastId : Int}
    (hvalues : ∀ row, ∀ entry ∈ relation.columns.zip (values row),
      entry.fst.accepts entry.snd ∧ (entry.fst.notNull → entry.snd ≠ .null))
    : IsChecked (filled relation values h rows lastId) := by
  intro row hrow
  rcases List.mem_map.mp hrow with ⟨old, _, rfl⟩
  exact hvalues old

theorem isChecked_storedJobs (db : Db) : IsChecked (storedJobs db) := by
  apply isChecked_filled
  intro row
  have hstatus : row.status.text ∈ ["queued", "building", "done", "failed"] := by
    cases row.status <;> decide
  have hjobType : row.jobType.text ∈ ["standard", "pgo_instrument", "pgo_optimize"] := by
    cases row.jobType <;> decide
  simp only [List.mem_cons, List.not_mem_nil, or_false] at hstatus hjobType
  simp [jobs, jobColumns, jobType, pgoSourceJobId, jobValues, firstJobValues, Column.accepts, hstatus,
    hjobType]

theorem isChecked_stored (db : Db) : ∀ entry ∈ stored db, IsChecked entry.snd := by
  have hofBool : ∀ b, ofBool b = .integer 0 ∨ ofBool b = .integer 1 := by decide
  have hnull : ∀ b, ofBool b ≠ .null := by decide
  simp only [stored, List.forall_mem_cons]
  refine ⟨?_, ?_, ?_, ?_, ?_, ?_, List.forall_mem_nil _⟩
  all_goals
    apply isChecked_filled
    intro row
  . simp [tokens, tokenValues, Column.accepts, isTruthValue, hofBool, hnull]
  . simp [pgoProfiles, pgoProfileValues, Column.accepts]
  . simp [artifacts, artifactValues, Column.accepts]
  . simp [rateLimit, rateLimitValues, Column.accepts]
  . simp [webhooks, webhookValues, Column.accepts, isTruthValue, hofBool, hnull]
  . simp [buildCache, cacheValues, Column.accepts]

theorem admits_of_columns {column : Column} {relation : Relation} {columns : List Column}
    (hcolumns : relation.columns = columns)
    (h : ∀ old ∈ columns, old.name = column.name ∨ foldName old.name ≠ foldName column.name)
    : Admits column relation := by
  unfold Admits Relation.columnNames
  rw [hcolumns]
  by_cases hmem : column.name ∈ columns.map (·.name)
  . exact .inl hmem
  . right
    intro old hold
    apply (h old hold).resolve_left
    intro hname
    exact hmem (List.mem_map.mpr ⟨old, hold, hname⟩)

theorem withColumn_of_mem {column : Column} {references : Option ForeignKey} {relation : Relation}
    {columns : List Column} (hcolumns : relation.columns = columns)
    (h : column.name ∈ columns.map (·.name))
    : withColumn column references relation = relation := by
  unfold withColumn Relation.columnNames
  rw [hcolumns, if_pos h]

theorem withColumn_of_not_mem {column : Column} {references : Option ForeignKey} {relation : Relation}
    {columns : List Column} (hcolumns : relation.columns = columns)
    (h : column.name ∉ columns.map (·.name))
    : withColumn column references relation = relation.addColumn column references := by
  unfold withColumn Relation.columnNames
  rw [hcolumns, if_neg h]

theorem Precedes.upgraded {relation relation' : Relation} (h : Precedes relation relation')
    (hcolumns' : relation'.columns = jobColumns ++ [jobType, pgoSourceJobId])
    : (Admits jobType relation ∧ Admits pgoSourceJobId relation) ∧ upgraded relation = relation' := by
  unfold InitDb.upgraded
  rcases h with rfl | rfl | rfl
  . refine ⟨⟨admits_of_columns hcolumns' (by decide), admits_of_columns hcolumns' (by decide)⟩, ?_⟩
    rw [withColumn_of_mem hcolumns' (by decide), withColumn_of_mem hcolumns' (by decide)]
  . have hcolumns : relation.columns = jobColumns ++ [jobType] :=
      @List.append_cancel_right _ _ [pgoSourceJobId] _ hcolumns'
    refine ⟨⟨admits_of_columns hcolumns (by decide), admits_of_columns hcolumns (by decide)⟩, ?_⟩
    rw [withColumn_of_mem hcolumns (by decide), withColumn_of_not_mem hcolumns (by decide)]
  . have hcolumns : relation.columns = jobColumns := by
      apply @List.append_cancel_right _ _ [jobType, pgoSourceJobId]
      rw [← hcolumns']
      simp [Relation.addColumn]
    have hadded : (relation.addColumn jobType none).columns = jobColumns ++ [jobType] := by
      rw [← hcolumns]
      rfl
    refine ⟨⟨admits_of_columns hcolumns (by decide), admits_of_columns hcolumns (by decide)⟩, ?_⟩
    rw [withColumn_of_not_mem hcolumns (by decide), withColumn_of_not_mem hadded (by decide)]

def firstJobs (rows : List JobRow) : Relation :=
  filled { jobs with columns := jobColumns, foreignKeys := [tokenKey], wide := by simp [jobs] }
    firstJobValues (fun _ => rfl) rows

/-- Jobs as there have been from the beginning. -/
theorem precedes_firstJobs {db : Db}
    (h : ∀ row ∈ db.jobs.rows, row.jobType = .standard ∧ row.pgoSourceJobId = none)
    : Precedes (firstJobs db.jobs.rows) (storedJobs db) := by
  right
  right
  rw [Relation.eq_iff]
  refine ⟨rfl, rfl, rfl, rfl, ?_, rfl⟩
  simp only [Relation.addColumn, firstJobs, storedJobs, filled, List.map_map]
  apply List.map_congr_left
  intro row hrow
  unfold Function.comp jobValues
  rw [(h row hrow).left, (h row hrow).right]
  exact List.append_assoc _ _ _

end Versions

open Versions in
/--
A file of any version, whatever has stopped earlier starts on it, becomes the file of the current
version with the same rows, in which old jobs are standard ones without a source.
-/
theorem initDb_upgrades {db : Db} {catalog : Catalog} (h : IsOldFileOf db catalog)
    (runs : List (Faults DdlStmt))
    : ∃ catalog',
        initDb.run .none (initDb.attempts runs catalog) = (.ok (), catalog')
          ∧
        IsFileOf db catalog'
          ∧
        IsChecked (storedJobs db) ∧ ∀ entry ∈ stored db, IsChecked entry.snd := by
  have ⟨hadmits, hupgraded⟩ := h.jobs.upgraded rfl
  rcases (run_initDb catalog).left hadmits with ⟨catalog', hrun, hjobs, htables⟩
  refine ⟨catalog', ?_, ⟨?_, ?_⟩, isChecked_storedJobs db, isChecked_stored db⟩
  . rw [settles_initDb.run_attempts]
    exact hrun
  . rw [hjobs, hupgraded]
  . intro entry hentry
    have hold := h.others entry hentry
    have htable : entry.fst ∈ [tokens, pgoProfiles, artifacts, rateLimit, webhooks, buildCache] :=
      List.mem_map_of_mem (f := Prod.fst) hentry
    rw [htables entry.fst htable, hold]

-- A file of the first version, whose upgrade has been stopped between the columns.
theorem initDb_upgrades_first
    : ∃ (db : Db) (catalog catalog' : Catalog),
        db.jobs.rows ≠ [] ∧ catalog.rows.length = 2
          ∧
        initDb.run .none (initDb.attempts
            [fun stmt => if stmt = .addColumn "pgo_source_job_id" then some "disk I/O error" else none]
            catalog)
          = (.ok (), catalog')
          ∧
        Versions.IsFileOf db catalog' := by
  let db := (Samples.received "https://github.com/a/b").db
  let catalog : Catalog := ⟨[
    Versions.filled tokens Versions.tokenValues (fun _ => rfl) db.tokens.rows db.lastTokenId,
    Versions.firstJobs db.jobs.rows], by decide⟩
  have hjobs : catalog.find? "jobs" = some (Versions.firstJobs db.jobs.rows) := by
    decide +kernel
  have hold : Versions.IsOldFileOf db catalog := by
    constructor
    . rw [hjobs]
      exact @Versions.precedes_firstJobs db (by decide)
    . decide
  rcases initDb_upgrades hold
      [fun stmt => if stmt = .addColumn "pgo_source_job_id" then some "disk I/O error" else none] with
    ⟨catalog', hrun, hfile, _⟩
  exact ⟨db, catalog, catalog', by decide, rfl, hrun, hfile⟩

end Koval
