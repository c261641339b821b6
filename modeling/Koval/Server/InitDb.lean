import Koval.Server.Db
import Koval.Sql.Catalog

/-!
This module contains the start on a database file, which may be new, or left by an older version, or
by a start that was stopped.
-/

namespace Koval

open Sql

inductive DdlStmt where
  | open
  | foreignKeys
  | createTable (name : String)
  | tableInfo (column : String)
  | addColumn (column : String)
  deriving DecidableEq, Repr

namespace InitDb

-- One of the two values that stand for truth values.
def isTruthValue : Option (List Value) := some [.integer 0, .integer 1]

def tokens : Relation := {
  name := "tokens"
  columns := [
    { name := "id", type := .integer, primaryKey := true, autoincrement := true },
    { name := "token_hash", type := .text, notNull := true, unique := true },
    { name := "name", type := .text, notNull := true },
    { name := "created_at", type := .text, notNull := true },
    { name := "is_active", type := .integer, notNull := true, among := isTruthValue }
  ]
}

def jobType : Column := {
  name := "job_type"
  type := .text
  notNull := true
  among := some [.text "standard", .text "pgo_instrument", .text "pgo_optimize"]
  default := .text "standard"
}

def pgoSourceJobId : Column := { name := "pgo_source_job_id", type := .text }

def tokenKey : ForeignKey := { column := "token_id", table := "tokens", key := "id" }

def pgoSourceKey : ForeignKey := { column := "pgo_source_job_id", table := "jobs", key := "id" }

-- The columns that jobs have had in all versions.
def jobColumns : List Column := [
  { name := "id", type := .text, primaryKey := true },
  { name := "token_id", type := .integer, notNull := true },
  { name := "project", type := .text, notNull := true },
  { name := "git_ref", type := .text, notNull := true },
  { name := "hardware_json", type := .text, notNull := true },
  {
    name := "status"
    type := .text
    notNull := true
    among := some [.text "queued", .text "building", .text "done", .text "failed"]
  },
  { name := "queued_at", type := .text, notNull := true },
  { name := "started_at", type := .text },
  { name := "finished_at", type := .text },
  { name := "error_msg", type := .text }
]

def jobs : Relation := {
  name := "jobs"
  columns := jobColumns ++ [jobType, pgoSourceJobId]
  foreignKeys := [tokenKey, pgoSourceKey]
}

def pgoProfiles : Relation := {
  name := "pgo_profiles"
  columns := [
    { name := "instrument_job_id", type := .text, primaryKey := true },
    { name := "profiles_dir", type := .text, notNull := true },
    { name := "merged_path", type := .text },
    { name := "created_at", type := .text, notNull := true }
  ]
  foreignKeys := [
    { column := "instrument_job_id", table := "jobs", key := "id", onDeleteCascade := true }]
}

def artifacts : Relation := {
  name := "artifacts"
  columns := [
    { name := "job_id", type := .text, primaryKey := true },
    { name := "file_path", type := .text, notNull := true },
    { name := "file_size", type := .integer, notNull := true },
    { name := "sha256", type := .text, notNull := true }
  ]
  foreignKeys := [{ column := "job_id", table := "jobs", key := "id", onDeleteCascade := true }]
}

def rateLimit : Relation := {
  name := "rate_limit"
  columns := [
    { name := "token_id", type := .integer, notNull := true },
    { name := "window_start", type := .text, notNull := true },
    { name := "request_count", type := .integer, notNull := true }
  ]
  primaryKey := ["token_id", "window_start"]
  foreignKeys := [{ tokenKey with onDeleteCascade := true }]
}

def webhooks : Relation := {
  name := "webhooks"
  columns := [
    { name := "id", type := .integer, primaryKey := true, autoincrement := true },
    { name := "token_id", type := .integer, notNull := true },
    { name := "url", type := .text, notNull := true },
    { name := "secret", type := .text, notNull := true },
    { name := "created_at", type := .text, notNull := true },
    { name := "is_active", type := .integer, notNull := true, among := isTruthValue }
  ]
  foreignKeys := [tokenKey]
}

def buildCache : Relation := {
  name := "build_cache"
  columns := [
    { name := "cache_key", type := .text, primaryKey := true },
    { name := "job_id", type := .text, notNull := true },
    { name := "created_at", type := .text, notNull := true }
  ]
  foreignKeys := [{ column := "job_id", table := "jobs", key := "id", onDeleteCascade := true }]
}

def createTable (relation : Relation) : Sql DdlStmt Catalog Unit :=
  Sql.execute (.createTable relation.name) (Catalog.createTable relation)

-- For databases of older versions, which may lack the column.
def addMissingColumn (column : Column) (references : Option ForeignKey) :
    Sql DdlStmt Catalog Unit := do
  let hasColumn ← Sql.query (.tableInfo column.name) fun catalog =>
    (catalog.tableInfo "jobs").contains column.name
  if !hasColumn then
    Sql.execute (.addColumn column.name) (Catalog.addColumn "jobs" column references)

end InitDb

open InitDb in
def initDb : Sql DdlStmt Catalog Unit := do
  Sql.query .open fun _ => ()
  Sql.query .foreignKeys fun _ => ()
  createTable tokens
  createTable jobs
  addMissingColumn jobType none
  addMissingColumn pgoSourceJobId (some pgoSourceKey)
  createTable pgoProfiles
  createTable artifacts
  createTable rateLimit
  createTable webhooks
  createTable buildCache

namespace InitDb

/-- All tables are there, and jobs have the columns that they have not had from the beginning. -/
structure IsReady (catalog : Catalog) : Prop where
  tables : ∀ relation ∈ [tokens, jobs, pgoProfiles, artifacts, rateLimit, webhooks, buildCache],
    catalog.contains (foldName relation.name)
  columns : ∀ column ∈ [jobType, pgoSourceJobId], column.name ∈ catalog.tableInfo "jobs"

theorem settles_nothing (tag : DdlStmt)
    : Settles Catalog.Keeps (fun _ => True) (Sql.query tag fun _ : Catalog => ()) :=
  settles_query Catalog.keeps_refl tag

theorem settles_initDb : Settles Catalog.Keeps IsReady initDb := by
  have htrans := Catalog.Keeps.trans
  have hsettles := (settles_nothing .open).bind htrans <|
    (settles_nothing .foreignKeys).bind htrans <|
    (Catalog.settles_createTable (.createTable "tokens") tokens).bind htrans <|
    (Catalog.settles_createTable (.createTable "jobs") jobs).bind htrans <|
    (Catalog.settles_addColumn (.tableInfo "job_type") (.addColumn "job_type") "jobs" jobType
      none).bind htrans <|
    (Catalog.settles_addColumn (.tableInfo "pgo_source_job_id") (.addColumn "pgo_source_job_id")
      "jobs" pgoSourceJobId (some pgoSourceKey)).bind htrans <|
    (Catalog.settles_createTable (.createTable "pgo_profiles") pgoProfiles).bind htrans <|
    (Catalog.settles_createTable (.createTable "artifacts") artifacts).bind htrans <|
    (Catalog.settles_createTable (.createTable "rate_limit") rateLimit).bind htrans <|
    (Catalog.settles_createTable (.createTable "webhooks") webhooks).bind htrans <|
    Catalog.settles_createTable (.createTable "build_cache") buildCache
  apply hsettles.congr
  intro catalog
  simp only [List.contains_iff_mem]
  constructor
  . rintro ⟨_, _, htokens, hjobs, hjobType, hpgoSource, hpgoProfiles, hartifacts, hrateLimit, hwebhooks,
      hbuildCache⟩
    constructor
    . simp only [List.forall_mem_cons]
      exact ⟨htokens, hjobs, hpgoProfiles, hartifacts, hrateLimit, hwebhooks, hbuildCache,
        List.forall_mem_nil _⟩
    . simp only [List.forall_mem_cons]
      exact ⟨hjobType, hpgoSource, List.forall_mem_nil _⟩
  . rintro ⟨htables, hcolumns⟩
    simp only [List.forall_mem_cons] at htables hcolumns
    rcases htables with ⟨htokens, hjobs, hpgoProfiles, hartifacts, hrateLimit, hwebhooks, hbuildCache, _⟩
    rcases hcolumns with ⟨hjobType, hpgoSource, _⟩
    exact ⟨trivial, trivial, htokens, hjobs, hjobType, hpgoSource, hpgoProfiles, hartifacts, hrateLimit,
      hwebhooks, hbuildCache⟩

/-- There is no column of the name in other letters only. -/
def Admits (column : Column) (relation : Relation) : Prop :=
  column.name ∈ relation.columnNames
    ∨ ∀ old ∈ relation.columns, foldName old.name ≠ foldName column.name

instance (column : Column) (relation : Relation) : Decidable (Admits column relation) :=
  inferInstanceAs (Decidable (_ ∨ _))

def withColumn (column : Column) (references : Option ForeignKey) (relation : Relation) : Relation :=
  if column.name ∈ relation.columnNames then
    relation
  else
    relation.addColumn column references

-- What is left of the conditions on a column that is added.
def IsAddable (column : Column) (references : Option ForeignKey) : Prop :=
  ∀ relation : Relation, relation.refusal? column references = none
    ↔ ∀ old ∈ relation.columns, foldName old.name ≠ foldName column.name

theorem isAddable_of {column : Column} {references : Option ForeignKey}
    (hprimaryKey : column.primaryKey = false) (hunique : column.unique = false)
    (hreferences : references.isSome → column.default = .null)
    (hnotNull : column.notNull → column.default ≠ .null)
    (haccepts : column.accepts column.default)
    : IsAddable column references := by
  intro relation
  unfold Relation.refusal?
  rw [hprimaryKey, hunique]
  split
  . next hany =>
    simp only [List.any_eq_true, decide_eq_true_eq] at hany
    rcases hany with ⟨old, hold, hsame⟩
    constructor
    . intro h
      contradiction
    . intro h
      exact absurd hsame (h old hold)
  . next hany =>
    simp only [List.any_eq_true, decide_eq_true_eq, not_exists, not_and] at hany
    rw [if_neg Bool.false_ne_true, if_neg Bool.false_ne_true, if_neg, if_neg, if_neg]
    . exact ⟨fun _ => hany, fun _ => rfl⟩
    . rintro ⟨_, hnot⟩
      rw [haccepts] at hnot
      contradiction
    . rintro ⟨_, hnot, hnull⟩
      exact hnotNull hnot hnull
    . rintro ⟨_, hsome, hnull⟩
      exact hnull (hreferences hsome)

theorem isAddable_jobType : IsAddable jobType none := by
  apply isAddable_of <;> decide

theorem isAddable_pgoSourceJobId : IsAddable pgoSourceJobId (some pgoSourceKey) := by
  apply isAddable_of <;> decide

theorem run_createTable (relation : Relation) (catalog : Catalog)
    : ∃ catalog',
        (createTable relation).run .none catalog = (.ok (), catalog')
          ∧
        ∀ name, catalog'.find? name
          = if name = foldName relation.name then
              some ((catalog.find? name).getD relation)
            else
              catalog.find? name := by
  refine ⟨_, rfl, ?_⟩
  intro name
  have hfind := @Catalog.find?_createTable relation catalog _ rfl name
  rw [hfind]
  split
  . next h => rw [if_pos h.left, h.right, Option.getD_none]
  . next h =>
    split
    . next hname =>
      cases hold : catalog.find? name with
      | none => exact absurd ⟨hname, hold⟩ h
      | some old => rfl
    . rfl

theorem run_addMissingColumn {column : Column} {references : Option ForeignKey}
    (haddable : IsAddable column references) {catalog : Catalog} {relation : Relation}
    (hjobs : catalog.find? "jobs" = some relation)
    : (Admits column relation → ∃ catalog',
        (addMissingColumn column references).run .none catalog = (.ok (), catalog')
          ∧
        ∀ name, catalog'.find? name
          = if name = "jobs" then
              some (withColumn column references relation)
            else
              catalog.find? name)
        ∧
      (¬ Admits column relation →
        ∃ err, (addMissingColumn column references).run .none catalog = (.error err, catalog)) := by
  have hfold : foldName "jobs" = "jobs" := by decide
  have hinfo : catalog.tableInfo "jobs" = relation.columnNames := by
    unfold Catalog.tableInfo
    rw [hfold, hjobs]
  unfold addMissingColumn
  rw [run_bind, run_query_none, hinfo]
  by_cases hmem : column.name ∈ relation.columnNames
  . have hcontains : relation.columnNames.contains column.name = true := List.contains_iff_mem.mpr hmem
    simp only [hcontains]
    constructor
    . intro _
      refine ⟨catalog, rfl, ?_⟩
      intro name
      unfold withColumn
      rw [if_pos hmem]
      split
      . next hname => rw [hname, hjobs]
      . rfl
    . intro hnot
      exact absurd (.inl hmem) hnot
  . have hcontains : relation.columnNames.contains column.name = false := by
      rw [Bool.eq_false_iff]
      exact fun h => hmem (List.contains_iff_mem.mp h)
    simp only [hcontains]
    have hiff : relation.refusal? column references = none ↔ Admits column relation := by
      rw [haddable relation]
      exact ⟨.inr, fun h => h.resolve_left hmem⟩
    have hrun : ∀ {res : Except SqlError Catalog},
        catalog.addColumn "jobs" column references = res →
          (if (!false) = true then
            Sql.execute (DdlStmt.addColumn column.name) (Catalog.addColumn "jobs" column references)
          else
            pure ()).run .none catalog
            =
          (res.map fun _ => (), res.toOption.getD catalog) := by
      intro res hres
      have htrue : (!false) = true := rfl
      rw [if_pos htrue, run_execute_none, hres]
      cases res <;> rfl
    constructor
    . intro hadmits
      cases hadd : catalog.addColumn "jobs" column references with
      | ok catalog' =>
        refine ⟨catalog', hrun hadd, ?_⟩
        rcases Catalog.addColumn_eq_ok hadd with ⟨relation', hrelation', _, hfind⟩
        rw [hfold] at hrelation' hfind
        rw [hjobs] at hrelation'
        injection hrelation' with hrelation'
        intro name
        unfold withColumn
        rw [hfind, if_neg hmem, hrelation']
      | error err =>
        unfold Catalog.addColumn at hadd
        rw [hfold, hjobs] at hadd
        dsimp only at hadd
        rw [hiff.mpr hadmits] at hadd
        contradiction
    . intro hnot
      cases hadd : catalog.addColumn "jobs" column references with
      | ok catalog' =>
        rcases Catalog.addColumn_eq_ok hadd with ⟨relation', hrelation', hnone, _⟩
        rw [hfold, hjobs] at hrelation'
        injection hrelation' with hrelation'
        rw [← hrelation'] at hnone
        exact absurd (hiff.mp hnone) hnot
      | error err => exact ⟨err, hrun hadd⟩

@[simp] theorem foldName_tokens : foldName tokens.name = "tokens" := by decide
@[simp] theorem foldName_jobs : foldName jobs.name = "jobs" := by decide
@[simp] theorem foldName_pgoProfiles : foldName pgoProfiles.name = "pgo_profiles" := by decide
@[simp] theorem foldName_artifacts : foldName artifacts.name = "artifacts" := by decide
@[simp] theorem foldName_rateLimit : foldName rateLimit.name = "rate_limit" := by decide
@[simp] theorem foldName_webhooks : foldName webhooks.name = "webhooks" := by decide
@[simp] theorem foldName_buildCache : foldName buildCache.name = "build_cache" := by decide

def upgraded (relation : Relation) : Relation :=
  withColumn pgoSourceJobId (some pgoSourceKey) (withColumn jobType none relation)

theorem admits_withColumn {column : Column} {references : Option ForeignKey} {relation : Relation}
    {other : Column} (hne : foldName other.name ≠ foldName column.name)
    : Admits column (withColumn other references relation) ↔ Admits column relation := by
  have hne' : other.name ≠ column.name := fun h => hne (congrArg foldName h)
  unfold withColumn Admits Relation.columnNames
  split
  . rfl
  . simp only [Relation.addColumn, List.map_append, List.map_cons, List.map_nil, List.mem_append,
      List.mem_singleton, or_imp, forall_and, forall_eq, ne_eq, hne, not_false_eq_true, and_true,
      Ne.symm hne', or_false]

theorem run_initDb (catalog : Catalog)
    : let relation := (catalog.find? "jobs").getD jobs
      (Admits jobType relation ∧ Admits pgoSourceJobId relation → ∃ catalog',
        initDb.run .none catalog = (.ok (), catalog')
          ∧
        catalog'.find? "jobs" = some (upgraded relation)
          ∧
        ∀ table ∈ [tokens, pgoProfiles, artifacts, rateLimit, webhooks, buildCache],
          catalog'.find? (foldName table.name)
            = some ((catalog.find? (foldName table.name)).getD table))
        ∧
      (¬ (Admits jobType relation ∧ Admits pgoSourceJobId relation) →
        ∃ err catalog', initDb.run .none catalog = (.error err, catalog')) := by
  intro relation
  rcases run_createTable tokens catalog with ⟨c₁, hrun₁, hfind₁⟩
  rcases run_createTable jobs c₁ with ⟨c₂, hrun₂, hfind₂⟩
  have hjobs₂ : c₂.find? "jobs" = some relation := by
    rw [hfind₂, if_pos foldName_jobs.symm, hfind₁, if_neg]
    rw [foldName_tokens]
    decide
  have ⟨hadds₃, hfails₃⟩ := run_addMissingColumn isAddable_jobType hjobs₂
  have hstart : initDb.run .none catalog
      = Sql.run (do
          addMissingColumn jobType none
          addMissingColumn pgoSourceJobId (some pgoSourceKey)
          createTable pgoProfiles
          createTable artifacts
          createTable rateLimit
          createTable webhooks
          createTable buildCache) .none c₂ := by
    unfold initDb
    rw [run_bind, run_query_none]
    dsimp only
    rw [run_bind, run_query_none]
    dsimp only
    rw [run_bind, hrun₁]
    dsimp only
    rw [run_bind, hrun₂]
  have hdistinct : foldName jobType.name ≠ foldName pgoSourceJobId.name := by decide
  rw [hstart]
  by_cases hjobType : Admits jobType relation
  swap
  . rcases hfails₃ hjobType with ⟨err, hrun₃⟩
    refine ⟨fun h => absurd h.left hjobType, fun _ => ⟨err, c₂, ?_⟩⟩
    rw [run_bind, hrun₃]
  rcases hadds₃ hjobType with ⟨c₃, hrun₃, hfind₃⟩
  have hjobs₃ := hfind₃ "jobs"
  rw [if_pos rfl] at hjobs₃
  have ⟨hadds₄, hfails₄⟩ := run_addMissingColumn isAddable_pgoSourceJobId hjobs₃
  rw [admits_withColumn hdistinct] at hadds₄ hfails₄
  rw [run_bind, hrun₃]
  dsimp only
  by_cases hpgoSource : Admits pgoSourceJobId relation
  swap
  . rcases hfails₄ hpgoSource with ⟨err, hrun₄⟩
    refine ⟨fun h => absurd h.right hpgoSource, fun _ => ⟨err, c₃, ?_⟩⟩
    rw [run_bind, hrun₄]
  rcases hadds₄ hpgoSource with ⟨c₄, hrun₄, hfind₄⟩
  rcases run_createTable pgoProfiles c₄ with ⟨c₅, hrun₅, hfind₅⟩
  rcases run_createTable artifacts c₅ with ⟨c₆, hrun₆, hfind₆⟩
  rcases run_createTable rateLimit c₆ with ⟨c₇, hrun₇, hfind₇⟩
  rcases run_createTable webhooks c₇ with ⟨c₈, hrun₈, hfind₈⟩
  rcases run_createTable buildCache c₈ with ⟨c₉, hrun₉, hfind₉⟩
  refine ⟨fun _ => ⟨c₉, ?_, ?_, ?_⟩, fun h => absurd ⟨hjobType, hpgoSource⟩ h⟩
  . rw [run_bind, hrun₄]
    dsimp only
    rw [run_bind, hrun₅]
    dsimp only
    rw [run_bind, hrun₆]
    dsimp only
    rw [run_bind, hrun₇]
    dsimp only
    rw [run_bind, hrun₈]
    exact hrun₉
  . simp [hfind₉, hfind₈, hfind₇, hfind₆, hfind₅, hfind₄, upgraded]
  . simp [hfind₉, hfind₈, hfind₇, hfind₆, hfind₅, hfind₄, hfind₃, hfind₂, hfind₁]

end InitDb

end Koval
