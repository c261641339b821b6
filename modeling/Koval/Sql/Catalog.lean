import Koval.Sql.Rows
import Koval.Sql.Settles

/-!
This module contains the tables of a database file with their definitions, and the statements that
change definitions. The file has ordinary tables only: no indexes, views, triggers or virtual tables of
its own, whose names and definitions SQLite would have to look at, too. No column is generated, there
are not so many that SQLite takes no more, and the rows satisfy the constraints of their tables.
-/

namespace Sql

inductive Value where
  | null
  | integer (n : Int)
  | text (s : String)
  deriving DecidableEq, Repr

inductive ColumnType where
  | integer
  | text
  deriving DecidableEq, Repr

structure Column where
  name : String
  type : ColumnType
  primaryKey : Bool := false
  autoincrement : Bool := false
  notNull : Bool := false
  unique : Bool := false
  -- `CHECK` that the value is among these
  among : Option (List Value) := none
  default : Value := .null
  deriving DecidableEq, Repr

structure ForeignKey where
  column : String
  table : String
  key : String
  onDeleteCascade : Bool := false
  deriving DecidableEq, Repr

def Column.accepts (column : Column) (value : Value) : Bool :=
  match column.among with
  | some values => value = .null || value ∈ values
  | none => true

-- Names that differ in the case of ASCII letters only are the same.
def foldName (name : String) : String := String.ofList (name.toList.map Char.toLower)

structure Relation where
  name : String
  columns : List Column
  -- one of several columns
  primaryKey : List String := []
  foreignKeys : List ForeignKey := []
  rows : List (List Value) := []
  -- the greatest `AUTOINCREMENT` value so far
  lastId : Int := 0
  wide : ∀ row ∈ rows, row.length = columns.length := by simp

namespace Relation

theorem eq_iff {relation relation' : Relation}
    : relation = relation'
        ↔ relation.name = relation'.name ∧ relation.columns = relation'.columns
          ∧ relation.primaryKey = relation'.primaryKey
          ∧ relation.foreignKeys = relation'.foreignKeys
          ∧ relation.rows = relation'.rows ∧ relation.lastId = relation'.lastId := by
  cases relation
  cases relation'
  simp

instance : DecidableEq Relation := fun _ _ => decidable_of_iff' _ eq_iff

def columnNames (relation : Relation) : List String := relation.columns.map (·.name)

def addColumn (column : Column) (references : Option ForeignKey) (relation : Relation) : Relation where
  name := relation.name
  columns := relation.columns ++ [column]
  primaryKey := relation.primaryKey
  foreignKeys := relation.foreignKeys ++ references.toList
  rows := relation.rows.map (· ++ [column.default])
  lastId := relation.lastId
  wide := by
    intro row hrow
    rcases List.mem_map.mp hrow with ⟨old, hold, rfl⟩
    rw [List.length_append, List.length_append, relation.wide old hold]
    rfl

theorem foldName_addColumn (column : Column) (references : Option ForeignKey) (relation : Relation)
    : foldName (relation.addColumn column references).name = foldName relation.name := rfl

-- Why the column cannot be added.
def refusal? (column : Column) (references : Option ForeignKey) (relation : Relation) :
    Option String :=
  if relation.columns.any fun old => foldName old.name = foldName column.name then
    some ("duplicate column name: " ++ column.name)
  else if column.primaryKey then
    some "Cannot add a PRIMARY KEY column"
  else if column.unique then
    some "Cannot add a UNIQUE column"
  else if relation.rows ≠ [] ∧ references.isSome ∧ column.default ≠ .null then
    some "Cannot add a REFERENCES column with non-NULL default value"
  else if relation.rows ≠ [] ∧ column.notNull ∧ column.default = .null then
    some "Cannot add a NOT NULL column with default value NULL"
  else if relation.rows ≠ [] ∧ !column.accepts column.default then
    some "CHECK constraint failed"
  else
    none

def IsWidened (relation relation' : Relation) : Prop :=
  ∃ extra : List Column,
    relation'.name = relation.name
      ∧ relation'.columns = relation.columns ++ extra
      ∧ relation'.rows = relation.rows.map (· ++ extra.map (·.default))
      ∧ relation'.lastId = relation.lastId

theorem isWidened_refl (relation : Relation) : relation.IsWidened relation := by
  refine ⟨[], rfl, (List.append_nil _).symm, ?_, rfl⟩
  simp

theorem IsWidened.trans {relation relation' relation'' : Relation} (h : relation.IsWidened relation')
    (h' : relation'.IsWidened relation'')
    : relation.IsWidened relation'' := by
  rcases h with ⟨extra, hname, hcolumns, hrows, hlastId⟩
  rcases h' with ⟨extra', hname', hcolumns', hrows', hlastId'⟩
  refine ⟨extra ++ extra', hname'.trans hname, ?_, ?_, hlastId'.trans hlastId⟩
  . rw [hcolumns', hcolumns, List.append_assoc]
  . rw [hrows', hrows, List.map_map]
    apply List.map_congr_left
    intro row _
    simp

theorem isWidened_addColumn (column : Column) (references : Option ForeignKey) (relation : Relation)
    : relation.IsWidened (relation.addColumn column references) :=
  ⟨[column], rfl, rfl, rfl, rfl⟩

theorem IsWidened.mem_columnNames {relation relation' : Relation} (h : relation.IsWidened relation')
    {name : String} (hname : name ∈ relation.columnNames)
    : name ∈ relation'.columnNames := by
  rcases h with ⟨extra, _, hcolumns, _, _⟩
  unfold columnNames at *
  rw [hcolumns, List.map_append]
  exact List.mem_append_left _ hname

end Relation

abbrev Catalog := Table fun relation : Relation => foldName relation.name

namespace Catalog

/-- `CREATE TABLE IF NOT EXISTS`. -/
def createTable (relation : Relation) (catalog : Catalog) : Except SqlError Catalog :=
  .ok ((catalog.insert? relation).getD catalog)

/-- The names that `PRAGMA table_info` lists. -/
def tableInfo (name : String) (catalog : Catalog) : List String :=
  match catalog.find? (foldName name) with
  | some relation => relation.columnNames
  | none => []

/-- `ALTER TABLE ADD COLUMN`. -/
def addColumn (name : String) (column : Column) (references : Option ForeignKey) (catalog : Catalog) :
    Except SqlError Catalog :=
  match catalog.find? (foldName name) with
  | some relation =>
    match relation.refusal? column references with
    | some msg => .error (.failure msg)
    | none =>
      .ok (catalog.updateKey (foldName name) (·.addColumn column references)
        (Relation.foldName_addColumn column references))
  | none => .error (.failure ("no such table: " ++ name))

def Keeps (catalog catalog' : Catalog) : Prop :=
  ∀ name relation, catalog.find? name = some relation →
    ∃ relation', catalog'.find? name = some relation' ∧ relation.IsWidened relation'

theorem keeps_refl (catalog : Catalog) : catalog.Keeps catalog :=
  fun _ relation hrelation => ⟨relation, hrelation, relation.isWidened_refl⟩

theorem Keeps.trans (catalog catalog' catalog'' : Catalog) (h : catalog.Keeps catalog')
    (h' : catalog'.Keeps catalog'')
    : catalog.Keeps catalog'' := by
  intro name relation hrelation
  rcases h name relation hrelation with ⟨relation', hrelation', hwidened⟩
  rcases h' name relation' hrelation' with ⟨relation'', hrelation'', hwidened'⟩
  exact ⟨relation'', hrelation'', hwidened.trans hwidened'⟩

variable {relation : Relation} {catalog catalog' : Catalog} {name : String} {column : Column}
  {references : Option ForeignKey}

theorem Keeps.contains (h : catalog.Keeps catalog') (hname : catalog.contains name)
    : catalog'.contains name := by
  rw [Table.contains_iff] at hname ⊢
  rcases hname with ⟨relation, hrelation⟩
  rcases h name relation hrelation with ⟨relation', hrelation', _⟩
  exact ⟨relation', hrelation'⟩

theorem Keeps.mem_tableInfo (h : catalog.Keeps catalog') {columnName : String}
    (hmem : columnName ∈ catalog.tableInfo name)
    : columnName ∈ catalog'.tableInfo name := by
  unfold tableInfo at *
  split at hmem
  . next relation hrelation =>
    rcases h _ relation hrelation with ⟨relation', hrelation', hwidened⟩
    rw [hrelation']
    exact hwidened.mem_columnNames hmem
  . contradiction

theorem find?_createTable (h : catalog.createTable relation = .ok catalog') (name : String)
    : catalog'.find? name
        =
      if name = foldName relation.name ∧ catalog.find? name = none then
        some relation
      else
        catalog.find? name := by
  unfold createTable at h
  injection h with h
  rw [← h]
  cases hinsert : catalog.insert? relation with
  | none =>
    have hcontains := Table.insert?_eq_none_iff.mp hinsert
    rw [Option.getD_none, if_neg]
    rintro ⟨rfl, hnone⟩
    unfold Table.contains at hcontains
    rw [hnone] at hcontains
    contradiction
  | some inserted =>
    rw [Option.getD_some, Table.find?_of_insert? hinsert]
    by_cases hname : name = foldName relation.name
    . have hfresh := Table.find?_fresh_of_insert? hinsert
      rw [if_pos hname, if_pos ⟨hname, hname ▸ hfresh⟩]
    . rw [if_neg hname, if_neg fun h => hname h.left]

theorem keeps_createTable (h : catalog.createTable relation = .ok catalog')
    : catalog.Keeps catalog' := by
  intro name old hold
  refine ⟨old, ?_, old.isWidened_refl⟩
  rw [find?_createTable h, hold, if_neg fun h => Option.some_ne_none _ h.right]

theorem contains_createTable (h : catalog.createTable relation = .ok catalog')
    : catalog'.contains (foldName relation.name) := by
  unfold Table.contains
  rw [find?_createTable h]
  split
  . rfl
  . next hnot =>
    cases hfind : catalog.find? (foldName relation.name) with
    | none => exact absurd ⟨rfl, hfind⟩ hnot
    | some relation => rfl

theorem createTable_of_contains (h : catalog.contains (foldName relation.name))
    : catalog.createTable relation = .ok catalog := by
  unfold createTable
  rw [Table.insert?_eq_none_iff.mpr h]
  rfl

theorem settles_createTable {stmt : Type} (tag : stmt) (relation : Relation)
    : Settles Keeps (fun catalog => catalog.contains (foldName relation.name) = true)
        (execute tag (createTable relation)) :=
  settles_execute keeps_refl Keeps.contains tag (fun _ _ => keeps_createTable)
    (fun _ _ => contains_createTable) (fun _ => createTable_of_contains)

theorem addColumn_eq_ok (h : catalog.addColumn name column references = .ok catalog')
    : ∃ relation,
        catalog.find? (foldName name) = some relation
          ∧
        relation.refusal? column references = none
          ∧
        ∀ name', catalog'.find? name'
          = if name' = foldName name then
              some (relation.addColumn column references)
            else
              catalog.find? name' := by
  unfold addColumn at h
  split at h
  . next relation hrelation =>
    split at h
    . contradiction
    . next hrefusal =>
      injection h with h
      refine ⟨relation, hrelation, hrefusal, ?_⟩
      intro name'
      rw [← h, Table.find?_updateKey]
      split
      . next hname =>
        rw [hname, hrelation]
        rfl
      . rfl
  . contradiction

theorem keeps_addColumn (h : catalog.addColumn name column references = .ok catalog')
    : catalog.Keeps catalog' := by
  rcases addColumn_eq_ok h with ⟨relation, hrelation, _, hfind⟩
  intro name' old hold
  rw [hfind]
  split
  . next hname =>
    rw [hname, hrelation] at hold
    injection hold with hold
    exact ⟨_, rfl, hold ▸ relation.isWidened_addColumn column references⟩
  . exact ⟨old, hold, old.isWidened_refl⟩

theorem mem_tableInfo_addColumn (h : catalog.addColumn name column references = .ok catalog')
    : column.name ∈ catalog'.tableInfo name := by
  rcases addColumn_eq_ok h with ⟨relation, _, _, hfind⟩
  unfold tableInfo
  rw [hfind, if_pos rfl]
  simp [Relation.columnNames, Relation.addColumn]

theorem settles_addColumn {stmt : Type} (tag tag' : stmt) (name : String) (column : Column)
    (references : Option ForeignKey)
    : Settles Keeps (fun catalog => (catalog.tableInfo name).contains column.name = true)
        (do
          let found ← query tag fun catalog : Catalog =>
            (catalog.tableInfo name).contains column.name
          if !found then
            execute tag' (addColumn name column references)) := by
  apply settles_guarded tag tag' keeps_refl
  . intro catalog catalog' hkeeps hmem
    rw [List.contains_iff_mem] at hmem ⊢
    exact hkeeps.mem_tableInfo hmem
  . exact fun _ _ => keeps_addColumn
  . intro catalog catalog' h
    rw [List.contains_iff_mem]
    exact mem_tableInfo_addColumn h

end Catalog

end Sql
