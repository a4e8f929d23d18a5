import ModelSchema.Graph.Basic
import ModelSchema.Sql.Dialect

/-!
# Tables

The table of a persistent class: its columns, keys and indexes, and every identifier that scripts
derive from it.
-/

namespace ModelSchema.Sql

/-- Why scripts cannot be written. -/
inductive Error where
  /-- An identifier is longer than the engine allows. -/
  | identifierTooLong (identifier : String) (engine : Engine)
  /-- A column has no type. -/
  | missingDomain (className property : String)
  /-- No order of the lists puts every list after those it refers to. -/
  | unorderable (classNames : List String)
  /-- A file cannot be written. -/
  | unwritable (reason : String)
deriving DecidableEq, Repr

def Error.message : Error → String
  | identifierTooLong identifier engine =>
    "Identifier " ++ identifier ++ " is longer than the " ++ toString engine.identifierLimit
      ++ " characters " ++ engine.key ++ " allows"
  | missingDomain className property =>
    "Property " ++ className ++ "." ++ property ++ " has no persistent type"
  | unorderable classNames =>
    "Initializer tables cannot be ordered: " ++ Text.join ", " classNames
  | unwritable reason => "IO error: " ++ reason

structure Column where
  name : String
  type : String
  isRequired : Bool
  /-- Whether the engine numbers its rows. -/
  isIdentity : Bool
  default : Option String
deriving DecidableEq, Repr

/-- A column that holds keys of another table. -/
structure ForeignKey where
  column : String
  targetTable : String
  targetColumn : String
deriving DecidableEq, Repr

structure Table where
  name : String
  className : String
  trigram : Option String
  columns : List Column
  primaryKey : List String
  /-- Columns that are unique on their own. -/
  uniqueColumns : List String
  /-- Columns that are unique together. -/
  compositeUnique : List String
  foreignKeys : List ForeignKey
  /-- Further columns with an index. -/
  indexedColumns : List String
  /-- Whether the only key column gets its values from the engine. -/
  hasGeneratedKey : Bool
  storage : Option String
deriving DecidableEq, Repr

namespace Table

open ModelSchema.Graph (Property)

/-! ## Names

Constraints, indexes and triggers have no names in a model. Theirs are put together from a kind, the
table and the column. -/

def primaryKeyName (table : String) : String :=
  "PK_" ++ table

def uniqueName (table column : String) : String :=
  "UK_" ++ table ++ "_" ++ column

/-- The constraint of the columns that are unique together. -/
def compositeUniqueName (table : String) : String :=
  "UK_" ++ table ++ "_MULTIPLE"

def indexName (table column : String) : String :=
  "IDX_" ++ table ++ "_" ++ column

def foreignKeyName (table column : String) : String :=
  "FK_" ++ table ++ "_" ++ column

def triggerName (table event : String) : String :=
  "TRG_" ++ table ++ "_" ++ event

/-- A column that no property declares. -/
def technicalColumn (trigram : Option String) (name : String) : String :=
  match trigram with
  | some trigram => trigram ++ "_" ++ name
  | none => name

/-! ## Derivation -/

/-- The column type of a property: its own, or that of its domain. -/
def persistentType? (graph : Graph) (property : Property) : Option String :=
  property.persistentType.or ((graph.domainOf? property).bind (·.persistentType))

/-- The type of a column. The size comes from the domain, unless the property has a type of its
own. -/
def columnType (engine : Engine) (graph : Graph) (c : Graph.Class) (property : Property) :
    Except Error String :=
  match persistentType? graph property with
  | none => .error (.missingDomain c.name property.name)
  | some type =>
    match property.persistentType, graph.domainOf? property with
    | none, some domain => .ok (engine.columnType type domain.length domain.precision)
    | _, _ => .ok (engine.columnType type none none)

def isIntegral (graph : Graph) (property : Property) : Bool :=
  ["int", "integer", "bigint", "smallint", "number"].contains
    (Text.lower ((persistentType? graph property).getD ""))

/-- The properties that become columns, with the names of those. -/
def columnProperties (c : Graph.Class) : List (Property × String) :=
  (c.properties.filter (·.isColumn)).filterMap fun property =>
    property.column.map fun column => (property, column)

/-- Whether the key of a class gets its values from the engine: a single whole number, unless the
class is a closed list. -/
def generatesKey (graph : Graph) (c : Graph.Class) : Bool :=
  match c.primaryKeys.filter (·.isColumn) with
  | [key] => c.stereotype != .static && isIntegral graph key
  | _ => false

def columnOf (engine : Engine) (graph : Graph) (c : Graph.Class) (property : Property)
    (name : String) : Except Error Column := do
  return {
    name
    type := ← columnType engine graph c property
    isRequired := property.isPrimaryKey || property.isRequired
    isIdentity :=
      generatesKey graph c && property.isPrimaryKey && engine.keyGeneration == .identity
    default := none }

/-- The foreign key of a property: it refers to the first key column of a persistent class. -/
def foreignKey? (graph : Graph) (property : Property) (column : String) : Option ForeignKey := do
  let target := graph.classAt (← property.target?)
  let key ← target.primaryKey?
  if target.isPersistent then some ⟨column, target.table, ← key.column⟩ else none

/-- A column that no property declares, and that may be empty. -/
def technical (engine : Engine) (name : String) : Column :=
  ⟨name, engine.timestampType, false, false, none⟩

/-- The columns that tell when a row was made and changed. -/
def auditColumns (engine : Engine) (c : Graph.Class) : List Column :=
  if c.isAudited then
    [{ technical engine (technicalColumn c.trigram "CREATED_AT") with
        isRequired := true, default := some engine.now },
      technical engine (technicalColumn c.trigram "UPDATED_AT")]
  else []

/-- The name of the column that tells when a row was exported, if that is tracked. -/
def exportColumn? (c : Graph.Class) : Option String :=
  if c.isExportDelta then some (technicalColumn c.trigram "LAST_EXPORT") else none

/-- The columns whose properties satisfy `p`. -/
def columnsWhere (c : Graph.Class) (p : Property → Bool) : List String :=
  ((columnProperties c).filter fun entry => p entry.1).map (·.2)

/-- The table of a class; `storage` is where tables are kept that say nothing about it. -/
def ofClass (engine : Engine) (storage : Option String) (graph : Graph) (c : Graph.Class) :
    Except Error Table := do
  let columns ← (columnProperties c).mapM fun entry => columnOf engine graph c entry.1 entry.2
  return {
    name := c.table
    className := c.name
    trigram := c.trigram
    columns :=
      columns ++ auditColumns engine c ++ (exportColumn? c).toList.map (technical engine)
    primaryKey := columnsWhere c (·.isPrimaryKey)
    uniqueColumns := columnsWhere c fun property => property.isUnique && !property.isPrimaryKey
    compositeUnique := columnsWhere c (·.isUniqueMany)
    foreignKeys := (columnProperties c).filterMap fun entry => foreignKey? graph entry.1 entry.2
    indexedColumns :=
      columnsWhere c (fun property => property.isOrdered && property.target?.isNone)
        ++ (exportColumn? c).toList
    hasGeneratedKey := generatesKey graph c
    storage := c.storage.or storage }

/-- The table that keeps a copy of every row ever inserted or changed, with the time and whether the
row was new. -/
def history (engine : Engine) (table : Table) : Table where
  name := table.name ++ "_HISTO"
  className := table.className
  trigram := table.trigram
  columns :=
    table.columns.map (fun column =>
      { column with isRequired := false, isIdentity := false, default := none })
      ++ [⟨technicalColumn table.trigram "HISTO_DATE", engine.timestampType, true, false, none⟩,
        ⟨technicalColumn table.trigram "HISTO_IS_CREATION", engine.booleanType, true, false, none⟩]
  primaryKey := []
  uniqueColumns := []
  compositeUnique := []
  foreignKeys := []
  indexedColumns := []
  hasGeneratedKey := false
  storage := table.storage

/-! ## Identifiers -/

/-- Whether several columns are unique together. -/
def hasCompositeUnique (table : Table) : Bool :=
  1 < table.compositeUnique.length

/-- Whether rows are numbered by the engine. -/
def usesIdentity (engine : Engine) (table : Table) : Bool :=
  table.hasGeneratedKey && engine.keyGeneration == .identity

/-- Whether rows get their key from a sequence. -/
def usesSequence (engine : Engine) (table : Table) : Bool :=
  table.hasGeneratedKey && engine.keyGeneration == .sequence

def historyIdentifiers (engine : Engine) (table : Table) : List String :=
  let history := table.history engine
  history.name :: (history.columns.drop table.columns.length).map (·.name)
    ++ [triggerName table.name "INS", triggerName table.name "UPD"]

/-- Every identifier that scripts derive from a table. -/
def identifiers (engine : Engine) (isHistorized : Bool) (table : Table) : List String :=
  table.name :: table.columns.map (·.name)
    ++ (if table.primaryKey.isEmpty then [] else [primaryKeyName table.name])
    ++ table.uniqueColumns.map (uniqueName table.name)
    ++ (if table.hasCompositeUnique then [compositeUniqueName table.name] else [])
    ++ (table.foreignKeys.flatMap fun key =>
        [indexName table.name key.column, foreignKeyName table.name key.column])
    ++ table.indexedColumns.map (indexName table.name)
    ++ (if isHistorized then historyIdentifiers engine table else [])
    ++ (if table.usesSequence engine then [Engine.sequenceName table.name] else [])
    ++ engine.typeNames table.name

def overlongIdentifiers (engine : Engine) (isHistorized : Bool) (table : Table) : List String :=
  (table.identifiers engine isHistorized).filter fun identifier =>
    engine.identifierLimit < identifier.length

end Table

end ModelSchema.Sql
