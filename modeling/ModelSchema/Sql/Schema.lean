import ModelSchema.Diagnostic.Basic
import ModelSchema.Sql.Script

/-!
# Schema scripts

Every persistent class gets a table, with its sequence, history, unique keys and types. Indexes and
foreign keys come last, when all tables are there. A class whose table cannot be derived, or has an
identifier that is too long, ends the scripts.
-/

namespace ModelSchema.Sql.Schema

variable (engine : Engine) (settings : Settings)

def table (graph : Graph) (id : ClassId) : Except Error Table :=
  Table.ofClass engine settings.dataStorage graph (graph.classAt id)

/-! ## Identifiers -/

def overlongFinding (c : Graph.Class) (identifier : String) : Diagnostic :=
  let limit := toString engine.identifierLimit
  let length := toString identifier.length
  (Diagnostic.report .identifierTooLong c.file
    ("Identifier " ++ identifier ++ " of class " ++ c.name ++ " is " ++ length
      ++ " characters long, " ++ engine.key ++ " allows " ++ limit))
    |>.comparing ("<= " ++ limit) length

/-- The findings about the identifiers of a class. A class without table is left to other checks. -/
def classFindings (graph : Graph) (id : ClassId) : List Diagnostic :=
  let c := graph.classAt id
  match table engine settings graph id with
  | .ok table => (table.overlongIdentifiers engine c.isHistorized).map (overlongFinding engine c)
  | .error _ => []

/-- The findings about all identifiers, in the order in which an analysis notes them. -/
def checkIdentifiers (graph : Graph) : List Diagnostic :=
  graph.persistentIds.flatMap (classFindings engine settings graph)

/-! ## Tables

A round says what one table adds to each script. Indexes come in rounds of their own, since foreign
keys refer to tables that have to exist. -/

/-- The table of a class, if all its identifiers are short enough. -/
def fittingTable (graph : Graph) (id : ClassId) : Except Error Table := do
  let table ← table engine settings graph id
  match table.overlongIdentifiers engine (graph.classAt id).isHistorized with
  | [] => return table
  | identifier :: _ => throw (.identifierTooLong identifier engine)

/-- The tables that classes get, up to the first class that gets none. -/
def tables (graph : Graph) (tableOf : ClassId → Except Error Table) :
    List ClassId → List (Graph.Class × Table) × Option Error
  | [] => ([], none)
  | id :: rest =>
    match tableOf id with
    | .ok table =>
      let (others, error) := tables graph tableOf rest
      ((graph.classAt id, table) :: others, error)
    | .error error => ([], some error)

def heading (c : Graph.Class) (table : Table) : Entry :=
  .comment (c.name ++ " (" ++ table.name ++ ")")

/-- The history of a table: another table and the triggers that fill it. -/
def historyStatements (table : Table) : List Statement :=
  let history := table.history engine
  [.createTable history, .createTrigger table history .insert, .createTrigger table history .update]

/-- The sequence of a table with a generated key, if the engine has a statement that makes one. -/
def sequenceStatements (table : Table) : List Statement :=
  if table.hasGeneratedKey && (engine.sequenceStatement? table.name).isSome then
    [.createSequence table.name]
  else []

def createStatements (c : Graph.Class) (table : Table) : List Statement :=
  .createTable table :: sequenceStatements engine table
    ++ if c.isHistorized then historyStatements engine table else []

def uniqueStatements (table : Table) : List Statement :=
  table.uniqueColumns.map (fun column =>
      .addUnique table.name (Table.uniqueName table.name column) [column])
    ++ if table.hasCompositeUnique then
        [.addUnique table.name (Table.compositeUniqueName table.name) table.compositeUnique]
      else []

def typeStatements (table : Table) : List Statement :=
  match engine with
  | .sqlServer => [.createTableType (table.name ++ "_TABLE_TYPE") table.columns]
  | .oracle =>
    [.createObjectType (table.name ++ "_OBJ") table.columns,
      .createCollectionType (table.name ++ "_TAB") (table.name ++ "_OBJ")]

/-- The columns of a table with an index, each once. -/
def indexedColumns (table : Table) : List String :=
  (table.foreignKeys.map (·.column) ++ table.indexedColumns).foldl
    (fun columns column => if column ∈ columns then columns else columns ++ [column]) []

def indexStatements (table : Table) : List Statement :=
  (indexedColumns table).map (fun column =>
      .createIndex table.name (Table.indexName table.name column) column settings.indexStorage)
    ++ table.foreignKeys.map (.addForeignKey table.name)

def tableRound (c : Graph.Class) (table : Table) : Scripts :=
  { Scripts.empty with
    create := heading c table :: (createStatements engine c table).map .statement
    uniqueKeys := (uniqueStatements table).map .statement
    types := (typeStatements engine table).map .statement }

def indexRound (table : Table) : Scripts :=
  { Scripts.empty with indexes := (indexStatements settings table).map .statement }

/-- The four schema scripts of a graph. -/
def generate (graph : Graph) : Generation :=
  let (tables, error) := tables graph (fittingTable engine settings graph) graph.persistentIds
  { rounds :=
      tables.map (fun (c, table) => tableRound engine c table)
        ++ if error.isNone then tables.map fun (_, table) => indexRound settings table else []
    error }

end ModelSchema.Sql.Schema
