import ModelSchema.Sql.Table

/-!
# Statements

The statements that scripts are made of, and how each engine spells them.
-/

namespace ModelSchema.Sql

/-- What makes a history trigger fire. -/
inductive Event where
  | insert
  | update
deriving DecidableEq, Repr

namespace Event

def word : Event → String
  | insert => "insert"
  | update => "update"

/-- The short name of an event in the name of its trigger. -/
def short : Event → String
  | insert => "INS"
  | update => "UPD"

/-- Whether a row was new, as kept in a history table. -/
def isCreation : Event → String
  | insert => "1"
  | update => "0"

end Event

/-- What a new row holds in a column. -/
inductive Cell where
  | literal (value : Seed.Value)
  /-- The next number of the sequence of the table. -/
  | nextKey
deriving DecidableEq

/-- A row for the table of translated labels. It is made from the row of a list that has a value in
a column. -/
structure Translation where
  translationTable : String
  className : String
  keyColumn : String
  language : String
  label : String
  table : String
  filterColumn : String
  filterValue : Seed.Value
deriving DecidableEq

inductive Statement where
  | createTable (table : Table)
  | createSequence (table : String)
  | createTrigger (table history : Table) (event : Event)
  | addUnique (table name : String) (columns : List String)
  /-- A type whose values are tables. -/
  | createTableType (name : String) (columns : List Column)
  /-- A type whose values are rows. -/
  | createObjectType (name : String) (columns : List Column)
  /-- A type whose values are tables of another type. -/
  | createCollectionType (name element : String)
  | createIndex (table name column : String) (storage : Option String)
  | addForeignKey (table : String) (key : ForeignKey)
  | identityInsert (table : String) (on : Bool)
  | insertRow (table : String) (cells : List (String × Cell))
  | insertTranslation (translation : Translation)
deriving DecidableEq

namespace Statement

variable (engine : Engine)

def names (columns : List String) : String :=
  Text.join ", " (columns.map engine.quote)

/-- A column of a new table. -/
def columnDeclaration (column : Column) : String :=
  "\t" ++ engine.quote column.name ++ " " ++ column.type
    ++ (if column.isIdentity then
        match engine.identityClause? with
        | some clause => " " ++ clause
        | none => ""
      else "")
    ++ (match column.default with
      | some default => " default " ++ default
      | none => "")
    ++ if column.isRequired then " not null" else " null"

/-- The lines of a new table: its columns and its primary key. -/
def tableLines (table : Table) : List String :=
  table.columns.map (columnDeclaration engine)
    ++ if table.primaryKey.isEmpty then []
      else
        ["\tconstraint " ++ engine.quote (Table.primaryKeyName table.name) ++ " primary key"
          ++ (if engine.hasClusteredKeys then " clustered" else "")
          ++ " (" ++ names engine table.primaryKey ++ ")"]

/-- Where something is kept, if that is said. -/
def storage (storage : Option String) : String :=
  match storage with
  | some storage => engine.storageClause storage
  | none => ""

def tableText (table : Table) : String :=
  "create table " ++ engine.quote table.name ++ " (\n"
    ++ Text.join ",\n" (tableLines engine table) ++ "\n)" ++ storage engine table.storage

/-- What a history row is made of: the new row, the time, and whether the row was new. -/
def historyValues (table : Table) (event : Event) : String :=
  let value (column : Column) : String :=
    match engine with
    | .sqlServer => engine.quote column.name
    | .oracle => ":new." ++ column.name
  Text.join ", " (table.columns.map value) ++ ", " ++ engine.now ++ ", " ++ event.isCreation

/-- A trigger that copies every new or changed row to the history. -/
def triggerText (table history : Table) (event : Event) : String :=
  let name := engine.quote (Table.triggerName table.name event.short)
  let columns := names engine (history.columns.map (·.name))
  let values := historyValues engine table event
  match engine with
  | .sqlServer =>
    "create trigger " ++ name ++ " on " ++ engine.quote table.name ++ " after " ++ event.word
      ++ " as\nbegin\n\tset nocount on;\n\tinsert into " ++ engine.quote history.name ++ " ("
      ++ columns ++ ")\n\tselect " ++ values ++ " from inserted;\nend"
  | .oracle =>
    "create or replace trigger " ++ name ++ " after " ++ event.word ++ " on "
      ++ engine.quote table.name ++ " for each row\nbegin\n\tinsert into "
      ++ engine.quote history.name ++ " (" ++ columns ++ ")\n\tvalues (" ++ values ++ ");\nend;"

def typeColumns (columns : List Column) : String :=
  Text.join ",\n"
    (columns.map fun column => "\t" ++ engine.quote column.name ++ " " ++ column.type)

/-- What a new row holds in a column of a table. -/
def cellText (table : String) : Cell → String
  | .literal value => literal value
  | .nextKey => (engine.nextValue? table).getD ""

def rowText (table : String) (cells : List (String × Cell)) : String :=
  "insert into " ++ engine.quote table ++ " (" ++ names engine (cells.map (·.1)) ++ ") values ("
    ++ Text.join ", " (cells.map fun cell => cellText engine table cell.2) ++ ")"

/-- The key of a label: the class and the key of the row. -/
def resourceKey (className keyColumn : String) : String :=
  "'" ++ className ++ "' " ++ engine.concatenation ++ " '.' " ++ engine.concatenation ++ " "
    ++ engine.toText (engine.quote keyColumn)

def translationText (t : Translation) : String :=
  "insert into " ++ engine.quote t.translationTable ++ " ("
    ++ names engine ["RESOURCE_KEY", "LANG_CODE", "LABEL"] ++ ") select "
    ++ resourceKey engine t.className t.keyColumn ++ ", " ++ quotedText t.language ++ ", "
    ++ quotedText t.label ++ " from " ++ engine.quote t.table ++ " where "
    ++ engine.quote t.filterColumn ++ " = " ++ literal t.filterValue

def text : Statement → String
  | createTable table => tableText engine table
  | createSequence table => (engine.sequenceStatement? table).getD ""
  | createTrigger table history event => triggerText engine table history event
  | addUnique table name columns =>
    "alter table " ++ engine.quote table ++ " add constraint " ++ engine.quote name ++ " unique ("
      ++ names engine columns ++ ")"
  | createTableType name columns =>
    "create type " ++ engine.quote name ++ " as table (\n" ++ typeColumns engine columns ++ "\n)"
  | createObjectType name columns =>
    "create or replace type " ++ engine.quote name ++ " as object (\n"
      ++ typeColumns engine columns ++ "\n)"
  | createCollectionType name element =>
    "create or replace type " ++ engine.quote name ++ " as table of " ++ engine.quote element
  | createIndex table name column place =>
    "create index " ++ engine.quote name ++ " on " ++ engine.quote table ++ " ("
      ++ engine.quote column ++ ")" ++ storage engine place
  | addForeignKey table key =>
    "alter table " ++ engine.quote table ++ " add constraint "
      ++ engine.quote (Table.foreignKeyName table key.column) ++ " foreign key ("
      ++ engine.quote key.column ++ ") references " ++ engine.quote key.targetTable ++ " ("
      ++ engine.quote key.targetColumn ++ ")"
  | identityInsert table on => (engine.identityInsert? table on).getD ""
  | insertRow table cells => rowText engine table cells
  | insertTranslation translation => translationText engine translation

end Statement

end ModelSchema.Sql
