import ModelSchema.Sql.Statement

/-!
# Scripts

A script starts with a banner that names the application, the script and its purpose. Statements
follow, each ended by the separator of the engine, with comments between them. Scripts are written
in rounds, each of which adds something to some of them, and every text in pieces.
-/

namespace ModelSchema.Sql

namespace Script

/-- The line above and below the banner. -/
def rule : String :=
  "-- " ++ String.ofList (List.replicate 91 '=') ++ " \n"

/-- The pieces of the banner of a script. -/
def bannerPieces (application name description : String) : List String :=
  [rule, "--   Application Name : ", application, "\n", "--   Script Name : ", name, "\n",
    "--   Description : ", description, "\n", rule, "\n"]

def banner (application name description : String) : String :=
  String.join (bannerPieces application name description)

/-- The pieces of a statement with what ends it. -/
def batchPieces (separator sql : String) : List String :=
  [sql, "\n", separator, "\n", "\n"]

/-- A statement with what ends it. -/
def batch (separator sql : String) : String :=
  String.join (batchPieces separator sql)

/-- The pieces of a comment on a line of its own. -/
def commentPieces (text : String) : List String :=
  ["-- ", text, "\n"]

def commentLine (text : String) : String :=
  String.join (commentPieces text)

end Script

/-- A part of a script. -/
inductive Entry where
  | comment (text : String)
  | statement (statement : Statement)
deriving DecidableEq

namespace Entry

def pieces (engine : Engine) : Entry → List String
  | comment text => Script.commentPieces text
  | statement s => Script.batchPieces engine.separator (s.text engine)

def text (engine : Engine) (entry : Entry) : String :=
  String.join (entry.pieces engine)

def statement? : Entry → Option Statement
  | comment _ => none
  | statement s => some s

end Entry

/-- A script without its banner. -/
abbrev Script := List Entry

namespace Script

def statements (script : Script) : List Statement :=
  script.filterMap Entry.statement?

/-- The pieces of the text of a script without its banner. -/
def pieces (engine : Engine) (script : Script) : List String :=
  script.flatMap (Entry.pieces engine)

def body (engine : Engine) (script : Script) : String :=
  String.join (script.map (Entry.text engine))

end Script

structure Scripts where
  /-- Tables. -/
  create : Script
  /-- Unique keys. -/
  uniqueKeys : Script
  /-- Indexes and foreign keys. -/
  indexes : Script
  /-- Types. -/
  types : Script
  /-- The rows of lists. -/
  data : Script
  /-- The translated labels of lists. -/
  translations : Script
deriving DecidableEq

namespace Scripts

def empty : Scripts := ⟨[], [], [], [], [], []⟩

/-- The scripts in the order they are written. -/
def toList (scripts : Scripts) : List Script :=
  [scripts.create, scripts.uniqueKeys, scripts.indexes, scripts.types, scripts.data,
    scripts.translations]

/-- The scripts to which several rounds add. -/
def ofRounds (rounds : List Scripts) : Scripts where
  create := rounds.flatMap create
  uniqueKeys := rounds.flatMap uniqueKeys
  indexes := rounds.flatMap indexes
  types := rounds.flatMap types
  data := rounds.flatMap data
  translations := rounds.flatMap translations

end Scripts

/-- What a project decides about its scripts. -/
structure Settings where
  application : String
  /-- Where tables are kept that say nothing about it. -/
  dataStorage : Option String
  /-- Where indexes are kept. -/
  indexStorage : Option String
  /-- The table of translated labels. -/
  translationTable : String
deriving DecidableEq, Repr

/-- What each round adds to the scripts, and the error that kept them from being complete. -/
structure Generation where
  rounds : List Scripts
  error : Option Error

def Generation.scripts (generation : Generation) : Scripts :=
  .ofRounds generation.rounds

end ModelSchema.Sql
