import ModelSchema.Seed
import ModelSchema.Sql.Engine
import ModelSchema.Text.Ascii

/-!
# How each engine spells SQL

Separators, quoting, column types, key generation and the few statements whose form differs between
the engines.
-/

namespace ModelSchema.Sql

/-- How generated keys get their values; an engine has one of the two. -/
inductive KeyGeneration where
  /-- The engine numbers the rows of a column. -/
  | identity
  /-- A sequence is asked for the next number. -/
  | sequence
deriving DecidableEq, Repr

/-- Doubles are always written in full, and whole numbers without a point. Of two equally near
numbers the larger one is taken. -/
def layout : Decimal.Layout where
  tie := .up
  isPositional _ := true
  keepsPoint := false
  nonFinite f := if f.isNaN then "NaN" else if f < 0 then "-inf" else "inf"

/-- A text with each quote written twice, between quotes. -/
def quotedText (s : String) : String :=
  "'" ++ String.ofList (s.toList.flatMap fun c => if c = '\'' then ['\'', '\''] else [c]) ++ "'"

def literal : Seed.Value → String
  | .null => "null"
  | .bool b => if b then "1" else "0"
  | .integer n => toString n
  | .double f => layout.text f
  | .text s => quotedText s

/-- A type with its length and precision, if it has them. -/
def sizedType (name : String) (length precision : Option Nat) : String :=
  match length, precision with
  | some length, some precision =>
    name ++ "(" ++ toString length ++ ", " ++ toString precision ++ ")"
  | some length, none => name ++ "(" ++ toString length ++ ")"
  | none, _ => name

namespace Engine

/-- The line that ends a batch. -/
def separator : Engine → String
  | sqlServer => "go"
  | oracle => "/"

/-- How many characters an identifier may have. -/
def identifierLimit : Engine → Nat
  | sqlServer => 128
  | oracle => 30

/-- Whether the rows can be stored in the order of the primary key. -/
def hasClusteredKeys : Engine → Bool
  | sqlServer => true
  | oracle => false

def concatenation : Engine → String
  | sqlServer => "+"
  | oracle => "||"

/-- An identifier in a statement. -/
def quote : Engine → String → String
  | sqlServer, identifier => "[" ++ identifier ++ "]"
  | oracle, identifier => identifier

/-- The Oracle type for a column type of another engine. -/
def oracleType (type : String) (length precision : Option Nat) : String :=
  let type := Text.lower type
  if ["varchar", "varchar2"].contains type then sizedType "VARCHAR2" length none
  else if ["nvarchar", "nvarchar2"].contains type then sizedType "NVARCHAR2" length none
  else if type = "char" then sizedType "CHAR" length none
  else if ["int", "integer"].contains type then "NUMBER(10)"
  else if type = "bigint" then "NUMBER(19)"
  else if type = "smallint" then "NUMBER(5)"
  else if type = "tinyint" then "NUMBER(3)"
  else if ["bit", "bool", "boolean"].contains type then "NUMBER(1)"
  else if ["decimal", "numeric", "number"].contains type then sizedType "NUMBER" length precision
  else if ["float", "real"].contains type then "FLOAT"
  else if type = "date" then "DATE"
  else if ["datetime", "datetime2", "timestamp"].contains type then "TIMESTAMP"
  else if ["text", "ntext", "clob"].contains type then "CLOB"
  else if ["varbinary", "image", "blob"].contains type then "BLOB"
  else if type = "uniqueidentifier" then "RAW(16)"
  else sizedType (Text.upper type) length precision

def columnType : Engine → String → Option Nat → Option Nat → String
  | sqlServer => sizedType
  | oracle => oracleType

def keyGeneration : Engine → KeyGeneration
  | sqlServer => .identity
  | oracle => .sequence

/-- What marks a column that the engine numbers. -/
def identityClause? : Engine → Option String
  | sqlServer => some "identity(1, 1)"
  | oracle => none

/-- Where a table or index is kept. -/
def storageClause : Engine → String → String
  | sqlServer, storage => " on " ++ sqlServer.quote storage
  | oracle, storage => " tablespace " ++ storage

def now : Engine → String
  | sqlServer => "getdate()"
  | oracle => "sysdate"

def booleanType : Engine → String
  | sqlServer => "bit"
  | oracle => "NUMBER(1)"

def timestampType : Engine → String
  | sqlServer => "datetime2"
  | oracle => "TIMESTAMP"

def toText : Engine → String → String
  | sqlServer, expression => "cast(" ++ expression ++ " as varchar(50))"
  | oracle, expression => "to_char(" ++ expression ++ ")"

/-- The names of the types made for a table. -/
def typeNames : Engine → String → List String
  | sqlServer, table => [table ++ "_TABLE_TYPE"]
  | oracle, table => [table ++ "_OBJ", table ++ "_TAB"]

/-- The statement that lets rows bring their own key, or ends that. -/
def identityInsert? (engine : Engine) (table : String) (on : Bool) : Option String :=
  match engine with
  | sqlServer =>
    some ("set identity_insert " ++ engine.quote table ++ " " ++ if on then "on" else "off")
  | oracle => none

def sequenceName (table : String) : String :=
  "SEQ_" ++ table

def sequenceStatement? : Engine → String → Option String
  | sqlServer, _ => none
  | oracle, table => some ("create sequence " ++ sequenceName table ++ " start with 1000 cache 20")

/-- The next number of the sequence of a table. -/
def nextValue? : Engine → String → Option String
  | sqlServer, _ => none
  | oracle, table => some (sequenceName table ++ ".nextval")

end Engine

end ModelSchema.Sql
