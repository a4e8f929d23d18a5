/-!
# SQL engines

The two families of database engines that scripts are written for.
-/

namespace ModelSchema.Sql

inductive Engine where
  /-- Identity columns, and batches that end with `go`. -/
  | sqlServer
  /-- Sequences, batches that end with `/`, and short identifiers. -/
  | oracle
deriving DecidableEq, Repr, Inhabited

namespace Engine

/-- The name used in configuration files. -/
def key : Engine → String
  | sqlServer => "sqlserver"
  | oracle => "oracle"

/-- The name shown in messages. -/
def label : Engine → String
  | sqlServer => "SqlServer"
  | oracle => "Oracle"

def ofKey? (key : String) : Option Engine :=
  [sqlServer, oracle].find? (·.key == key)

end Engine

end ModelSchema.Sql
