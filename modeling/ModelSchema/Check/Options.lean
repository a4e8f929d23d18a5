import ModelSchema.Allowlist
import ModelSchema.Diagnostic.Basic
import ModelSchema.Naming.Suffix
import ModelSchema.Sql.Engine

/-!
# Settings of a check
-/

namespace ModelSchema.Check

/-- What a project decides about checks. -/
structure Options where
  suffixes : Naming.Suffixes
  engine : Sql.Engine
  allowlist : Allowlist
deriving DecidableEq, Repr

/-- A finding, if there is a reason for it. -/
def findIf (reason : Bool) (diagnostic : Diagnostic) : List Diagnostic :=
  if reason then [diagnostic] else []

end ModelSchema.Check
