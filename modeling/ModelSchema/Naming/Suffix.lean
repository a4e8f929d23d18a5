import ModelSchema.Text.Ascii

/-!
# Namespace suffixes

The name of a namespace ends with a suffix that tells whether its classes are persistent.
-/

namespace ModelSchema.Naming

structure Suffixes where
  persistent : String
  functional : String
deriving DecidableEq, Repr, Inhabited

namespace Suffixes

/-- The suffixes that hold unless a project chooses others. -/
def standard : Suffixes := ⟨"DataContract", "Contract"⟩

def isPersistent (suffixes : Suffixes) (name : String) : Bool :=
  Text.endsWith suffixes.persistent name

/-- Whether a namespace ends with one of the suffixes. -/
def isKnown (suffixes : Suffixes) (name : String) : Bool :=
  suffixes.isPersistent name || Text.endsWith suffixes.functional name

end Suffixes

end ModelSchema.Naming
