import ModelSchema.Catalog

/-!
# Names in use

The names that a check has met, each with the first element that uses it.
-/

namespace ModelSchema.Check

/-- Owners by name, for the three kinds of names that must be unique. -/
structure Registry where
  namespaces : Catalog String
  classes : Catalog String
  trigrams : Catalog String
deriving DecidableEq, Inhabited

namespace Registry

def empty : Registry := ⟨.empty, .empty, .empty⟩

/-- Give a name an owner, unless it has one. -/
def claim (names : Catalog String) (name owner : String) : Catalog String :=
  if names.contains name then names else names.insert name owner

def claimNamespace (registry : Registry) (name file : String) : Registry :=
  { registry with namespaces := claim registry.namespaces name file }

def claimClass (registry : Registry) (name file : String) : Registry :=
  { registry with classes := claim registry.classes name file }

def claimTrigram (registry : Registry) (trigram owner : String) : Registry :=
  { registry with trigrams := claim registry.trigrams trigram owner }

end Registry

end ModelSchema.Check
