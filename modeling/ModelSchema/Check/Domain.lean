import ModelSchema.Check.Options
import ModelSchema.Graph.Basic
import ModelSchema.Naming.Rules

/-!
# Checks of domains
-/

namespace ModelSchema.Check

def domain (domain : Graph.Domain) : List Diagnostic :=
  findIf (!Naming.isDomainCode domain.code)
      (.report .domainCodeCasing domain.file
        ("Domain code " ++ domain.code ++ " must match DO_[A-Z0-9_]+"))
    ++ findIf domain.dataType.isNone
      (.report .domainMissingDataType domain.file
        ("Domain " ++ domain.code ++ " has no data type"))
    ++ findIf domain.persistentType.isNone
      (.report .domainMissingPersistentType domain.file
        ("Domain " ++ domain.code ++ " has no persistent type"
          ++ if domain.length.isSome || domain.precision.isSome
            then " but declares a length or precision" else ""))
    ++ findIf (domain.precision.isSome && domain.length.isNone)
      (.report .domainPrecisionWithoutLength domain.file
        ("Domain " ++ domain.code ++ " declares a precision without a length"))

end ModelSchema.Check
