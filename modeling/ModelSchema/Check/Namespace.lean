import ModelSchema.Check.Class

/-!
# Checks of namespaces

A namespace is named by convention, documented and declared once. Its classes are checked after it.
-/

namespace ModelSchema.Check.Namespace

def duplicate (registry : Registry) (n : Graph.Namespace) : List Diagnostic :=
  match registry.namespaces.get? n.name with
  | some first =>
    [(Diagnostic.report .namespaceDuplicate n.file
      ("Namespace " ++ n.name ++ " is declared more than once"))
      |>.relatedTo [first]]
  | none => []

/-- The findings about a namespace without its classes. -/
def findings (suffixes : Naming.Suffixes) (registry : Registry) (n : Graph.Namespace) :
    List Diagnostic :=
  findIf (!Naming.isDottedPascal n.name)
      (.report .nameCasing n.file ("Namespace " ++ n.name ++ " must be dotted Pascal case"))
    ++ findIf n.comment.isNone
      (.report .missingComment n.file ("Namespace " ++ n.name ++ " has no comment"))
    ++ findIf (!suffixes.isKnown n.name)
      (.report .namespaceSuffix n.file
        ("Namespace " ++ n.name ++ " must end with " ++ suffixes.persistent ++ " or "
          ++ suffixes.functional))
    ++ duplicate registry n

/-- Check elements one after the other, each with the registry that the one before leaves. -/
def inTurn {α : Type} (check : Registry → α → List Diagnostic × Registry) (registry : Registry) :
    List α → List Diagnostic × Registry
  | [] => ([], registry)
  | first :: rest =>
    let (found, registry) := check registry first
    let (others, registry) := inTurn check registry rest
    (found ++ others, registry)

def check (options : Options) (graph : Graph) (registry : Registry) (id : NamespaceId) :
    List Diagnostic × Registry :=
  let n := graph.namespaceAt id
  let (found, after) :=
    inTurn (Class.check options graph) (registry.claimNamespace n.name n.file) n.classes
  (findings options.suffixes registry n ++ found, after)

end ModelSchema.Check.Namespace
