import ModelSchema.Check.Domain
import ModelSchema.Check.Namespace

/-!
# Checks of a project

The domains that no document declares come first, then each document with its domains and its
namespaces. Every violation is noted, and none stops the check. Whatever is looked at is counted on
the way; classes are counted by the names that they claim.
-/

namespace ModelSchema.Check

structure Stats where
  models : Nat
  domains : Nat
  namespaces : Nat
  classes : Nat
deriving DecidableEq, Repr

/-- The findings about a document without its domains and namespaces. -/
def model (model : Graph.Model) : List Diagnostic :=
  findIf (!Naming.isPascal model.name)
      (.report .nameCasing model.file ("Model name " ++ model.name ++ " must be Pascal case"))
    ++ findIf model.label.isNone
      (.report .missingLabel model.file ("Model " ++ model.name ++ " has no label"))

/-- The domains that no document declares. -/
def sharedDomains (graph : Graph) : List Graph.Domain :=
  let declared := graph.models.flatMap (·.domains)
  graph.domains.values.filter fun domain => !declared.contains domain.code

def ownDomains (graph : Graph) (model : Graph.Model) : List Graph.Domain :=
  model.domains.filterMap graph.domains.get?

/-- How far a check has come: what it has found, the names in use, and how much it has looked at. -/
structure Progress where
  found : List Diagnostic
  registry : Registry
  stats : Stats

namespace Progress

def start : Progress :=
  ⟨[], .empty, ⟨0, 0, 0, 0⟩⟩

def domain (progress : Progress) (found : Graph.Domain) : Progress :=
  { progress with
    found := progress.found ++ Check.domain found
    stats := { progress.stats with domains := progress.stats.domains + 1 } }

/-- Look at a document, but not at its domains and namespaces. -/
def model (progress : Progress) (root : Graph.Model) : Progress :=
  { progress with
    found := progress.found ++ Check.model root
    stats := { progress.stats with models := progress.stats.models + 1 } }

def space (options : Options) (graph : Graph) (progress : Progress) (id : NamespaceId) : Progress :=
  let (found, registry) := Namespace.check options graph progress.registry id
  { found := progress.found ++ found
    registry
    stats := { progress.stats with namespaces := progress.stats.namespaces + 1 } }

def document (options : Options) (graph : Graph) (progress : Progress) (root : Graph.Model) :
    Progress :=
  root.namespaces.foldl (space options graph)
    ((ownDomains graph root).foldl domain (progress.model root))

end Progress

def run (options : Options) (graph : Graph) : List Diagnostic × Stats :=
  let progress := graph.models.foldl (Progress.document options graph)
    ((sharedDomains graph).foldl Progress.domain .start)
  (progress.found, { progress.stats with classes := progress.registry.classes.size })

end ModelSchema.Check
