import ModelSchema.Check.Model
import ModelSchema.Check.Seed
import ModelSchema.Diagnostic.Sink
import ModelSchema.Reading.Assembly
import ModelSchema.Sql.Schema

/-!
# Stages of an analysis

The stages of an analysis note their findings in one sink, which each of them hands on to the next.
Models are read first. The graph is then checked with the seed data added: the model, the seed data
and the identifiers of the tables.
-/

namespace ModelSchema

/-- A computation that notes findings in a sink. -/
abbrev Stage (α : Type) := StateM Sink α

/-- What an analysis gives besides its findings. -/
structure Survey where
  /-- The graph with the seed data. -/
  graph : Graph
  stats : Check.Stats
  /-- The number of identifiers that are too long. -/
  overlong : Nat
deriving DecidableEq

namespace Stage

def note (found : List Diagnostic) : Stage Unit :=
  modify (·.append found)

/-- Read documents into a graph. After an error, the mistakes found before it are noted. -/
def read (suffixes : Naming.Suffixes) (shared : List Graph.Domain)
    (sources : List Reading.Source) : Stage (Except Reading.Error Graph) := do
  match Reading.read suffixes shared sources with
  | .ok (graph, found) =>
    note found
    return .ok graph
  | .error (error, found) =>
    note found
    return .error error

def checkModel (options : Check.Options) (graph : Graph) : Stage Check.Stats := do
  let (found, stats) := Check.run options graph
  note found
  return stats

def checkSeed (graph : Graph) (seed : Seed) : Stage Unit :=
  note (Check.Seed.check graph seed)

/-- Check an identifier of a class, and count it if it is too long. -/
def checkIdentifier (engine : Sql.Engine) (c : Graph.Class) (overlong : Nat)
    (identifier : String) : Stage Nat := do
  if engine.identifierLimit < identifier.length then
    modify (·.push (Sql.Schema.overlongFinding engine c identifier))
    return overlong + 1
  else
    return overlong

/-- Check the identifiers of the tables, and count those that are too long. A class without table is
left to other checks. -/
def checkIdentifiers (engine : Sql.Engine) (settings : Sql.Settings) (graph : Graph) :
    Stage Nat :=
  graph.persistentIds.foldlM
    (fun overlong id =>
      let c := graph.classAt id
      match Sql.Schema.table engine settings graph id with
      | .ok table =>
        (table.identifiers engine c.isHistorized).foldlM (checkIdentifier engine c) overlong
      | .error _ => return overlong)
    0

/-- Check a graph that has its seed data. -/
def check (options : Check.Options) (engine : Sql.Engine) (settings : Sql.Settings) (seed : Seed)
    (graph : Graph) : Stage Survey := do
  let stats ← checkModel options graph
  checkSeed graph seed
  let overlong ← checkIdentifiers engine settings graph
  return { graph, stats, overlong }

def analyze (suffixes : Naming.Suffixes) (shared : List Graph.Domain)
    (sources : List Reading.Source) (seed : Seed) (options : Check.Options) (engine : Sql.Engine)
    (settings : Sql.Settings) : Stage (Except Reading.Error Survey) := do
  match ← read suffixes shared sources with
  | .error error => return .error error
  | .ok graph => return .ok (← check options engine settings seed (graph.addSeed seed))

end Stage

end ModelSchema
