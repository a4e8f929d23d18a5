import ModelSchema.Graph.Fingerprint
import ModelSchema.Project.Discovery
import ModelSchema.Project.Stages
import ModelSchema.Report.Basic
import ModelSchema.Sql.Seeding

/-!
# Analysing a project

The models of a project are read into a graph, the seed data is added, and all of it is checked. The
findings of every step go into one sink.
-/

namespace ModelSchema

/-- What has been read of a project. -/
structure Content where
  /-- The graph with the seed data. -/
  graph : Graph
  seed : Seed
  /-- The number of seed batches that found their class. -/
  seeded : Nat
  sink : Sink

namespace Content

/-- Add the seed data to a graph with the findings of its reading. -/
def new (severity : Severity) (graph : Graph) (found : List Diagnostic) (seed : Seed) :
    Content where
  graph := graph.addSeed seed
  seed := seed
  seeded := graph.seededCount seed
  sink := (Sink.empty severity).append found

end Content

/-- A project that has been checked. -/
structure Analysis where
  graph : Graph
  stats : Check.Stats
  /-- The number of identifiers that are too long. -/
  overlong : Nat
  sink : Sink

namespace Analysis

def ofContent (config : Config) (content : Content) : Analysis :=
  let options := ⟨config.suffixes, config.engine, config.allowlist⟩
  let (survey, sink) :=
    (Stage.check options config.engine config.sqlSettings content.seed content.graph).run
      content.sink
  { graph := survey.graph, stats := survey.stats, overlong := survey.overlong, sink }

def report (analysis : Analysis) (config : Config) (timestamp : String) : Report :=
  (Report.ofDiagnostics timestamp analysis.sink.diagnostics)
    |>.withCounts config.models.length analysis.stats.classes
    |>.withMetadata (.object
      [("application", .text config.application), ("dialect", .text config.engine.key),
        ("fingerprint", .text analysis.graph.fingerprint)])

end Analysis

namespace Project

variable {m : Type → Type} [Monad m] (host : Host m)

/-- Print a line that tells what goes on, if that is wanted. -/
def note (isVerbose : Bool) (line : String) : ExceptT Error m Unit := do
  if isVerbose then host.printError (line ++ "\n")

def source (project : Project) (file : Config.ModelFile) : ExceptT Error m Reading.Source := do
  let path := project.resolve file.path
  match file.format?.or (Interchange.Format.ofPath? path) with
  | none => throw (.reading (.unsupportedFormat path.text))
  | some format =>
    let content ← attempt (host.readText path) fun failure =>
      .reading (.unreadable path.text failure.message)
    return { path := path.text, format, content }

def domains (project : Project) (file : Config.ModelFile) :
    ExceptT Error m (List Graph.Domain) := do
  match Reading.sharedDomains (← project.source host file) with
  | .ok domains => return domains
  | .error error => throw (.reading error)

def seed (project : Project) : ExceptT Error m Seed := do
  match project.config.seed with
  | none => return .empty
  | some path =>
    let path := project.resolve path
    let text ← attempt (host.readText path) fun failure =>
      .seed path (.unreadable path.text failure.message)
    match Seed.parse text with
    | .ok seed => return { seed with source := some path.text }
    | .error error => throw (.seed path error)

/-- Read a project whose model files are listed. -/
def read (project : Project) (isVerbose : Bool) : ExceptT Error m Content := do
  let config := project.config
  if config.models.isEmpty then throw (.noModels (project.resolve config.modelFolder))
  note host isVerbose ("Reading " ++ toString config.models.length ++ " model file(s)...")
  let shared ← config.domains.mapM (project.domains host)
  let sources ← config.models.mapM (project.source host)
  match Reading.read config.suffixes shared.flatten sources with
  | .error (error, _) => throw (.reading error)
  | .ok (graph, found) =>
    let content := Content.new config.severity graph found (← project.seed host)
    note host isVerbose ("Folded " ++ toString content.seeded ++ " initializer batch(es)")
    return content

def analyze (project : Project) (isVerbose : Bool) : ExceptT Error m Analysis := do
  let content ← project.read host isVerbose
  note host isVerbose "Checking models and initializers..."
  let analysis := Analysis.ofContent project.config content
  note host (isVerbose && 0 < analysis.overlong)
    ("Found " ++ toString analysis.overlong ++ " identifier(s) exceed the "
      ++ project.config.engine.key ++ " limit")
  return analysis

end Project

end ModelSchema
