import ModelSchema.Config.Document
import ModelSchema.Host.Basic
import ModelSchema.Reading.Source

/-!
# Projects

A project is a folder with settings. Whatever goes wrong with one is a `Project.Error`; its `chain`
tells it from what was being done down to the cause.
-/

namespace ModelSchema

open Host (Failure)

namespace Config

/-- Why there are no settings. -/
inductive Error where
  /-- The file cannot be read. -/
  | unreadable (path : Path) (failure : Failure)
  /-- The text is not TOML, or a setting has a value that it cannot have. -/
  | malformed

def Error.message : Error → String
  | unreadable path failure => "IO error: " ++ path.text ++ ": " ++ failure.message
  | malformed => "Parse error: the text holds no settings"

end Config

/-- The settings of a project, and the folder that its paths start from. -/
structure Project where
  root : Path
  config : Config

namespace Project

/-- A path of the project, as seen from the working folder. -/
def resolve (project : Project) (path : Path) : Path :=
  project.root.join path

/-- Why a command failed. -/
inductive Error where
  | config (error : Config.Error)
  /-- A folder below the model folder cannot be read. -/
  | scan (folder : Path) (place : Path) (failure : Failure)
  | noModels (folder : Path)
  | reading (error : Reading.Error)
  | seed (path : Path) (error : Seed.Error)
  | report (path : Path) (failure : Failure)
  | markdown (path : Path) (failure : Failure)
  | scripts (folder : Path) (failure : Failure)
  | generation (error : Sql.Error)

namespace Error

/-- What an error says, from what was being done down to the cause. -/
def chain : Error → List String
  | config error => [error.message]
  | scan folder place failure =>
    ["Failed to scan " ++ folder.text,
      "IO error for operation on " ++ place.text ++ ": " ++ failure.message, failure.message]
  | noModels folder => ["No model files found under " ++ folder.text]
  | reading error => ["Failed to read the models", error.message]
  | seed path error => ["Failed to load initializers from " ++ path.text, error.message]
  | report path failure => ["Failed to write report to " ++ path.text, failure.message]
  | markdown path failure => ["Failed to write markdown report to " ++ path.text, failure.message]
  | scripts folder failure => ["Failed to create scripts in " ++ folder.text, failure.message]
  | generation error => ["Script generation failed", error.message]

/-- A message with something before its first line, and its other lines indented. -/
def hanging (first indent message : String) : String :=
  first ++ String.ofList
    (message.toList.flatMap fun c => if c = '\n' then '\n' :: indent.toList else [c])

/-- Causes, numbered if there are several. -/
def causeLines : List String → List String
  | [cause] => [hanging "    " "    " cause]
  | causes => causes.mapIdx fun i cause => hanging ("    " ++ toString i ++ ": ") "       " cause

def lines (error : Error) : List String :=
  match error.chain with
  | [] => []
  | [message] => ["Error: " ++ message]
  | message :: causes => ["Error: " ++ message, "", "Caused by:"] ++ causeLines causes

def text (error : Error) : String :=
  String.join (error.lines.map (· ++ "\n"))

end Error

variable {m : Type → Type} [Monad m] (host : Host m)

/-- The outcome of an operation, with a failure told as an error. -/
def attempt {α : Type} (outcome : m (Except Failure α)) (tell : Failure → Error) :
    ExceptT Error m α := do
  match ← outcome with
  | .ok value => return value
  | .error failure => throw (tell failure)

/-- Load the settings of a project from a file in its root. -/
def load (path : Path) : ExceptT Error m Project := do
  let text ← attempt (host.readText path) fun failure => .config (.unreadable path failure)
  match Config.parse? text with
  | some config => return ⟨path.parent?.getD ⟨""⟩, config⟩
  | none => throw (.config .malformed)

end Project

end ModelSchema
