import ModelSchema.Host.Writer
import ModelSchema.Project.Analysis

/-!
# Writing scripts

All scripts are opened, each with its banner, before the first statement is written. Scripts of one
name are written over each other.
-/

namespace ModelSchema.Project

open Host (Failure Writer)

variable {m : Type → Type} [Monad m] (host : Host m)

/-- A script file: where it is, and the pieces of its banner. -/
structure ScriptFile where
  path : Path
  banner : List String

def scriptFiles (config : Config) (folder : Path) (scripts : List (String × String)) :
    List ScriptFile :=
  scripts.map fun script =>
    ⟨folder.join ⟨script.1⟩, Sql.Script.bannerPieces config.application script.1 script.2⟩

def openFile (file : ScriptFile) : m (Except Failure Writer) := do
  match ← host.create file.path with
  | .ok () => (Writer.start file.path).pushAll host file.banner
  | .error failure => return .error failure

/-- Open files. If one cannot be opened, those before it are closed, the last one first. -/
def openFiles : List ScriptFile → m (Except Failure (List Writer))
  | [] => return .ok []
  | file :: rest => do
    match ← openFile host file with
    | .error failure => return .error failure
    | .ok writer =>
      match ← openFiles rest with
      | .ok writers => return .ok (writer :: writers)
      | .error failure =>
        let _ ← writer.flush host
        return .error failure

/-- Open the schema scripts and the seed scripts. If one of the latter cannot be opened, the former
are closed in their order. -/
def openScripts (config : Config) (folder : Path) : m (Except Failure (List Writer)) := do
  match ← openFiles host (scriptFiles config folder config.output.schemaScripts) with
  | .error failure => return .error failure
  | .ok schema =>
    match ← openFiles host (scriptFiles config folder config.output.seedScripts) with
    | .ok seed => return .ok (schema ++ seed)
    | .error failure =>
      Writer.flushAll host schema
      return .error failure

/-- Write what a round adds to each of the scripts. -/
def writeRound (engine : Sql.Engine) (writers : List Writer) (round : Sql.Scripts) :
    ExceptT Error m (List Writer) :=
  (writers.zip round.toList).mapM fun (writer, script) =>
    attempt (writer.pushAll host (script.pieces engine)) fun failure =>
      .generation (.unwritable failure.message)

/-- Write scripts to a folder, also those that an error left incomplete. -/
def writeScripts (config : Config) (folder : Path) (generation : Sql.Generation) :
    ExceptT Error m Unit := do
  attempt (host.ensureFolders folder) (.scripts folder)
  let writers ← attempt (openScripts host config folder) (.scripts folder)
  let writers ← generation.rounds.foldlM (writeRound host config.engine) writers
  match generation.error with
  | none =>
    for writer in writers do
      let _ ← attempt (writer.flush host) fun failure =>
        .generation (.unwritable failure.message)
  | some error =>
    ExceptT.lift (Writer.flushAll host writers)
    throw (.generation error)

end ModelSchema.Project
