import ModelSchema.Command.Arguments
import ModelSchema.Project.Output
import ModelSchema.Report.Text

/-!
# Running commands

`Command.execute` is the program: it reads arguments, runs the command and gives the exit status.
That is 0 if all went well, 1 after an error or a finding that blocks, and 2 if the arguments make
no sense.
-/

namespace ModelSchema.Command

variable {m : Type → Type} [Monad m] (host : Host m)

open Project (Error attempt note)

/-- The settings file that is used if none is named. -/
def standardConfig : Path := ⟨"modelc.toml"⟩

def projectOf (invocation : Invocation) : ExceptT Error m Project := do
  match invocation.config with
  | some path => Project.load host path
  | none =>
    if ← host.leadsTo standardConfig then Project.load host standardConfig
    else
      note host invocation.isVerbose "No config file found, using defaults"
      return ⟨← host.currentFolder, .standard⟩

def analyze (project : Project) (isVerbose : Bool) : ExceptT Error m (Analysis × Report) := do
  let project ← project.discover host
  let analysis ← project.analyze host isVerbose
  return (analysis, analysis.report project.config (← host.now))

/-- Run a command, which gives the exit status. -/
def run (project : Project) (isVerbose : Bool) : Command → ExceptT Error m Nat
  | check output markdown => do
    let (_, report) ← analyze host project isVerbose
    attempt (host.writeText output report.fileText) (.report output)
    host.printError ("Report written to " ++ output.text ++ "\n")
    if let some path := markdown then
      attempt (host.writeText path report.markdown) (.markdown path)
      host.printError ("Markdown report written to " ++ path.text ++ "\n")
    host.print report.console
    return if report.isBlocking then 1 else 0
  | generate folder => do
    let (analysis, report) ← analyze host project isVerbose
    host.print report.console
    if report.isBlocking then
      host.printError
        "Warning: blocking diagnostics found, the generated scripts should not be deployed\n"
    let config := project.config
    let folder := folder.getD (project.resolve config.output.folder)
    note host isVerbose ("Writing scripts to " ++ folder.text)
    Project.writeScripts host config folder
      (Sql.generate config.engine config.sqlSettings analysis.graph)
    host.printError ("Scripts written to " ++ folder.text ++ "\n")
    return 0
  | fingerprint => do
    let project ← project.discover host
    let content ← project.read host isVerbose
    note host (isVerbose && 0 < content.sink.size)
      ("Found " ++ toString content.sink.size ++ " diagnostic(s) while reading")
    host.print (content.graph.fingerprint ++ "\n")
    return 0

def invoke (invocation : Invocation) : ExceptT Error m Nat := do
  let project ← projectOf host invocation
  note host invocation.isVerbose ("Using dialect: " ++ project.config.engine.label)
  run host project invocation.isVerbose invocation.command

def usage : String :=
  "Usage: modelc [OPTIONS] <COMMAND>\n\n"
    ++ "Commands:\n"
    ++ "  check        Validate the models and initializers\n"
    ++ "  generate     Validate, then write the SQL scripts\n"
    ++ "  fingerprint  Print the fingerprint of the model graph\n"
    ++ "  help         Print this message\n\n"
    ++ "Options:\n"
    ++ "  -c, --config <CONFIG>  Path to config file (default: modelc.toml)\n"
    ++ "  -v, --verbose          Enable verbose output\n"
    ++ "  -h, --help             Print help\n"
    ++ "  -V, --version          Print version\n"

/-- The program: read arguments and run the command they name. -/
def execute (args : List String) : m Nat := do
  match parse args with
  | .error .usage =>
    host.printError usage
    return 2
  | .error .help =>
    host.print usage
    return 0
  | .error .version =>
    host.print "modelc 0.1.0\n"
    return 0
  | .ok invocation =>
    match ← (invoke host invocation).run with
    | .ok status => return status
    | .error error =>
      host.printError error.text
      return 1

end ModelSchema.Command
