import ModelSchema.Command.Run
import ModelSchema.Report.Timestamp
import Std.Time.DateTime.Timestamp

/-!
# The command line

The program on the machine it is started on.
-/

namespace ModelSchema.Host

/-- The number of an error, which some operations give with a minus sign. -/
def errorNumber (code : UInt32) : UInt32 :=
  min code (0 - code)

/-- Why an operation of the machine failed. -/
def failureOf (error : IO.Error) : Failure :=
  match error with
  | .noFileOrDirectory .. | .noSuchThing .. => .missing
  | .permissionDenied .. => .denied
  | .alreadyExists .. => .taken
  | .inappropriateType _ code _ =>
    if errorNumber code = 20 then .notFolder
    else if errorNumber code = 21 then .isFolder
    else .other (toString error)
  | .invalidArgument _ code _ =>
    if errorNumber code = 36 then .overlong else .other (toString error)
  | _ => .other (toString error)

def outcomeOf {α : Type} (path : Path) (action : IO α) : IO (Except Failure α) := do
  if path.text.toList.contains (Char.ofNat 0) then return .error .unusable
  match ← action.toBaseIO with
  | .ok value => return .ok value
  | .error error => return .error (failureOf error)

def lookAt (path : Path) : IO Entry := do
  let entry : IO.FS.DirEntry := ⟨path.text, ""⟩
  match (← entry.root.metadata).type with
  | .file => return .file
  | .dir => return .folder ((← entry.root.readDir).toList.map (·.fileName))
  | _ => return .other

def machine : Host IO where
  currentFolder := do return ⟨(← IO.currentDir).toString⟩
  now := do
    let time := (← Std.Time.Timestamp.now).val
    return Report.timestampText time.second.val.toNat time.nano.val.toNat
  look path := outcomeOf path (lookAt path)
  readText path := do
    match ← outcomeOf path (IO.FS.readBinFile path.text) with
    | .ok content =>
      match String.fromUTF8? content with
      | some text => return .ok text
      | none => return .error .notText
    | .error failure => return .error failure
  makeFolder path := outcomeOf path (IO.FS.createDir path.text)
  create path := outcomeOf path (IO.FS.writeFile path.text "")
  overwrite path position text := outcomeOf path do
    let content ← IO.FS.readBinFile path.text
    IO.FS.writeBinFile path.text (patch content position text.toUTF8)
  print text := IO.print text
  printError text := IO.eprint text

end ModelSchema.Host

def main (args : List String) : IO UInt32 := do
  return (← ModelSchema.Command.execute ModelSchema.Host.machine args).toUInt32
