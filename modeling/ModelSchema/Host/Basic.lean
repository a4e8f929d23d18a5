import ModelSchema.Path

/-!
# Hosts

What the program needs of the machine it runs on: files, two streams to print to, and the time. All
that it does with them is written over a `Host`, so it runs in any monad that offers one.
-/

namespace ModelSchema

namespace Host

/-- Why the host refused an operation on a file. -/
inductive Failure where
  | missing
  | denied
  | taken
  | notFolder
  | isFolder
  /-- The path, or a name in it, is too long. -/
  | overlong
  /-- No path has such characters. -/
  | unusable
  /-- The content is not text in UTF-8. -/
  | notText
  | other (text : String)
deriving DecidableEq, Repr

def Failure.message : Failure → String
  | missing => "No such file or directory (os error 2)"
  | denied => "Permission denied (os error 13)"
  | taken => "File exists (os error 17)"
  | notFolder => "Not a directory (os error 20)"
  | isFolder => "Is a directory (os error 21)"
  | overlong => "File name too long (os error 36)"
  | unusable => "file name contained an unexpected NUL byte"
  | notText => "stream did not contain valid UTF-8"
  | other text => text

/-- What a path leads to. -/
inductive Entry where
  | file
  /-- A folder with the names of what it holds. -/
  | folder (names : List String)
  | other

/-- Content with other bytes from a position on. A gap before them is filled with zeros. -/
def patch (content : ByteArray) (position : Nat) (bytes : ByteArray) : ByteArray :=
  let gap : ByteArray := ⟨Array.replicate (position - content.size) 0⟩
  content.extract 0 position ++ gap ++ bytes
    ++ content.extract (position + bytes.size) content.size

end Host

/-- The operations of a machine. -/
structure Host (m : Type → Type) where
  currentFolder : m Path
  now : m String
  look : Path → m (Except Host.Failure Host.Entry)
  readText : Path → m (Except Host.Failure String)
  makeFolder : Path → m (Except Host.Failure Unit)
  /-- Make a file empty, whether it exists or not. -/
  create : Path → m (Except Host.Failure Unit)
  /-- Write over a file, from a position on. -/
  overwrite : Path → Nat → String → m (Except Host.Failure Unit)
  print : String → m Unit
  printError : String → m Unit

namespace Host

variable {m : Type → Type} [Monad m] (host : Host m)

def leadsTo (path : Path) : m Bool := do
  match ← host.look path with
  | .ok _ => return true
  | .error _ => return false

def isFolder (path : Path) : m Bool := do
  match ← host.look path with
  | .ok (.folder _) => return true
  | _ => return false

/-- Write a text as the only content of a file. -/
def writeText (path : Path) (text : String) : m (Except Failure Unit) := do
  match ← host.create path with
  | .ok () => host.overwrite path 0 text
  | .error failure => return .error failure

def ensureFolder (path : Path) : m (Except Failure Unit) := do
  match ← host.makeFolder path with
  | .ok () => return .ok ()
  | .error failure => return if ← host.isFolder path then .ok () else .error failure

/-- Make a folder and those above it that are missing. Each of those has a shorter path, which
bounds the first argument. -/
def ensureFoldersAt : Nat → Path → m (Except Failure Unit)
  | 0, _ => return .ok ()
  | fuel + 1, path => do
    if path.text == "" then return .ok ()
    match ← host.ensureFolder path with
    | .error .missing =>
      match path.parent? with
      | none => return .error (.other "failed to create whole tree")
      | some parent =>
        match ← ensureFoldersAt fuel parent with
        | .ok () => host.ensureFolder path
        | .error failure => return .error failure
    | outcome => return outcome

def ensureFolders (path : Path) : m (Except Failure Unit) :=
  host.ensureFoldersAt (path.text.length + 1) path

end Host

end ModelSchema
