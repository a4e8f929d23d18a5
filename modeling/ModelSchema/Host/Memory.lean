import ModelSchema.Host.Basic
import ModelSchema.Catalog

/-!
# A host in memory

A volume holds folders and files; a machine is a volume with a working folder, what has been
printed, and a clock that stands still. Programs run on it without any effect outside.
-/

namespace ModelSchema

open Host (Failure)

/-- Folders and files, by the segments of the paths that lead to them from the root. -/
structure Volume where
  folders : List (List String)
  files : List (List String × ByteArray)

namespace Volume

/-- Whether a path is a folder; the root always is. -/
def hasFolder (volume : Volume) (place : List String) : Bool :=
  place.isEmpty || volume.folders.contains place

def addFolder (volume : Volume) (place : List String) : Volume :=
  if volume.hasFolder place then volume else { volume with folders := volume.folders ++ [place] }

def setFile (volume : Volume) (place : List String) (content : ByteArray) : Volume :=
  { volume with
    files :=
      if volume.files.any (·.1 == place) then
        volume.files.map fun file => if file.1 == place then (place, content) else file
      else volume.files ++ [(place, content)] }

/-- Add a file and all folders above it. -/
def addFile (volume : Volume) (place : List String) (content : ByteArray) : Volume :=
  let folders := (List.range place.length).map fun depth => place.take depth
  (folders.foldl addFolder volume).setFile place content

def names (volume : Volume) (folder : List String) : List String :=
  (volume.folders ++ volume.files.map (·.1)).filterMap fun place =>
    if !place.isEmpty && place.dropLast == folder then place.getLast? else none

/-- Where a path leads. After a slash only a folder can be meant. -/
inductive Place where
  | folder (place : List String)
  | file (place : List String) (content : ByteArray) (isSlashed : Bool)
  /-- Nowhere, in a folder that exists. -/
  | free (place : List String) (isSlashed : Bool)
  /-- Nowhere, because the name is too long. -/
  | overlong (isSlashed : Bool)

def nameLimit : Nat := 255

def pathLimit : Nat := 4095

def step (volume : Volume) : Place → String → Except Failure Place
  | .folder place, "" | .folder place, "." => .ok (.folder place)
  | .folder place, ".." => .ok (.folder place.dropLast)
  | .folder place, name =>
    let inner := place ++ [name]
    if nameLimit < name.utf8ByteSize then .ok (.overlong false)
    else if volume.hasFolder inner then .ok (.folder inner)
    else
      match volume.files.lookup inner with
      | some content => .ok (.file inner content false)
      | none => .ok (.free inner false)
  | .file place content _, "" => .ok (.file place content true)
  | .file _ _ _, _ => .error .notFolder
  | .free place _, "" => .ok (.free place true)
  | .free _ _, _ => .error .missing
  | .overlong _, "" => .ok (.overlong true)
  | .overlong _, _ => .error .overlong

def locate (volume : Volume) (current : List String) (path : Path) : Except Failure Place :=
  if path.text.toList.contains (Char.ofNat 0) then .error .unusable
  else if pathLimit < path.text.utf8ByteSize then .error .overlong
  else if path.text = "" then .error .missing
  else
    let start := if path.isAbsolute then [] else current
    ((Path.splitSlashes path.text.toList).map String.ofList).foldlM volume.step (.folder start)

end Volume

/-- A machine without effect outside. -/
structure Machine where
  volume : Volume
  current : List String
  clock : String
  /-- What has been printed. -/
  printed : String
  /-- What has been printed as errors. -/
  errors : String

namespace Machine

/-- A machine with some files in its working folder. -/
def new (current : List String) (clock : String) (files : List (String × ByteArray)) : Machine where
  volume :=
    files.foldl
      (fun volume file =>
        volume.addFile (current ++ (Path.mk file.1).components.segments) file.2)
      (Volume.addFolder ⟨[], []⟩ current)
  current := current
  clock := clock
  printed := ""
  errors := ""

def locate (machine : Machine) (path : Path) : Except Failure Volume.Place :=
  machine.volume.locate machine.current path

def look (machine : Machine) (path : Path) : Except Failure Host.Entry := do
  match ← machine.locate path with
  | .folder place => return .folder (machine.volume.names place)
  | .file _ _ false => return .file
  | .file _ _ true => throw .notFolder
  | .free _ _ => throw .missing
  | .overlong _ => throw .overlong

def readText (machine : Machine) (path : Path) : Except Failure String := do
  match ← machine.locate path with
  | .folder _ => throw .isFolder
  | .file _ content false =>
    match String.fromUTF8? content with
    | some text => return text
    | none => throw .notText
  | .file _ _ true => throw .notFolder
  | .free _ _ => throw .missing
  | .overlong _ => throw .overlong

def makeFolder (machine : Machine) (path : Path) : Except Failure Volume := do
  match ← machine.locate path with
  | .free place _ => return machine.volume.addFolder place
  | .overlong _ => throw .overlong
  | .folder _ | .file _ _ _ => throw .taken

/-- Change the content of a file, which is empty if it does not exist. -/
def write (machine : Machine) (path : Path) (change : ByteArray → ByteArray) :
    Except Failure Volume := do
  match ← machine.locate path with
  | .folder _ | .file _ _ true | .free _ true | .overlong true => throw .isFolder
  | .file place content false => return machine.volume.setFile place (change content)
  | .free place false => return machine.volume.setFile place (change .empty)
  | .overlong false => throw .overlong

/-- Put an outcome into effect. -/
def commit (outcome : Machine → Except Failure Volume) : StateM Machine (Except Failure Unit) := do
  let machine ← get
  match outcome machine with
  | .ok volume =>
    set { machine with volume }
    return .ok ()
  | .error failure => return .error failure

def host : Host (StateM Machine) where
  currentFolder := do return ⟨"/" ++ Text.join "/" (← get).current⟩
  now := do return (← get).clock
  look path := do return (← get).look path
  readText path := do return (← get).readText path
  makeFolder path := commit fun machine => machine.makeFolder path
  create path := commit fun machine => machine.write path fun _ => .empty
  overwrite path position text := commit fun machine =>
    machine.write path fun content => Host.patch content position text.toUTF8
  print text := modify fun machine => { machine with printed := machine.printed ++ text }
  printError text := modify fun machine => { machine with errors := machine.errors ++ text }

/-- The files in the working folder, by their paths from there. -/
def files (machine : Machine) : Catalog ByteArray :=
  Catalog.ofList <| machine.volume.files.filterMap fun file =>
    if machine.current.isPrefixOf file.1 then
      some (Text.join "/" (file.1.drop machine.current.length), file.2)
    else none

end Machine

end ModelSchema
