import ModelSchema.Text.Ascii

/-!
# Paths

A path is kept as it is written; `/` separates its segments. Empty segments and the segment `.` mean
nothing, except that a `.` at the start of a relative path is kept.
-/

namespace ModelSchema

/-- A path as written. -/
structure Path where
  text : String
deriving DecidableEq, Repr, Inhabited

namespace Path

/-- The parts of a text between slashes. -/
def splitSlashes : List Char → List (List Char)
  | [] => [[]]
  | '/' :: rest => [] :: splitSlashes rest
  | c :: rest =>
    match splitSlashes rest with
    | [] => [[c]]
    | part :: parts => (c :: part) :: parts

def joinSlashes : List (List Char) → List Char
  | [] => []
  | [part] => part
  | part :: parts => part ++ '/' :: joinSlashes parts

/-- A segment that means nothing inside a path. -/
def isTrivial (segment : List Char) : Bool :=
  segment == [] || segment == ['.']

def isAbsolute (path : Path) : Bool :=
  path.text.toList.head? == some '/'

/-- The start of a path that names no segment below it, and the segments after it: `/` for an
absolute path, `.` for a path that starts with this segment. -/
def anchored (path : Path) : Option Char × List (List Char) :=
  match path.text.toList with
  | '/' :: rest => (some '/', splitSlashes rest)
  | ['.'] => (some '.', [])
  | '.' :: '/' :: rest => (some '.', [] :: splitSlashes rest)
  | chars => (none, splitSlashes chars)

/-- What a path means: where it starts, and its segments that mean something. -/
structure Components where
  anchor : Option Char
  segments : List String
deriving DecidableEq, Repr

def components (path : Path) : Components :=
  let (anchor, segments) := path.anchored
  ⟨anchor, (segments.filter (!isTrivial ·)).map String.ofList⟩

/-- The path without its last segment; the root and the empty path have none. -/
def parent? (path : Path) : Option Path :=
  let (anchor, segments) := path.anchored
  match segments.reverse.dropWhile isTrivial with
  | [] => if anchor == some '.' then some ⟨""⟩ else none
  | _ :: above =>
    some ⟨String.ofList (anchor.toList ++ joinSlashes (above.dropWhile isTrivial).reverse)⟩

/-- The last segment, if it names a file or folder. -/
def fileName? (path : Path) : Option String :=
  match path.components.segments.getLast? with
  | some ".." | none => none
  | some name => some name

/-- What stands after the last dot of the file name. A dot that starts the name does not count. -/
def extension? (path : Path) : Option String := do
  let name ← path.fileName?
  let reversed := name.toList.reverse
  let extension := reversed.takeWhile (· != '.')
  match reversed.dropWhile (· != '.') with
  | '.' :: _ :: _ => some (String.ofList extension.reverse)
  | _ => none

/-- A path below another one; an absolute path stays where it is. -/
def join (base path : Path) : Path :=
  if path.isAbsolute then path
  else if base.text == "" || Text.endsWith "/" base.text then ⟨base.text ++ path.text⟩
  else ⟨base.text ++ "/" ++ path.text⟩

/-- Drop so many segments that mean something, and those that mean nothing before the next one. -/
def dropSegments : Nat → List (List Char) → List (List Char)
  | _, [] => []
  | count, segment :: rest =>
    if isTrivial segment then dropSegments count rest
    else
      match count with
      | 0 => segment :: rest
      | count + 1 => dropSegments count rest

/-- The path as seen from a folder that it lies in. -/
def below? (path base : Path) : Option Path :=
  let inner := path.components
  let outer := base.components
  if base.text == "" then some path
  else if inner.anchor == outer.anchor && outer.segments.isPrefixOf inner.segments then
    some ⟨String.ofList (joinSlashes (dropSegments outer.segments.length path.anchored.2))⟩
  else none

end Path

end ModelSchema
