import ModelSchema.Toml.Literal
import ModelSchema.Toml.Tree

/-!
# Reading TOML text

A document is a list of sections, each with a header and key-value pairs. `Toml.parse?` gives the
entries of the outermost table.
-/

namespace ModelSchema.Toml

/-- How deep values may be nested, and how many parts a key may have. -/
def depthLimit : Nat := 80

def dottedKey? (cs : List Char) : Option (List String × List Char) :=
  key? (depthLimit - 1) cs

mutual

/-- Read a value inside so many others. The first argument bounds the nesting of calls. -/
def value? : Nat → Nat → List Char → Option (Value × List Char)
  | 0, _, _ => none
  | fuel + 1, depth, cs =>
    match cs with
    | '"' :: _ | '\'' :: _ => (string? cs).map fun (s, rest) => (.string s, rest)
    | 't' :: 'r' :: 'u' :: 'e' :: rest => some (.boolean true, rest)
    | 'f' :: 'a' :: 'l' :: 's' :: 'e' :: rest => some (.boolean false, rest)
    | '[' :: rest =>
      if depthLimit ≤ depth + 1 then none
      else (items? fuel (depth + 1) rest).map fun (items, rest) => (.array items, rest)
    | '\x7b' :: rest =>
      if depthLimit ≤ depth + 1 then none
      else
        match skipBlanks rest with
        | '\x7d' :: rest => some (.table [], rest)
        | rest =>
          (pairs? fuel (depth + 1) rest).bind fun (pairs, rest) =>
            (ofPairs? pairs).map fun value => (value, rest)
    | _ => number? cs

/-- Read the items of an array and the closing bracket. A comma may follow the last item. -/
def items? : Nat → Nat → List Char → Option (List Value × List Char)
  | 0, _, _ => none
  | fuel + 1, depth, cs =>
    match skipLines? (cs.length + 1) cs with
    | none => none
    | some (']' :: rest) => some ([], rest)
    | some cs =>
      match value? fuel depth cs with
      | none => none
      | some (item, rest) =>
        match skipLines? (rest.length + 1) rest with
        | some (',' :: rest) =>
          (items? fuel depth rest).map fun (items, rest) => (item :: items, rest)
        | some (']' :: rest) => some ([item], rest)
        | _ => none

/-- Read the pairs of a table written as a value, and the closing brace. -/
def pairs? : Nat → Nat → List Char → Option (List (List String × Value) × List Char)
  | 0, _, _ => none
  | fuel + 1, depth, cs =>
    match dottedKey? cs with
    | some (key, '=' :: rest) =>
      match value? fuel depth (skipBlanks rest) with
      | none => none
      | some (value, rest) =>
        match skipBlanks rest with
        | ',' :: rest =>
          (pairs? fuel depth rest).map fun (pairs, rest) => ((key, value) :: pairs, rest)
        | '\x7d' :: rest => some ([(key, value)], rest)
        | _ => none
    | _ => none

end

/-! ## Documents -/

inductive Line where
  | pair (key : List String) (value : Value)
  /-- The header of a table. -/
  | header (key : List String)
  /-- The header of one of several tables. -/
  | arrayHeader (key : List String)

/-- Read a line that is neither empty nor a comment. -/
def line? (cs : List Char) : Option (Line × List Char) := do
  match cs with
  | '[' :: '[' :: rest =>
    match ← dottedKey? rest with
    | (key, ']' :: ']' :: rest) => return (.arrayHeader key, ← finishLine? rest)
    | _ => none
  | '[' :: rest =>
    match ← dottedKey? rest with
    | (key, ']' :: rest) => return (.header key, ← finishLine? rest)
    | _ => none
  | _ =>
    match ← dottedKey? cs with
    | (key, '=' :: rest) =>
      let rest := skipBlanks rest
      let (value, rest) ← value? (2 * rest.length + 2) 0 rest
      return (.pair key value, ← finishLine? rest)
    | _ => none

/-- Read all lines. Each takes characters, so the length of the text bounds their number. -/
def lines? : Nat → List Char → Option (List Line)
  | 0, _ => none
  | fuel + 1, cs =>
    match skipBlanks cs with
    | [] => some []
    | '#' :: rest =>
      match rest.dropWhile isPlain with
      | [] => some []
      | rest => (lineEnd? rest).bind (lines? fuel)
    | rest =>
      match lineEnd? rest with
      | some rest => lines? fuel rest
      | none =>
        match line? rest with
        | some (line, rest) => (lines? fuel rest).map (line :: ·)
        | none => none

/-- A document read in part: the tables that are complete, and the one that pairs go to. -/
structure Progress where
  root : Tree
  current : Tree
  path : List String
  isArray : Bool

namespace Progress

/-- Nothing read yet: pairs go to the outermost table. -/
def start : Progress := ⟨.declared [], .declared [], [], false⟩

/-- Put the current table in its place. -/
def close? (progress : Progress) : Option Tree :=
  match splitKey? progress.path with
  | none => some progress.current
  | some (path, name) =>
    progress.root.modifyAt false
      (fun parent =>
        match parent.entries.lookup name, progress.isArray with
        | none, false => some (parent.set name progress.current.item)
        | none, true => some (parent.set name (.tables [progress.current.entries]))
        | some (.tables elements), true =>
          some (parent.set name (.tables (progress.current.entries :: elements)))
        | _, _ => none)
      path

/-- Start the section of a table. It may have been implied before, but not declared. -/
def openTable? (root : Tree) (key : List String) : Option Progress := do
  let (path, name) ← splitKey? key
  let found ← root.modifyAt false
    (fun parent =>
      match parent.entries.lookup name with
      | none => some parent
      | some (.table true false _) => some parent
      | _ => none)
    path
  let inner := (lookup found path).bind fun entries => entries.lookup name
  let cleared ← found.modifyAt false (fun parent => some (parent.erase name)) path
  let entries :=
    match inner with
    | some (.table _ _ entries) => entries
    | _ => []
  return ⟨cleared, .declared entries, key, false⟩
where
  /-- The entries of the table at the end of a path. -/
  lookup (tree : Tree) : List String → Option (List (String × Item))
    | [] => some tree.entries
    | name :: path =>
      match tree.entries.lookup name with
      | some (.table isImplicit isDotted entries) => lookup ⟨isImplicit, isDotted, entries⟩ path
      | some (.tables (last :: _)) => lookup (.declared last) path
      | _ => none

def openArray? (root : Tree) (key : List String) : Option Progress := do
  let (path, name) ← splitKey? key
  let root ← root.modifyAt false
    (fun parent =>
      match parent.entries.lookup name with
      | none | some (.tables _) => some parent
      | _ => none)
    path
  return ⟨root, .declared [], key, true⟩

def step? (progress : Progress) : Line → Option Progress
  | .pair key value => do
    return { progress with current := ← progress.current.insertAt? key value }
  | .header key => do openTable? (← progress.close?) key
  | .arrayHeader key => do openArray? (← progress.close?) key

end Progress

/-- The entries of the outermost table of a document; a byte order mark is skipped. -/
def parse? (s : String) : Option Entries := do
  let cs := s.toList
  let cs := if cs.head? == some (Char.ofNat 0xfeff) then cs.drop 1 else cs
  let lines ← lines? (cs.length + 1) cs
  let root ← (← lines.foldlM Progress.step? .start).close?
  return entriesOf root.entries

end ModelSchema.Toml
