import ModelSchema.Text.Ascii
import ModelSchema.Toml.Literal

/-!
# Writing TOML text

`render` writes the entries of a table: first the plain values, one a line, then a section for each
table, with an empty line before it. A string is written in the first form that needs no escapes.
-/

namespace ModelSchema.Toml

/-! ## Strings and keys -/

/-- Control characters, tab and line feed apart. -/
def isControl (c : Char) : Bool :=
  (c.toNat ≤ 0x1f && c != '\t' && c != '\n') || c.toNat == 0x7f

/-- The length of the longest run of a character; `run` counts the one that is read. -/
def longestRun (c : Char) (run : Nat) : List Char → Nat
  | [] => run
  | d :: rest => if d = c then longestRun c (run + 1) rest else max run (longestRun c 0 rest)

def hexDigits (value : Nat) : List Char :=
  [3, 2, 1, 0].map fun place => (Nat.digitChar (value / Nat.pow 16 place % 16)).toUpper

/-- A character with a backslash, if it needs one. -/
def escape (c : Char) : List Char :=
  match c with
  | '\x08' => ['\\', 'b']
  | '\t' => ['\\', 't']
  | '\n' => ['\\', 'n']
  | '\x0c' => ['\\', 'f']
  | '\r' => ['\\', 'r']
  | '"' => ['\\', '"']
  | '\\' => ['\\', '\\']
  | c => if isControl c then '\\' :: 'u' :: hexDigits c.toNat else [c]

/-- The inside of a string over several lines: line feeds stand as they are, and so do up to two
quotes in a row, of which `quotes` have been written. -/
def escapeLines (quotes : Nat) : List Char → List Char
  | [] => []
  | '\n' :: rest => '\n' :: escapeLines 0 rest
  | '"' :: rest =>
    if quotes < 2 then '"' :: escapeLines (quotes + 1) rest
    else '\\' :: '"' :: escapeLines 0 rest
  | c :: rest => escape c ++ escapeLines 0 rest

def basicText (s : String) : String :=
  "\"" ++ String.ofList (s.toList.flatMap escape) ++ "\""

/-- The opening of a string that may go over several lines. If it does, its text starts on a line of
its own: a line feed right behind the opening does not count. -/
def opening (quotes s : String) : String :=
  if s.toList.contains '\n' then quotes ++ "\n" else quotes

def basicLines (s : String) : String :=
  opening "\"\"\"" s ++ String.ofList (escapeLines 0 s.toList) ++ "\"\"\""

/-- A string that may go over several lines and has no escapes. -/
def literalLines (s : String) : String :=
  opening "'''" s ++ s ++ "'''"

/-- A string in the form that fits it. -/
def stringText (s : String) : String :=
  let cs := s.toList
  let hasControl := cs.any isControl
  let hasBackslash := cs.contains '\\'
  let hasLines := cs.contains '\n'
  let doubles := longestRun '"' 0 cs
  let singles := longestRun '\'' 0 cs
  if !hasControl && !hasBackslash && doubles == 0 && !hasLines then basicText s
  else if !hasControl && singles == 0 && !hasLines then "'" ++ s ++ "'"
  else if !hasControl && !hasBackslash && doubles ≤ 2 then basicLines s
  else if !hasControl && singles ≤ 2 then literalLines s
  else if hasLines then basicLines s
  else basicText s

/-- One part of a key in the form that fits it. -/
def keyText (s : String) : String :=
  let cs := s.toList
  let hasControl := cs.any fun c => isControl c || c == '\n'
  if !cs.isEmpty && cs.all isBare then s
  else if !hasControl && !cs.contains '\\' && !cs.contains '"' then basicText s
  else if !hasControl && !cs.contains '\'' then "'" ++ s ++ "'"
  else basicText s

def pathText (path : List String) : String :=
  Text.join "." (path.map keyText)

/-! ## Values -/

mutual

/-- A value behind its key. -/
def Value.text : Value → String
  | .string s => stringText s
  | .boolean b => if b then "true" else "false"
  | .integer n => toString n
  | .float s => s
  | .datetime s => s
  | .array items =>
    match itemTexts items with
    | [] => "[]"
    | [item] => "[" ++ item ++ "]"
    | several => "[\n" ++ String.join (several.map fun item => "    " ++ item ++ ",\n") ++ "]"
  | .table entries =>
    match pairTexts entries with
    | [] => "\x7b\x7d"
    | pairs => "\x7b " ++ Text.join ", " pairs ++ " \x7d"

def itemTexts : List Value → List String
  | [] => []
  | item :: rest => item.text :: itemTexts rest

/-- The entries of a table on one line. -/
def pairTexts : List (String × Value) → List String
  | [] => []
  | (name, value) :: rest => (keyText name ++ " = " ++ value.text) :: pairTexts rest

end

/-! ## Sections

A table of which all entries have sections of their own leaves no header; its path is in theirs. -/

def plainLines (entries : Entries) : String :=
  String.join <| (entries.filter (!·.2.isSection)).map fun entry =>
    keyText entry.1 ++ " = " ++ entry.2.text ++ "\n"

mutual

/-- The sections of a value with a name. A table that holds only sections needs no header. -/
def Value.sections (path : List String) : Value → List String
  | .table entries =>
    let lines := plainLines entries
    let own :=
      if lines.isEmpty && !entries.isEmpty then [] else ["[" ++ pathText path ++ "]\n" ++ lines]
    own ++ innerSections path entries
  | .array items =>
    if !items.isEmpty && items.all (·.isTable) then elementSections path items else []
  | _ => []

def elementSections (path : List String) : List Value → List String
  | [] => []
  | .table entries :: rest =>
    ("[[" ++ pathText path ++ "]]\n" ++ plainLines entries) :: innerSections path entries
      ++ elementSections path rest
  | _ :: rest => elementSections path rest

def innerSections (path : List String) : List (String × Value) → List String
  | [] => []
  | (name, value) :: rest => value.sections (path ++ [name]) ++ innerSections path rest

end

def render (entries : Entries) : String :=
  let lines := plainLines entries
  let own := if lines.isEmpty then [] else [lines]
  Text.join "\n" (own ++ innerSections [] entries)

end ModelSchema.Toml
