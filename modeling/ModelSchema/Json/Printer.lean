import ModelSchema.Json.Basic

/-!
# JSON text

Two ways to write a value: `compact`, without any blanks, and `pretty`, with one item or field per
line and two spaces for each level. Both escape only quotes, backslashes and control characters.
-/

namespace ModelSchema.Json

/-! ## Strings -/

def hexDigit (n : Nat) : Char :=
  Nat.digitChar (n % 16)

/-- A character as written inside a string. -/
def escape (c : Char) : List Char :=
  if c = '"' then ['\\', '"']
  else if c = '\\' then ['\\', '\\']
  else if c.toNat < 0x20 then
    if c.toNat = 0x08 then ['\\', 'b']
    else if c.toNat = 0x09 then ['\\', 't']
    else if c.toNat = 0x0a then ['\\', 'n']
    else if c.toNat = 0x0c then ['\\', 'f']
    else if c.toNat = 0x0d then ['\\', 'r']
    else ['\\', 'u', '0', '0', hexDigit (c.toNat / 16), hexDigit c.toNat]
  else [c]

def quoted (s : String) : List Char :=
  '"' :: (s.toList.flatMap escape ++ ['"'])

/-! ## Values -/

/-- A value that holds no others. -/
def scalar : Json → List Char
  | bool true => "true".toList
  | bool false => "false".toList
  | int n => (toString n).toList
  | double f => (layout.text f).toList
  | text s => quoted s
  | _ => "null".toList

mutual

def compact : Json → List Char
  | array [] => ['[', ']']
  | array (item :: items) => '[' :: (compact item ++ compactItems items)
  | object [] => ['\x7b', '\x7d']
  | object ((name, value) :: fields) =>
    '\x7b' :: (quoted name ++ ':' :: (compact value ++ compactFields fields))
  | json => scalar json

/-- The items after the first, with the closing bracket. -/
def compactItems : List Json → List Char
  | [] => [']']
  | item :: items => ',' :: (compact item ++ compactItems items)

/-- The fields after the first, with the closing brace. -/
def compactFields : List (String × Json) → List Char
  | [] => ['\x7d']
  | (name, value) :: fields =>
    ',' :: (quoted name ++ ':' :: (compact value ++ compactFields fields))

end

/-- The start of a line at a level. -/
def newLine (level : Nat) : List Char :=
  '\n' :: List.replicate (2 * level) ' '

mutual

/-- A value spread over lines, the first of which is already indented. -/
def pretty (level : Nat) : Json → List Char
  | array [] => ['[', ']']
  | array (item :: items) =>
    '[' :: (newLine (level + 1) ++ pretty (level + 1) item ++ prettyItems level items)
  | object [] => ['\x7b', '\x7d']
  | object ((name, value) :: fields) =>
    '\x7b' :: (newLine (level + 1) ++ quoted name ++ ':' :: ' ' :: pretty (level + 1) value
      ++ prettyFields level fields)
  | json => scalar json

def prettyItems (level : Nat) : List Json → List Char
  | [] => newLine level ++ [']']
  | item :: items =>
    ',' :: (newLine (level + 1) ++ pretty (level + 1) item ++ prettyItems level items)

def prettyFields (level : Nat) : List (String × Json) → List Char
  | [] => newLine level ++ ['\x7d']
  | (name, value) :: fields =>
    ',' :: (newLine (level + 1) ++ quoted name ++ ':' :: ' ' :: pretty (level + 1) value
      ++ prettyFields level fields)

end

def render (json : Json) : String :=
  String.ofList json.compact

def renderPretty (json : Json) : String :=
  String.ofList (json.pretty 0)

end ModelSchema.Json
