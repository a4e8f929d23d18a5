/-!
# Comparing texts up to ASCII case

Tags, flags, stereotypes and type names are matched with the case of the letters `A` to `Z` ignored;
all other characters are compared as they are.
-/

namespace ModelSchema.Text

/-- The text with `A` to `Z` in lower case. -/
def lower (s : String) : String :=
  String.ofList (s.toList.map Char.toLower)

/-- The text with `a` to `z` in upper case. -/
def upper (s : String) : String :=
  String.ofList (s.toList.map Char.toUpper)

/-- Equality up to the case of ASCII letters. -/
def equalsIgnoringCase (a b : String) : Bool :=
  lower a == lower b

def startsWith (start s : String) : Bool :=
  start.toList.isPrefixOf s.toList

def endsWith (ending s : String) : Bool :=
  ending.toList.isSuffixOf s.toList

/-- The texts one after the other, with `separator` between neighbours. -/
def join (separator : String) : List String → String
  | [] => ""
  | [s] => s
  | s :: rest => s ++ separator ++ join separator rest

end ModelSchema.Text
