import ModelSchema.Text.Ascii
import ModelSchema.Text.Blank

/-!
# Class stereotypes

A class is a plain entity or a list of given items: a business reference list, whose labels are
translated, or a closed static list.
-/

namespace ModelSchema

/-- The role of a class in the schema. -/
inductive Stereotype where
  /-- A plain entity. -/
  | plain
  /-- A business reference list. -/
  | reference
  /-- A closed list, like an enumeration. -/
  | static
deriving DecidableEq, Repr, Inhabited

namespace Stereotype

/-- The stereotype written in a model; an absent or blank one is plain. The error is the text that
names none. -/
def parse : Option String → Except String Stereotype
  | none => .ok plain
  | some text =>
    let text := Text.trim text
    if text = "" then .ok plain
    else if Text.equalsIgnoringCase text "reference" then .ok reference
    else if Text.equalsIgnoringCase text "static" then .ok static
    else .error text

/-- The name used in messages. -/
def label : Stereotype → String
  | plain => "none"
  | reference => "Reference"
  | static => "Static"

/-- The name used in data files. -/
def key : Stereotype → String
  | plain => "none"
  | reference => "reference"
  | static => "static"

def ofKey? (key : String) : Option Stereotype :=
  [plain, reference, static].find? (·.key == key)

/-- Whether the class is a list of given items. -/
def isList : Stereotype → Bool
  | plain => false
  | reference | static => true

end Stereotype

end ModelSchema
