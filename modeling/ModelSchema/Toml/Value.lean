/-!
# TOML values

The values of a configuration file. Numbers with a fraction and times are kept as they are written,
because no setting is one.
-/

namespace ModelSchema.Toml

/-- A TOML value; the entries of a table are kept in order. -/
inductive Value where
  | string (value : String)
  | boolean (value : Bool)
  | integer (value : Int)
  | float (text : String)
  | datetime (text : String)
  | array (items : List Value)
  | table (entries : List (String × Value))
deriving Inhabited

abbrev Entries := List (String × Value)

namespace Value

def isTable : Value → Bool
  | table _ => true
  | _ => false

/-- Whether a value is written as sections of its own: a table, or several tables. -/
def isSection : Value → Bool
  | table _ => true
  | array items => !items.isEmpty && items.all isTable
  | _ => false

end Value

/-- Entries in the order in which they are written: those with sections of their own come last. -/
def arranged (entries : Entries) : Entries :=
  entries.filter (!·.2.isSection) ++ entries.filter (·.2.isSection)

end ModelSchema.Toml
