import ModelSchema.Catalog
import ModelSchema.Toml.Value

/-!
# Reading records from TOML

A record with named fields is written as a table or as the array of its fields in order. Other
fields are skipped. A time stands for a record without fields.
-/

namespace ModelSchema.Toml

namespace Value

def asString? : Value → Option String
  | string s => some s
  | _ => none

/-- The items of an array, each read by `decode`. -/
def asList? {α : Type} (decode : Value → Option α) : Value → Option (List α)
  | array items => items.mapM decode
  | _ => none

/-- The entries of a table, each read by `decode`. -/
def asCatalog? {α : Type} (decode : Value → Option α) : Value → Option (Catalog α)
  | table entries =>
    (entries.mapM fun entry => (decode entry.2).map fun value => (entry.1, value)).map
      Catalog.ofList
  | _ => none

/-- The name of a case without content: the name itself, or a table with it as only key. -/
def asCase? : Value → Option String
  | string s => some s
  | table [(name, table [])] => some name
  | table [(name, array [])] => some name
  | _ => none

/-- The fields of a record with the given names. -/
def fields? (names : List String) : Value → Option Entries
  | table entries => some entries
  | array items => some (names.zip items)
  | datetime _ => some []
  | _ => none

end Value

namespace Entries

variable {α : Type}

def required (entries : Entries) (name : String) (decode : Value → Option α) : Option α :=
  (entries.lookup name).bind decode

def defaulted (entries : Entries) (name : String) (decode : Value → Option α) (default : α) :
    Option α :=
  match entries.lookup name with
  | some value => decode value
  | none => some default

/-- A field that may be missing, without default. -/
def optional (entries : Entries) (name : String) (decode : Value → Option α) : Option (Option α) :=
  match entries.lookup name with
  | some value => (decode value).map some
  | none => some none

end Entries

end ModelSchema.Toml
