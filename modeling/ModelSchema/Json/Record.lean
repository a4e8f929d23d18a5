import ModelSchema.Catalog
import ModelSchema.Json.Basic

/-!
# Reading records from JSON

A record with named fields is written as an object or as the array of its fields in order. In an
object, fields with other names are skipped, and no field may stand twice. In an array, only fields
with a default may be missing, and only at the end.
-/

namespace ModelSchema.Json

/-! ## Single values -/

/-- The string that a value is. -/
def asText? : Json → Option String
  | text s => some s
  | _ => none

def asBool? : Json → Option Bool
  | bool b => some b
  | _ => none

def asNat? : Json → Option Nat
  | int n => if 0 ≤ n then some n.toNat else none
  | _ => none

/-- The items of a list, each read by `decode`. -/
def asList? {α : Type} (decode : Json → Option α) : Json → Option (List α)
  | array items => items.mapM decode
  | _ => none

/-- The entries of a map, each read by `decode`; of two entries with one key the last is kept. -/
def asCatalog? {α : Type} (decode : Json → Option α) : Json → Option (Catalog α)
  | object fields =>
    (fields.mapM fun field => (decode field.2).map fun value => (field.1, value)).map Catalog.ofList
  | _ => none

/-- The name of a case without content: the name itself, or an object with it as only key. -/
def asCase? : Json → Option String
  | text s => some s
  | object [(name, null)] => some name
  | _ => none

/-! ## Records -/

/-- The fields found for a record. -/
structure Record where
  isPositional : Bool
  fields : List (String × Json)

/-- Find the fields with the given names. -/
def record? (names : List String) : Json → Option Record
  | object fields =>
    let known := fields.filter fun field => names.contains field.1
    if (known.map (·.1)).Nodup then some ⟨false, known⟩ else none
  | array items =>
    if items.length ≤ names.length then some ⟨true, names.zip items⟩ else none
  | _ => none

namespace Record

variable {α : Type}

def required (record : Record) (name : String) (decode : Json → Option α) : Option α :=
  (record.fields.lookup name).bind decode

def defaulted (record : Record) (name : String) (decode : Json → Option α) (default : α) :
    Option α :=
  match record.fields.lookup name with
  | some json => decode json
  | none => some default

/-- A field that may be null and, in an object, missing. -/
def optional (record : Record) (name : String) (decode : Json → Option α) : Option (Option α) :=
  match record.fields.lookup name with
  | some null => some none
  | some json => (decode json).map some
  | none => if record.isPositional then none else some none

end Record

end ModelSchema.Json
