import ModelSchema.Json.Parser
import ModelSchema.Json.Printer
import ModelSchema.Json.Record

/-!
# Seed data

The rows that list tables are filled with come from a data file, apart from the models. It holds one
batch per class: who supplies it, the kind of list it expects, and its items in order. An item has a
value for some properties and a label for some languages.
-/

namespace ModelSchema

namespace Seed

/-- The kind of list a batch expects. -/
inductive Kind where
  | static
  | reference
deriving DecidableEq, Repr, Inhabited

namespace Kind

def key : Kind → String
  | static => "static"
  | reference => "reference"

def ofKey? (key : String) : Option Kind :=
  [static, reference].find? (·.key == key)

end Kind

inductive Value where
  | null
  | bool (value : Bool)
  | integer (value : Int)
  | double (value : Float)
  | text (value : String)
deriving DecidableEq, Inhabited

/-- A row of a list. -/
structure Item where
  name : String
  values : Catalog Value
  translations : Catalog String
deriving DecidableEq, Inhabited

/-- The rows of a class. -/
structure Batch where
  factory : String
  kind : Kind
  items : List Item
deriving DecidableEq, Inhabited

/-- Why seed data cannot be had. -/
inductive Error where
  /-- The file cannot be read. -/
  | unreadable (path reason : String)
  /-- The text is not seed data. -/
  | malformed
deriving DecidableEq, Repr

def Error.message : Error → String
  | unreadable path reason => "Failed to read initializer file " ++ path ++ ": " ++ reason
  | malformed => "Failed to parse initializer JSON: the text holds no batches by class"

end Seed

/-- Batches by class name, and the file they come from. -/
structure Seed where
  batches : Catalog Seed.Batch
  source : Option String
deriving DecidableEq, Inhabited

namespace Seed

def empty : Seed := ⟨.empty, none⟩

def insert (seed : Seed) (className : String) (batch : Batch) : Seed :=
  { seed with batches := seed.batches.insert className batch }

/-! ## Data file form -/

namespace Value

/-- The range of whole numbers; others are doubles. -/
def isInteger (n : Int) : Bool :=
  -(Nat.pow 2 63 : Nat) ≤ n && n < (Nat.pow 2 63 : Nat)

def toJson : Value → Json
  | null => .null
  | bool b => .bool b
  | integer n => .int n
  | double f => .double f
  | text s => .text s

/-- Read a value; lists and objects are none. -/
def ofJson? : Json → Option Value
  | .null => some null
  | .bool b => some (bool b)
  | .int n => some (if isInteger n then integer n else double n.toNat.toUInt64.toFloat)
  | .double f => some (double f)
  | .text s => some (text s)
  | _ => none

def parse? (s : String) : Option Value :=
  (Json.parse? s).bind ofJson?

end Value

namespace Item

def toJson (item : Item) : Json :=
  .object
    [("name", .text item.name),
      ("values", .object (item.values.entries.map fun (name, value) => (name, value.toJson))),
      ("translations",
        .object (item.translations.entries.map fun (language, label) => (language, .text label)))]

def ofJson? (json : Json) : Option Item := do
  let record ← json.record? ["name", "values", "translations"]
  let name ← record.required "name" Json.asText?
  let values ← record.defaulted "values" (Json.asCatalog? Value.ofJson?) .empty
  let translations ← record.defaulted "translations" (Json.asCatalog? Json.asText?) .empty
  return { name, values, translations }

end Item

namespace Batch

def toJson (batch : Batch) : Json :=
  .object
    [("factory", .text batch.factory),
      ("kind", .text batch.kind.key),
      ("items", .array (batch.items.map Item.toJson))]

def ofJson? (json : Json) : Option Batch := do
  let record ← json.record? ["factory", "kind", "items"]
  let factory ← record.required "factory" Json.asText?
  let kind ← record.required "kind" fun json => json.asCase?.bind Kind.ofKey?
  let items ← record.defaulted "items" (Json.asList? Item.ofJson?) []
  return { factory, kind, items }

end Batch

def toJson (seed : Seed) : Json :=
  .object (seed.batches.entries.map fun (name, batch) => (name, batch.toJson))

def ofJson? (json : Json) : Option Seed :=
  (json.asCatalog? Batch.ofJson?).map (⟨·, none⟩)

/-- The batches of a data file text. -/
def parse (s : String) : Except Error Seed :=
  match (Json.parse? s).bind ofJson? with
  | some seed => .ok seed
  | none => .error .malformed

end Seed

end ModelSchema
