import ModelSchema.Diagnostic.Code
import ModelSchema.Json.Record

/-!
# Diagnostics

One finding about a model: what kind of violation it is, how severe, where it was found and what it
says.
-/

namespace ModelSchema

structure Diagnostic where
  code : Code
  category : Category
  message : String
  file : Option String
  expected : Option String
  actual : Option String
  related : List String
deriving DecidableEq, Repr

namespace Diagnostic

/-- A finding with the category of its code. -/
def new (code : Code) (message : String) : Diagnostic :=
  ⟨code, code.category, message, none, none, none, []⟩

instance : Inhabited Diagnostic := ⟨new default ""⟩

def report (code : Code) (file message : String) : Diagnostic :=
  { new code message with file := some file }

/-- Say what was expected and what was found. -/
def comparing (diagnostic : Diagnostic) (expected actual : String) : Diagnostic :=
  { diagnostic with expected := some expected, actual := some actual }

def relatedTo (diagnostic : Diagnostic) (related : List String) : Diagnostic :=
  { diagnostic with related }

/-- Whether what would be generated has no meaning. -/
def isFatal (diagnostic : Diagnostic) : Bool :=
  diagnostic.category == .fatal

/-! ## Data file form -/

def toJson (diagnostic : Diagnostic) : Json :=
  .object <|
    [("code", .text diagnostic.code.name),
      ("category", .text diagnostic.category.key),
      ("message", .text diagnostic.message),
      ("location", match diagnostic.file with
        | some file => .object [("file", .text file)]
        | none => .null),
      ("expected", .ofText? diagnostic.expected),
      ("actual", .ofText? diagnostic.actual)]
    ++ if diagnostic.related.isEmpty then []
      else [("related", .array (diagnostic.related.map .text))]

def ofJson? (json : Json) : Option Diagnostic := do
  let record ← json.record?
    ["code", "category", "message", "location", "expected", "actual", "related"]
  let code ← record.required "code" fun json => json.asCase?.bind Code.ofName?
  let category ← record.required "category" fun json => json.asCase?.bind Category.ofKey?
  let message ← record.required "message" Json.asText?
  let file ← record.optional "location" fun json => do
    (← json.record? ["file"]).required "file" Json.asText?
  let expected ← record.optional "expected" Json.asText?
  let actual ← record.optional "actual" Json.asText?
  let related ← record.defaulted "related" (Json.asList? Json.asText?) []
  return { code, category, message, file, expected, actual, related }

end Diagnostic

end ModelSchema
