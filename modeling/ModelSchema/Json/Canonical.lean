import ModelSchema.Catalog
import ModelSchema.Json.Basic

/-!
# Canonical JSON objects

A value without given order of fields is written with the fields of each object in the order of
their names, once each.
-/

namespace ModelSchema.Json

mutual

/-- The value with all its objects in order. Of two fields with one name the last is kept. -/
def canonical : Json → Json
  | array items => array (canonicalItems items)
  | object fields => object (Catalog.ofList (canonicalFields fields)).entries
  | json => json

def canonicalItems : List Json → List Json
  | [] => []
  | item :: items => canonical item :: canonicalItems items

def canonicalFields : List (String × Json) → List (String × Json)
  | [] => []
  | (name, value) :: fields => (name, canonical value) :: canonicalFields fields

end

end ModelSchema.Json
