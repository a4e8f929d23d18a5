import ModelSchema.Decimal.Layout

/-!
# JSON values

Numbers are whole numbers or doubles, and the fields of an object are kept in order, repetitions
included. A text can be well formed and still hold a value that cannot be represented: a string with
half a surrogate pair, a number beyond the doubles, an object with such a string as key. Those
values are `unusable`; they do no harm where a reader skips them.
-/

namespace ModelSchema

inductive Json where
  | null
  | bool (value : Bool)
  | int (value : Int)
  | double (value : Float)
  | text (value : String)
  | array (items : List Json)
  | object (fields : List (String × Json))
  | unusable
deriving Inhabited

namespace Json

/-- The last field of an object with a name. -/
def field? (json : Json) (name : String) : Option Json :=
  match json with
  | object fields => fields.reverse.lookup name
  | _ => none

def ofText? : Option String → Json
  | some s => text s
  | none => null

def nat (n : Nat) : Json :=
  int n

/-- Doubles are written in full while their first digit counts powers of ten from -5 to 15, and
always with a point. Of two equally near numbers the one with an even last digit is taken. No value
that is not a number can be written. -/
def layout : Decimal.Layout where
  tie := .toEven
  isPositional exponent := decide (-5 ≤ exponent) && decide (exponent ≤ 15)
  keepsPoint := true
  nonFinite _ := "null"

end Json

end ModelSchema
