import ModelSchema.Text.Blank

/-!
# Multiplicities

How many instances an end of an association, or a property, may hold. Modelling tools spell the
bounds in several ways; `normalize` brings a spelling to `lower..upper` with `N` for "many", and
`parse?` accepts the four that have a meaning.
-/

namespace ModelSchema

/-- How many instances are linked. -/
inductive Multiplicity where
  | zeroOrOne
  | exactlyOne
  | zeroOrMany
  | oneOrMany
deriving DecidableEq, Repr, Inhabited

namespace Multiplicity

def text : Multiplicity → String
  | zeroOrOne => "0..1"
  | exactlyOne => "1..1"
  | zeroOrMany => "0..N"
  | oneOrMany => "1..N"

/-- The multiplicity with a canonical text, blanks around it ignored. -/
def parse? (s : String) : Option Multiplicity :=
  match Text.trim s with
  | "0..1" => some zeroOrOne
  | "1..1" => some exactlyOne
  | "0..N" => some zeroOrMany
  | "1..N" => some oneOrMany
  | _ => none

/-- At most one instance. -/
def isSingle : Multiplicity → Bool
  | zeroOrOne | exactlyOne => true
  | zeroOrMany | oneOrMany => false

/-- Any number of instances. -/
def isMany (m : Multiplicity) : Bool :=
  !m.isSingle

/-- At least one instance. -/
def isRequired : Multiplicity → Bool
  | exactlyOne | oneOrMany => true
  | zeroOrOne | zeroOrMany => false

theorem parse?_text (m : Multiplicity) : parse? m.text = some m := by
  cases m <;> decide +kernel

/-! ## Spellings -/

/-- What stands before and after the first `..`. -/
def splitBounds? : List Char → Option (List Char × List Char)
  | '.' :: '.' :: rest => some ([], rest)
  | c :: rest => (splitBounds? rest).map fun (lower, upper) => (c :: lower, upper)
  | [] => none

/-- The two bounds of a spelling; a single bound counts as both. -/
def bounds (s : String) : String × String :=
  let s := Text.trim s
  match splitBounds? s.toList with
  | some (lower, upper) => (Text.trim (String.ofList lower), Text.trim (String.ofList upper))
  | none => (s, s)

def isUnbounded (bound : String) : Bool :=
  bound == "*" || bound == "n" || bound == "N"

/-- The spelling `lower..upper`, where "many" is `0` as lower and `N` as upper bound. Bounds without
a meaning are kept, so that they can be reported. -/
def normalize (s : String) : String :=
  let (lower, upper) := bounds s
  (if isUnbounded lower then "0" else lower) ++ ".." ++ (if isUnbounded upper then "N" else upper)

end Multiplicity

end ModelSchema
