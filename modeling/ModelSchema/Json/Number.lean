import ModelSchema.Decimal.Scale
import ModelSchema.Json.Basic

/-!
# JSON numbers

A number without fraction and exponent that fits 64 bits, signed or unsigned, is whole; every other
one is a double. The significand of a double is kept to 64 bits: further digits of the whole part
count as zeros, further digits of the fraction are dropped.
-/

namespace ModelSchema.Json

/-- A number as written: a sign, the digits before and after the point, and the exponent. -/
structure Numeral where
  isNegative : Bool
  whole : List Char
  fraction : Option (List Char)
  exponent : Option Int
deriving DecidableEq, Repr

def digitValue (c : Char) : Nat :=
  c.toNat - '0'.toNat

/-- The number that digits stand for. -/
def digitsValue (digits : List Char) : Nat :=
  digits.foldl (fun value c => 10 * value + digitValue c) 0

def significandLimit : Nat := Nat.pow 2 64 - 1

/-- Add digits to a significand while it fits, and give the digits left over. -/
def extend (significand : Nat) : List Char → Nat × List Char
  | [] => (significand, [])
  | c :: rest =>
    if 10 * significand + digitValue c ≤ significandLimit then
      extend (10 * significand + digitValue c) rest
    else (significand, c :: rest)

namespace Numeral

/-- The significand and the power of ten that it counts. -/
def parts (numeral : Numeral) : Nat × Int :=
  let (whole, wholeRest) := extend 0 numeral.whole
  let fraction := numeral.fraction.getD []
  let (significand, fractionRest) := extend whole fraction
  (significand,
    numeral.exponent.getD 0 + wholeRest.length - (fraction.length - fractionRest.length : Nat))

/-- The double nearest to a natural number below 2^64. -/
def ofWhole (n : Nat) : Float :=
  n.toUInt64.toFloat

def signed (isNegative : Bool) (f : Float) : Float :=
  if isNegative then -f else f

/-- The value of a number; nothing stands for a number beyond the doubles. A zero with a sign is the
double, because no whole number has a sign without value. -/
def value (numeral : Numeral) : Json :=
  let (significand, exponent) := numeral.parts
  let scaled :=
    match Decimal.scale? (ofWhole significand) exponent with
    | some f => double (signed numeral.isNegative f)
    | none => unusable
  match numeral.fraction, numeral.exponent with
  | none, none =>
    let whole := digitsValue numeral.whole
    if numeral.isNegative then
      if 0 < whole ∧ whole ≤ Nat.pow 2 63 then int (-whole) else scaled
    else if whole ≤ significandLimit then int whole else scaled
  | _, _ => scaled

end Numeral

/-- The digits of a whole part: a zero alone, or digits without a zero in front. -/
def wholeDigits? (cs : List Char) : Option (List Char × List Char) :=
  let digits := cs.takeWhile Char.isDigit
  match digits with
  | [] => none
  | '0' :: _ :: _ => none
  | _ => some (digits, cs.dropWhile Char.isDigit)

def someDigits? (cs : List Char) : Option (List Char × List Char) :=
  let digits := cs.takeWhile Char.isDigit
  if digits.isEmpty then none else some (digits, cs.dropWhile Char.isDigit)

/-- The fraction, if a point follows. -/
def fraction? : List Char → Option (Option (List Char) × List Char)
  | '.' :: rest => (someDigits? rest).map fun (digits, rest) => (some digits, rest)
  | cs => some (none, cs)

def exponentSign : List Char → Bool × List Char
  | '+' :: rest => (false, rest)
  | '-' :: rest => (true, rest)
  | cs => (false, cs)

/-- The exponent, if its mark follows. -/
def exponent? : List Char → Option (Option Int × List Char)
  | c :: rest =>
    if c = 'e' ∨ c = 'E' then
      let (isNegative, rest) := exponentSign rest
      (someDigits? rest).map fun (digits, rest) =>
        (some (if isNegative then -(digitsValue digits : Int) else digitsValue digits), rest)
    else some (none, c :: rest)
  | [] => some (none, [])

/-- The number at the start of a text, and what follows it. -/
def numeral? (cs : List Char) : Option (Numeral × List Char) := do
  let (isNegative, cs) :=
    match cs with
    | '-' :: rest => (true, rest)
    | _ => (false, cs)
  let (whole, cs) ← wholeDigits? cs
  let (fraction, cs) ← fraction? cs
  let (exponent, cs) ← exponent? cs
  return (⟨isNegative, whole, fraction, exponent⟩, cs)

end ModelSchema.Json
