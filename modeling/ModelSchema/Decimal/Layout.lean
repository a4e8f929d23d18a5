import ModelSchema.Decimal.Shortest

/-!
# How doubles are written

The digits of a double are always its shortest ones. A layout decides the rest: which of two equally
near numbers is taken, for which exponents the number is written out in full, whether a whole number
keeps a point, and what stands for the values that are no numbers.
-/

namespace ModelSchema.Decimal

/-- The choices of one way to write doubles. -/
structure Layout where
  tie : Tie
  /-- Whether a number whose first digit counts ten to this power is written without exponent. -/
  isPositional : Int → Bool
  /-- Whether a whole number written in full ends in `.0`. -/
  keepsPoint : Bool
  /-- Infinities and the value that is no number. -/
  nonFinite : Float → String

namespace Layout

/-- Digits in full, with zeros filled in up to the point. -/
def positional (layout : Layout) (digits : List Char) (exponent : Int) : List Char :=
  if exponent < 0 then
    '0' :: '.' :: (List.replicate (-exponent - 1).toNat '0' ++ digits)
  else
    let whole := exponent.toNat + 1
    if digits.length ≤ whole then
      digits ++ List.replicate (whole - digits.length) '0'
        ++ (if layout.keepsPoint then ['.', '0'] else [])
    else
      digits.take whole ++ '.' :: digits.drop whole

/-- One digit, the others after a point, and a signed exponent. -/
def scientific (digits : List Char) (exponent : Int) : List Char :=
  let fraction := if digits.length ≤ 1 then [] else '.' :: digits.drop 1
  let sign := if exponent < 0 then '-' else '+'
  digits.take 1 ++ fraction ++ 'e' :: sign :: Nat.toDigits 10 exponent.natAbs

def magnitude (layout : Layout) (interval : Interval) : List Char :=
  if interval.mantissa = 0 then layout.positional ['0'] 0
  else
    let shortest := interval.shortest layout.tie
    let digits := Nat.toDigits 10 shortest.digits
    if layout.isPositional shortest.exponent then layout.positional digits shortest.exponent
    else scientific digits shortest.exponent

def text (layout : Layout) (f : Float) : String :=
  if f.isFinite then
    let (negative, interval) := decode f
    String.ofList ((if negative then ['-'] else []) ++ layout.magnitude interval)
  else layout.nonFinite f

end Layout

end ModelSchema.Decimal
