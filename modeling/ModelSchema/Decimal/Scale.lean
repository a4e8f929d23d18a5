/-!
# Doubles from a significand and a power of ten

A decimal is read by taking its significand as a double and multiplying or dividing it once by a
power of ten. Both steps round, so the result can differ from the nearest double in its last bit;
texts that are read elsewhere with this rule keep their meaning.
-/

namespace ModelSchema.Decimal

/-- Ten to a power, up to 308 the largest that a double can hold. -/
def tenTo (power : Nat) : Float :=
  Float.ofScientific 1 false power

/-- `significand * 10 ^ exponent`, or nothing if that is beyond the doubles. -/
def scale? (significand : Float) (exponent : Int) : Option Float :=
  if exponent.natAbs ≤ 308 then
    if 0 ≤ exponent then
      let product := significand * tenTo exponent.toNat
      if product.isInf then none else some product
    else some (significand / tenTo exponent.natAbs)
  else if significand == 0 then some significand
  else if 0 ≤ exponent then none
  else scale? (significand / tenTo 308) (exponent + 308)
termination_by exponent.natAbs
decreasing_by omega

end ModelSchema.Decimal
