/-!
# The shortest decimal of a double

Every finite double is the nearest one to a whole interval of numbers. Its shortest decimal is the
number with the fewest significant digits in that interval and, of those, the one nearest to the
double itself. Two of them can be equally near; which one is taken is for the writer to say. All
comparisons are made on natural numbers, so nothing is rounded on the way.
-/

namespace ModelSchema.Decimal

/-- The number with the decimal digits of `digits`, the first of which counts powers of ten to
`exponent`: `⟨125, 1⟩` is 12.5. -/
structure Digits where
  digits : Nat
  exponent : Int
deriving DecidableEq, Repr

/-- Which of two numbers is taken that are equally near. -/
inductive Tie where
  /-- The larger one. -/
  | up
  /-- The one whose last digit is even. -/
  | toEven
deriving DecidableEq, Repr

/-- Whether a tie between a number and the next one goes to the next one. -/
def Tie.takesNext (tie : Tie) (n : Nat) : Bool :=
  match tie with
  | up => true
  | toEven => n % 2 == 1

def digitCount (n : Nat) : Nat :=
  (Nat.toDigits 10 n).length

def dropZeros (n : Nat) : Nat :=
  if n = 0 then 0
  else if n % 10 = 0 then dropZeros (n / 10)
  else n
decreasing_by omega

/-- The numbers that round to `mantissa * 2 ^ power`, in quarters of a unit: `low` and `high` are
the ends of the interval, which belong to it if the mantissa is even. -/
structure Interval where
  mantissa : Nat
  power : Int

namespace Interval

/-- The lower end: half a unit below, or a quarter where the unit below is half as large. -/
def low (i : Interval) : Nat :=
  if i.mantissa = Nat.pow 2 52 ∧ -1074 < i.power then 4 * i.mantissa - 1 else 4 * i.mantissa - 2

/-- The upper end: half a unit above. -/
def high (i : Interval) : Nat :=
  4 * i.mantissa + 2

/-- `quarters` quarters of a unit, on a scale shared with `onGrid`. -/
def ofQuarters (i : Interval) (place : Int) (quarters : Nat) : Nat :=
  quarters * Nat.pow 2 (i.power - 2).toNat * Nat.pow 10 (-place).toNat

/-- `count` times ten to `place`, on a scale shared with `ofQuarters`. -/
def onGrid (i : Interval) (place : Int) (count : Nat) : Nat :=
  count * Nat.pow 10 place.toNat * Nat.pow 2 (2 - i.power).toNat

/-- Whether `count` times ten to `place` rounds to the double. -/
def contains (i : Interval) (place : Int) (count : Nat) : Bool :=
  let value := i.onGrid place count
  let low := i.ofQuarters place i.low
  let high := i.ofQuarters place i.high
  if i.mantissa % 2 = 0 then low ≤ value && value ≤ high else low < value && value < high

/-- The power of ten that the first digit counts. -/
def leadingPlace (i : Interval) : Int :=
  let numerator := i.mantissa * Nat.pow 2 i.power.toNat
  let denominator := Nat.pow 2 (-i.power).toNat
  let estimate : Int := (digitCount numerator : Int) - digitCount denominator
  if numerator * Nat.pow 10 (-estimate).toNat < denominator * Nat.pow 10 estimate.toNat then
    estimate - 1
  else estimate

/-- The multiple of ten to `place` in the interval that is nearest to the double, if there is one.
Only the two neighbours of the double need to be tried. -/
def nearest? (i : Interval) (tie : Tie) (place : Int) : Option Nat :=
  let value := i.ofQuarters place (4 * i.mantissa)
  let below := value / i.onGrid place 1
  match i.contains place below, i.contains place (below + 1) with
  | true, true =>
    let middle := i.onGrid place (2 * below + 1)
    if middle < 2 * value || (middle == 2 * value && tie.takesNext below) then some (below + 1)
    else some below
  | true, false => some below
  | false, true => some (below + 1)
  | false, false => none

/-- The fewest digits that round to the double; seventeen always do. -/
def shortest (i : Interval) (tie : Tie) : Digits :=
  let places := (List.range 17).map fun (n : Nat) => i.leadingPlace - n
  match places.findSome? fun place => (i.nearest? tie place).map ((·, place)) with
  | some (count, place) => ⟨dropZeros count, place + (digitCount count - 1 : Nat)⟩
  | none => ⟨0, 0⟩

end Interval

/-- The sign, mantissa and power of two of a finite double. -/
def decode (f : Float) : Bool × Interval :=
  let bits := f.toBits.toNat
  let fraction : Nat := bits % Nat.pow 2 52
  let biased : Nat := bits / Nat.pow 2 52 % Nat.pow 2 11
  (decide (Nat.pow 2 63 ≤ bits),
    if biased = 0 then ⟨fraction, -1074⟩ else ⟨Nat.pow 2 52 + fraction, (biased : Int) - 1075⟩)

end ModelSchema.Decimal
