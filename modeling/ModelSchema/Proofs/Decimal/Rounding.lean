import Mathlib
import ModelSchema.Decimal.Shortest

/-!
# Shortest decimals and rounding

The shortest decimal of a double lies in the interval of numbers that round to it
(`holds_shortest`): seventeen digits always give such a number. No number lies in the intervals of
two doubles (`Interval.eq_of_holds`), so a double can be told from its shortest decimal.
-/

namespace ModelSchema.Decimal

/-! ## Digits

The number of digits of a number says between which powers of ten it is. -/

theorem digitCount_pos (n : Nat) : 0 < digitCount n :=
  List.length_pos_iff.mpr Nat.toDigits_ne_nil

/-- The two bounds: less than the next power of ten, and no less than the power of its first digit
(`pow_le_of_lt_digitCount`). -/
theorem lt_pow_digitCount (n : Nat) : n < 10 ^ digitCount n :=
  (Nat.length_toDigits_le_iff (by decide) (digitCount_pos n)).mp le_rfl

theorem pow_le_of_lt_digitCount {n k : Nat} (hn : n ≠ 0) (h : k < digitCount n) : 10 ^ k ≤ n := by
  by_contra hlt
  cases k with
  | zero =>
      rw [pow_zero] at hlt
      omega
  | succ k =>
      have := (Nat.length_toDigits_le_iff (by decide) k.succ_pos).mpr (not_le.mp hlt)
      rw [← digitCount] at this
      omega

theorem digitCount_of_mod {n : Nat} (hn : n ≠ 0) (hmod : n % 10 = 0) :
    digitCount n = digitCount (n / 10) + 1 := by
  rw [digitCount, Nat.toDigits_eq_if (by decide), if_neg (by omega), List.length_append]
  rfl

/-- Dropping zeros takes as many digits as it takes tens. -/
theorem exists_dropZeros {n : Nat} (h : n ≠ 0) :
    ∃ k, n = dropZeros n * 10 ^ k ∧ digitCount n = digitCount (dropZeros n) + k := by
  induction n using Nat.strongRecOn with
  | _ n ih =>
    rw [dropZeros, if_neg h]
    by_cases hmod : n % 10 = 0
    · obtain ⟨k, hvalue, hcount⟩ := ih (n / 10) (by omega) (by omega)
      refine ⟨k + 1, ?_, ?_⟩
      · rw [if_pos hmod, pow_succ, ← mul_assoc, ← hvalue]
        omega
      · rw [if_pos hmod, digitCount_of_mod h hmod, hcount, Nat.add_assoc]
    · exact ⟨0, by rw [if_neg hmod]; simp⟩

/-- The number that digits stand for. The exponent is that of the first digit, so the last one
counts `exponent + 1 - digitCount`. -/
def Digits.value (d : Digits) : ℚ :=
  d.digits * 10 ^ (d.exponent + 1 - digitCount d.digits)

/-- `shortest` drops zeros and gives the place of the first digit, which together keep the number.
-/
theorem value_dropZeros {count : Nat} (h : count ≠ 0) (place : Int) :
    Digits.value ⟨dropZeros count, place + (digitCount count - 1 : Nat)⟩ = count * 10 ^ place := by
  obtain ⟨k, hvalue, hcount⟩ := exists_dropZeros h
  have hpos := digitCount_pos count
  have hexponent : place + (digitCount count - 1 : Nat) + 1 - (digitCount (dropZeros count) : Int) =
      place + k := by omega
  have hcast : (count : ℚ) = dropZeros count * 10 ^ k := by
    exact_mod_cast congrArg (Nat.cast (R := ℚ)) hvalue
  show (dropZeros count : ℚ) * _ = _
  rw [hexponent, hcast, zpow_add₀ (by norm_num), zpow_natCast]
  ring

/-! ## Numbers on a grid

`ofQuarters` and `onGrid` are natural numbers: both sides of a comparison are multiplied by
`scaling`, which clears the denominators. Here they are shown to compare the numbers that they stand
for. -/

namespace Interval

def quarter (i : Interval) : ℚ :=
  2 ^ (i.power - 2)

theorem quarter_pos (i : Interval) : 0 < i.quarter := by
  unfold quarter
  positivity

/-- The number that the mantissa and the power stand for. -/
def value (i : Interval) : ℚ :=
  4 * i.mantissa * i.quarter

/-- The scale on which all comparisons are made. -/
def scaling (i : Interval) (place : Int) : ℚ :=
  2 ^ (2 - i.power).toNat * 10 ^ (-place).toNat

theorem scaling_pos (i : Interval) (place : Int) : 0 < i.scaling place := by
  unfold scaling
  positivity

/-- How a power is cleared of a negative exponent. Used for both bases. -/
theorem zpow_mul_toNat {x : ℚ} (hx : x ≠ 0) (n : Int) :
    x ^ n * x ^ (-n).toNat = x ^ n.toNat := by
  rw [← zpow_natCast, ← zpow_natCast, ← zpow_add₀ hx]
  congr 1
  omega

/-- Both sides of a comparison, in terms of the numbers compared. -/
theorem cast_ofQuarters (i : Interval) (place : Int) (quarters : Nat) :
    (i.ofQuarters place quarters : ℚ) = quarters * i.quarter * i.scaling place := by
  have hpow := zpow_mul_toNat (two_ne_zero : (2 : ℚ) ≠ 0) (i.power - 2)
  rw [Int.neg_sub] at hpow
  simp only [ofQuarters, quarter, scaling, Nat.pow_eq]
  push_cast
  rw [← hpow]
  ring

theorem cast_onGrid (i : Interval) (place : Int) (count : Nat) :
    (i.onGrid place count : ℚ) = count * 10 ^ place * i.scaling place := by
  have hpow := zpow_mul_toNat (by norm_num : (10 : ℚ) ≠ 0) place
  simp only [onGrid, scaling, Nat.pow_eq]
  push_cast
  rw [← hpow]
  ring

theorem ofQuarters_le_onGrid (i : Interval) (place : Int) (quarters count : Nat) :
    i.ofQuarters place quarters ≤ i.onGrid place count ↔
      (quarters * i.quarter : ℚ) ≤ count * 10 ^ place := by
  rw [← Nat.cast_le (α := ℚ), cast_ofQuarters, cast_onGrid,
    mul_le_mul_iff_left₀ (i.scaling_pos place)]

theorem onGrid_le_ofQuarters (i : Interval) (place : Int) (quarters count : Nat) :
    i.onGrid place count ≤ i.ofQuarters place quarters ↔
      (count * 10 ^ place : ℚ) ≤ quarters * i.quarter := by
  rw [← Nat.cast_le (α := ℚ), cast_ofQuarters, cast_onGrid,
    mul_le_mul_iff_left₀ (i.scaling_pos place)]

/-- A number rounds to the double. Ties go to the even mantissa, so its interval has its ends. -/
def Holds (i : Interval) (x : ℚ) : Prop :=
  if i.mantissa % 2 = 0 then i.low * i.quarter ≤ x ∧ x ≤ i.high * i.quarter
  else i.low * i.quarter < x ∧ x < i.high * i.quarter

/-- `contains` decides `Holds` on multiples of powers of ten. -/
theorem contains_iff (i : Interval) (place : Int) (count : Nat) :
    i.contains place count = true ↔ i.Holds (count * 10 ^ place) := by
  unfold contains Holds
  split
  · simp only [Bool.and_eq_true, decide_eq_true_eq, ofQuarters_le_onGrid, onGrid_le_ofQuarters]
  · simp only [Bool.and_eq_true, decide_eq_true_eq, ← not_le, ofQuarters_le_onGrid,
      onGrid_le_ofQuarters]

theorem Holds.bounds {i : Interval} {x : ℚ} (h : i.Holds x) :
    i.low * i.quarter ≤ x ∧ x ≤ i.high * i.quarter := by
  unfold Holds at h
  split at h
  · exact h
  · exact ⟨h.1.le, h.2.le⟩

theorem holds_of_lt {i : Interval} {x : ℚ} (hlow : i.low * i.quarter < x)
    (hhigh : x < i.high * i.quarter) : i.Holds x := by
  unfold Holds
  split
  · exact ⟨hlow.le, hhigh.le⟩
  · exact ⟨hlow, hhigh⟩

/-! ## The first digit

Only the lower bound is needed: the place of the first digit is not too far to the left. -/

/-- `leadingPlace` makes an estimate from the numbers of digits and corrects it by one if it is too
large. -/
theorem pow_leadingPlace_le {i : Interval} (h : i.mantissa ≠ 0) :
    (10 : ℚ) ^ i.leadingPlace ≤ i.value := by
  unfold leadingPlace
  set numerator := i.mantissa * Nat.pow 2 i.power.toNat with hnumerator
  set denominator := Nat.pow 2 (-i.power).toNat with hdenominator
  set estimate : Int := digitCount numerator - digitCount denominator with hestimate
  have hpositive : (0 : ℚ) < denominator := by simp [hdenominator]
  have hvalue : i.value * denominator = numerator := by
    have hpow := zpow_mul_toNat (two_ne_zero : (2 : ℚ) ≠ 0) i.power
    have hunit : 4 * i.quarter = 2 ^ i.power := by
      rw [quarter, zpow_sub₀ two_ne_zero]
      norm_num
      ring
    rw [value, mul_right_comm 4, hunit, hnumerator, hdenominator]
    push_cast [Nat.pow_eq]
    rw [← hpow]
    ring
  show (10 : ℚ) ^ (if numerator * Nat.pow 10 (-estimate).toNat <
    denominator * Nat.pow 10 estimate.toNat then estimate - 1 else estimate) ≤ i.value
  rw [← mul_le_mul_iff_left₀ hpositive, hvalue]
  split
  · -- The numbers of digits alone tell that the first digit is not further right.
    have hnonzero : numerator ≠ 0 := by simp [hnumerator, h]
    have hpos := digitCount_pos numerator
    have hlow : (10 : ℚ) ^ (digitCount numerator - 1) ≤ numerator := by
      exact_mod_cast pow_le_of_lt_digitCount hnonzero (by omega)
    have hhigh : (denominator : ℚ) ≤ 10 ^ digitCount denominator := by
      exact_mod_cast (lt_pow_digitCount denominator).le
    calc (10 : ℚ) ^ (estimate - 1) * denominator
        ≤ 10 ^ (estimate - 1) * 10 ^ digitCount denominator := by gcongr
      _ = 10 ^ (digitCount numerator - 1) := by
        rw [← zpow_natCast, ← zpow_natCast, ← zpow_add₀ (by norm_num)]
        congr 1
        omega
      _ ≤ numerator := hlow
  · next hnot =>
    have hpow := zpow_mul_toNat (by norm_num : (10 : ℚ) ≠ 0) estimate
    have hscale : (0 : ℚ) < 10 ^ (-estimate).toNat := by positivity
    have hle : (denominator : ℚ) * 10 ^ estimate.toNat ≤ numerator * 10 ^ (-estimate).toNat := by
      exact_mod_cast not_lt.mp hnot
    rw [← mul_le_mul_iff_left₀ hscale]
    calc (10 : ℚ) ^ estimate * denominator * 10 ^ (-estimate).toNat
        = denominator * 10 ^ estimate.toNat := by rw [← hpow]; ring
      _ ≤ numerator * 10 ^ (-estimate).toNat := hle

/-! ## Neighbours

`nearest?` looks at two multiples of a power of ten, the next one below the double and the one after
it. -/

def below (i : Interval) (place : Int) : Nat :=
  i.ofQuarters place (4 * i.mantissa) / i.onGrid place 1

/-- So the division in `nearest?` counts multiples. -/
theorem onGrid_eq_mul (i : Interval) (place : Int) (count : Nat) :
    i.onGrid place count = count * i.onGrid place 1 := by
  simp only [onGrid]
  ring

/-- The double is between `below` and the next multiple (`lt_below_succ`). -/
theorem below_le (i : Interval) (place : Int) : (i.below place * 10 ^ place : ℚ) ≤ i.value := by
  have hle : i.onGrid place (i.below place) ≤ i.ofQuarters place (4 * i.mantissa) := by
    rw [onGrid_eq_mul]
    exact Nat.div_mul_le_self _ _
  have := (onGrid_le_ofQuarters i place _ _).mp hle
  rwa [Nat.cast_mul] at this

theorem lt_below_succ (i : Interval) (place : Int) :
    i.value < ((i.below place + 1 : Nat) * 10 ^ place : ℚ) := by
  have hgrid : 0 < i.onGrid place 1 := by
    simp [onGrid]
  have hlt : i.ofQuarters place (4 * i.mantissa) < i.onGrid place (i.below place + 1) := by
    rw [onGrid_eq_mul, below]
    exact Nat.lt_mul_of_div_lt (Nat.lt_succ_self _) hgrid
  have := (onGrid_le_ofQuarters i place _ _).not.mp hlt.not_ge
  rwa [Nat.cast_mul, not_le] at this

/-- What `nearest?` gives is in the interval, whichever neighbour it is. -/
theorem contains_of_nearest? {i : Interval} {tie : Tie} {place : Int} {count : Nat}
    (h : i.nearest? tie place = some count) : i.contains place count = true := by
  simp only [nearest?] at h
  split at h
  · next hbelow habove =>
    split at h
    · exact Option.some.inj h ▸ habove
    · exact Option.some.inj h ▸ hbelow
  · next hbelow _ => exact Option.some.inj h ▸ hbelow
  · next habove => exact Option.some.inj h ▸ habove
  · cases h

/-- It gives something if one of the neighbours is. -/
theorem isSome_nearest? {i : Interval} (tie : Tie) {place : Int}
    (h : i.contains place (i.below place) = true ∨ i.contains place (i.below place + 1) = true) :
    (i.nearest? tie place).isSome = true := by
  simp only [nearest?]
  split
  · split <;> rfl
  · rfl
  · rfl
  · next hbelow habove =>
    rw [below, hbelow, habove] at h
    exact absurd h (by decide)

/-! ## Seventeen digits

Doubles have 53 bits, which is less than sixteen digits. With seventeen, one of the two neighbours
is closer to the double than the ends of its interval are. -/

/-- Mantissas have 53 bits, all of them unless the power is the least one. This is what makes
intervals disjoint: without it, a double would have several mantissas. -/
structure IsNormal (i : Interval) : Prop where
  lt : i.mantissa < 2 ^ 53
  least : -1074 ≤ i.power
  full : -1074 < i.power → 2 ^ 52 ≤ i.mantissa

/-- Seventeen digits leave steps of at most a 10^16th part of the number. -/
theorem seventeen_le {i : Interval} (h : i.mantissa ≠ 0) :
    (10 : ℚ) ^ (i.leadingPlace - 16) * 10 ^ 16 ≤ i.value := by
  have hsplit : (10 : ℚ) ^ (i.leadingPlace - 16) * 10 ^ 16 = 10 ^ i.leadingPlace := by
    rw [← zpow_natCast, ← zpow_add₀ (by norm_num)]
    congr 1
    omega
  rw [hsplit]
  exact pow_leadingPlace_le h

/-- One of the two neighbours with seventeen digits rounds to the double. -/
theorem holds_seventeen {i : Interval} (h : i.mantissa ≠ 0) (hnormal : i.IsNormal) :
    i.Holds (i.below (i.leadingPlace - 16) * 10 ^ (i.leadingPlace - 16)) ∨
      i.Holds ((i.below (i.leadingPlace - 16) + 1 : Nat) * 10 ^ (i.leadingPlace - 16)) := by
  have hstep := seventeen_le h
  have hbelow := i.below_le (i.leadingPlace - 16)
  have habove := i.lt_below_succ (i.leadingPlace - 16)
  have hquarter := i.quarter_pos
  push_cast at habove ⊢
  rw [add_mul, one_mul] at habove ⊢
  set step : ℚ := 10 ^ (i.leadingPlace - 16)
  set left : ℚ := i.below (i.leadingPlace - 16) * step
  have hhigh : (i.high * i.quarter : ℚ) = i.value + 2 * i.quarter := by
    simp only [high, value]
    push_cast
    ring
  by_cases hnarrow : i.mantissa = 2 ^ 52 ∧ -1074 < i.power
  · -- The interval is narrow below, but the number is small enough for the upper neighbour.
    have hlow : (i.low * i.quarter : ℚ) = i.value - i.quarter := by
      rw [low, Nat.pow_eq, if_pos hnarrow, value, hnarrow.1]
      push_cast
      ring
    have hvalue : i.value = 2 ^ 54 * i.quarter := by
      rw [value, hnarrow.1]
      push_cast
      ring
    right
    apply holds_of_lt <;> linarith
  · have hlow : (i.low * i.quarter : ℚ) = i.value - 2 * i.quarter := by
      rw [low, Nat.pow_eq, if_neg hnarrow, value, Nat.cast_sub (by omega)]
      push_cast
      ring
    have hvalue : i.value ≤ 2 ^ 55 * i.quarter := by
      have hmantissa : (i.mantissa : ℚ) ≤ 2 ^ 53 := by exact_mod_cast hnormal.lt.le
      rw [value]
      nlinarith
    by_cases hnear : i.low * i.quarter < left
    · left
      apply holds_of_lt <;> linarith
    · right
      apply holds_of_lt <;> linarith

/-- Zero does not round to another double. -/
theorem Holds.pos {i : Interval} (h : i.mantissa ≠ 0) {x : ℚ} (hx : i.Holds x) : 0 < x := by
  have hlow : 0 < i.low := by
    unfold low
    split <;> omega
  calc (0 : ℚ) < i.low * i.quarter := mul_pos (by exact_mod_cast hlow) i.quarter_pos
    _ ≤ x := hx.bounds.1

/-- The shortest decimal rounds to the double. -/
theorem holds_shortest {i : Interval} (h : i.mantissa ≠ 0) (hnormal : i.IsNormal) (tie : Tie) :
    i.Holds (i.shortest tie).value := by
  unfold shortest
  dsimp only
  split
  · next count place hfound =>
    obtain ⟨_, -, hplace⟩ := List.exists_of_findSome?_eq_some hfound
    obtain ⟨_, hnearest, heq⟩ := Option.map_eq_some_iff.mp hplace
    cases heq
    have hholds := (i.contains_iff place count).mp (contains_of_nearest? hnearest)
    have hcount : count ≠ 0 := by
      rintro rfl
      exact absurd (hholds.pos h) (by simp)
    rw [value_dropZeros hcount]
    exact hholds
  · next hnone =>
    -- The last place to be tried is that of seventeen digits.
    have hlast := List.findSome?_eq_none_iff.mp hnone (i.leadingPlace - 16)
      (List.mem_map.mpr ⟨16, by decide, rfl⟩)
    have hsome := isSome_nearest? tie (by simpa only [contains_iff] using holds_seventeen h hnormal)
    rw [Option.map_eq_none_iff.mp hlast] at hsome
    cases hsome

/-! ## Intervals apart

Intervals of neighbouring doubles touch in one number. It belongs to the one with an even mantissa,
and two neighbours do not both have one. -/

/-- One interval ends before the next one starts, or where it starts if an end does not belong to
its interval. -/
theorem ends_before {i j : Interval} (hi : i.IsNormal) (hj : j.IsNormal)
    (h : i.power < j.power ∨ i.power = j.power ∧ i.mantissa < j.mantissa) :
    (i.high * i.quarter : ℚ) ≤ j.low * j.quarter ∧
      (i.mantissa % 2 = 1 ∨ j.mantissa % 2 = 1 ∨
        (i.high * i.quarter : ℚ) < j.low * j.quarter) := by
  have hquarter := i.quarter_pos
  rcases h with hpower | ⟨hpower, hmantissa⟩
  · -- The unit is at least twice as large, and the mantissa is not less than the least full one.
    have htwice : 2 * i.quarter ≤ j.quarter := by
      rw [quarter, quarter, ← zpow_one_add₀ two_ne_zero]
      exact zpow_le_zpow_right₀ one_le_two (by omega)
    have hleast : -1074 < j.power := lt_of_le_of_lt hi.least hpower
    have hfull := hj.full hleast
    have hless := hi.lt
    have hlow : 2 ^ 54 - 1 ≤ j.low := by
      unfold low
      rw [Nat.pow_eq]
      split <;> omega
    have hhigh : i.high = 4 * i.mantissa + 2 := rfl
    have hle : (i.high : ℚ) ≤ 2 * j.low := by
      exact_mod_cast (by omega : i.high ≤ 2 * j.low)
    have hstep : (j.low * (2 * i.quarter) : ℚ) ≤ j.low * j.quarter := by gcongr
    refine ⟨by nlinarith, ?_⟩
    by_cases hodd : i.mantissa % 2 = 1
    · exact .inl hodd
    · have hlt : (i.high : ℚ) < 2 * j.low := by
        exact_mod_cast (by omega : i.high < 2 * j.low)
      exact .inr (.inr (by nlinarith))
  · have hsame : j.quarter = i.quarter := by rw [quarter, quarter, hpower]
    have hhigh : i.high = 4 * i.mantissa + 2 := rfl
    have hlow : 4 * j.mantissa - 2 ≤ j.low := by
      unfold low
      split <;> omega
    rw [hsame, mul_le_mul_iff_left₀ hquarter, mul_lt_mul_iff_left₀ hquarter, Nat.cast_le,
      Nat.cast_lt]
    omega

/-- By `ends_before`, a number in both intervals is an end of both, and one of the mantissas is odd.
-/
theorem not_holds_of_before {i j : Interval} (hi : i.IsNormal) (hj : j.IsNormal)
    (h : i.power < j.power ∨ i.power = j.power ∧ i.mantissa < j.mantissa) {x : ℚ}
    (hx : i.Holds x) : ¬ j.Holds x := by
  intro hother
  obtain ⟨hle, hends⟩ := ends_before hi hj h
  have hhigh := hx.bounds.2
  have hlow := hother.bounds.1
  rcases hends with hodd | hodd | hlt
  · rw [Holds, if_neg (by omega)] at hx
    linarith
  · rw [Holds, if_neg (by omega)] at hother
    linarith
  · linarith

/-- A number rounds to one double only. -/
theorem eq_of_holds {i j : Interval} (hi : i.IsNormal) (hj : j.IsNormal) {x : ℚ}
    (hxi : i.Holds x) (hxj : j.Holds x) : i = j := by
  have hij := fun h => not_holds_of_before hi hj h hxi hxj
  have hji := fun h => not_holds_of_before hj hi h hxj hxi
  obtain ⟨mantissa, power⟩ := i
  obtain ⟨otherMantissa, otherPower⟩ := j
  have hpower : power = otherPower := by grind
  have hmantissa : mantissa = otherMantissa := by grind
  rw [hpower, hmantissa]

end Interval

/-! ## Doubles -/

/-- `decode` adds the leading bit, unless the exponent is the least one. -/
theorem isNormal_decode (f : Float) : (decode f).2.IsNormal := by
  simp only [decode, Nat.pow_eq]
  split
  · constructor
    · show _ % 2 ^ 52 < 2 ^ 53
      omega
    · exact le_rfl
    · intro h
      exact absurd h (lt_irrefl _)
  · constructor
    · show 2 ^ 52 + _ % 2 ^ 52 < 2 ^ 53
      omega
    · show (-1074 : Int) ≤ _ - 1075
      omega
    · intro _
      exact Nat.le_add_right _ _

/-- The bits of a double can be told from what they stand for. -/
theorem decode_injective : Function.Injective decode := by
  intro f g h
  have hsign := congrArg Prod.fst h
  have hinterval := congrArg Prod.snd h
  have hf := f.toBits.toNat_lt
  have hg := g.toBits.toNat_lt
  simp only [decode, Nat.pow_eq, decide_eq_decide] at hsign hinterval
  apply Float.toBits_inj.mp
  apply UInt64.toNat_inj.mp
  split at hinterval <;> split at hinterval <;>
    simp only [Interval.mk.injEq] at hinterval <;> omega

end ModelSchema.Decimal
