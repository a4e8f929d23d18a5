import ModelSchema.Proofs.Decimal.Rounding
import ModelSchema.Proofs.Json.Numerals

/-!
# Doubles in JSON

A finite double is written as a numeral with a fraction or an exponent, and the number it spells
rounds to the double (`exists_writes`). So no double is written as a whole number is, and two
doubles are written in the same way only if they are equal, bit for bit (`Writes.unique`).
-/

namespace ModelSchema.Json

open Decimal

namespace Numeral

/-- The number that a numeral stands for, without its sign. -/
def magnitude (numeral : Numeral) : ℚ :=
  digitsValue (numeral.whole ++ numeral.fraction.getD [])
    * 10 ^ (numeral.exponent.getD 0 - (numeral.fraction.getD []).length)

/-- A numeral is one of a number that is not written as a whole number. -/
structure Spells (numeral : Numeral) (isNegative : Bool) (text : List Char) (x : ℚ) : Prop where
  proper : numeral.IsProper
  /-- It has a fraction or an exponent. -/
  marked : numeral.fraction ≠ none ∨ numeral.exponent ≠ none
  sign : numeral.isNegative = isNegative
  spelling : numeral.spelling = (if isNegative then ['-'] else []) ++ text
  magnitude : numeral.magnitude = x

end Numeral

/-- Digits with zeros before and after them. -/
theorem isDigit_padded {n before after : Nat} :
    ∀ c ∈ List.replicate before '0' ++ Nat.toDigits 10 n ++ List.replicate after '0',
      c.isDigit = true := by
  intro c hc
  have hzero : c = '0' → c.isDigit = true := by
    rintro rfl
    rfl
  rcases List.mem_append.mp hc with hfront | hback
  · rcases List.mem_append.mp hfront with hfront | hdigit
    · exact hzero (List.eq_of_mem_replicate hfront)
    · exact isDigit_toDigits n c hdigit
  · exact hzero (List.eq_of_mem_replicate hback)

/-- Zeros before digits do not count, and each zero after them is a factor of ten. -/
theorem digitsValue_padded (n before after : Nat) :
    digitsValue (List.replicate before '0' ++ Nat.toDigits 10 n ++ List.replicate after '0') =
      n * 10 ^ after := by
  simp only [digitsValue_append, digitsValue_zeros, digitsValue_toDigits, List.length_replicate,
    zero_mul, zero_add, add_zero]

/-- A numeral spells the number whose digits it has, wherever its point stands. -/
theorem spells_of_padded {numeral : Numeral} {text : List Char} {n : Nat} {exponent : Int}
    (before after : Nat)
    (hdigits : numeral.whole ++ numeral.fraction.getD [] =
      List.replicate before '0' ++ Nat.toDigits 10 n ++ List.replicate after '0')
    (hwhole : numeral.whole ≠ [])
    (hunpadded : numeral.whole = ['0'] ∨ numeral.whole.head? ≠ some '0')
    (hfraction : numeral.fraction ≠ some [])
    (hmarked : numeral.fraction ≠ none ∨ numeral.exponent ≠ none)
    (hspelling : numeral.spelling = (if numeral.isNegative then ['-'] else []) ++ text)
    (hplace : after + numeral.exponent.getD 0 - (numeral.fraction.getD []).length =
      exponent + 1 - digitCount n) :
    numeral.Spells numeral.isNegative text (Digits.value ⟨n, exponent⟩) := by
  have hall : ∀ c ∈ numeral.whole ++ numeral.fraction.getD [], c.isDigit = true := by
    rw [hdigits]
    exact isDigit_padded
  constructor
  · constructor
    · exact ⟨fun c hc => hall c (List.mem_append_left _ hc), hwhole, hunpadded⟩
    · intro digits hsome
      have hsome : numeral.fraction = some digits := hsome
      rw [hsome, Option.getD_some] at hall
      refine ⟨?_, fun c hc => hall c (List.mem_append_right _ hc)⟩
      rintro rfl
      exact hfraction hsome
  · exact hmarked
  · rfl
  · exact hspelling
  · unfold Numeral.magnitude Digits.value
    rw [hdigits, digitsValue_padded, ← hplace, add_sub_assoc, zpow_add₀ (by norm_num), zpow_natCast]
    push_cast
    ring

/-! ## In full -/

/-- A number below one. -/
theorem spells_small (isNegative : Bool) (n : Nat) {exponent : Int} (h : exponent < 0) :
    Numeral.Spells
      ⟨isNegative, ['0'], some (List.replicate (-exponent - 1).toNat '0' ++ Nat.toDigits 10 n),
        none⟩
      isNegative (layout.positional (Nat.toDigits 10 n) exponent) (Digits.value ⟨n, exponent⟩) := by
  apply spells_of_padded ((-exponent - 1).toNat + 1) 0
  · simp [List.replicate_succ]
  · simp
  · exact .inl rfl
  · simp [Nat.toDigits_ne_nil]
  · simp
  · simp [Numeral.spelling, Decimal.Layout.positional, h]
  · simp only [Option.getD_some, Option.getD_none, List.length_append, List.length_replicate,
      digitCount]
    omega

/-- A whole number keeps a point. -/
theorem spells_whole (isNegative : Bool) {n : Nat} (hn : n ≠ 0) {exponent : Int}
    (h : 0 ≤ exponent) (hlength : digitCount n ≤ exponent.toNat + 1) :
    Numeral.Spells
      ⟨isNegative, Nat.toDigits 10 n ++ List.replicate (exponent.toNat + 1 - digitCount n) '0',
        some ['0'], none⟩
      isNegative (layout.positional (Nat.toDigits 10 n) exponent) (Digits.value ⟨n, exponent⟩) := by
  apply spells_of_padded 0 (exponent.toNat + 1 - digitCount n + 1)
  · simp [List.replicate_succ']
  · simp [Nat.toDigits_ne_nil]
  · right
    rw [List.head?_append_of_ne_nil _ Nat.toDigits_ne_nil]
    exact head?_toDigits hn
  · simp
  · simp
  · unfold digitCount at hlength ⊢
    simp [Numeral.spelling, Decimal.Layout.positional, h.not_gt, hlength, layout]
  · simp only [Option.getD_some, Option.getD_none, List.length_singleton]
    omega

/-- A number with digits on both sides of the point. -/
theorem spells_split (isNegative : Bool) {n : Nat} (hn : n ≠ 0) {exponent : Int}
    (h : 0 ≤ exponent) (hlength : exponent.toNat + 1 < digitCount n) :
    Numeral.Spells
      ⟨isNegative, (Nat.toDigits 10 n).take (exponent.toNat + 1),
        some ((Nat.toDigits 10 n).drop (exponent.toNat + 1)), none⟩
      isNegative (layout.positional (Nat.toDigits 10 n) exponent) (Digits.value ⟨n, exponent⟩) := by
  unfold digitCount at hlength
  apply spells_of_padded 0 0
  · simp
  · simp [Nat.toDigits_ne_nil]
  · right
    rw [List.head?_take, if_neg (by omega)]
    exact head?_toDigits hn
  · simp [hlength]
  · simp
  · simp [Numeral.spelling, Decimal.Layout.positional, h.not_gt, hlength]
  · simp only [Option.getD_some, Option.getD_none, List.length_drop, digitCount]
    omega

/-! ## With an exponent -/

def laterDigits (n : Nat) : Option (List Char) :=
  if digitCount n ≤ 1 then none else some ((Nat.toDigits 10 n).drop 1)

/-- One digit has no fraction, and the digits after it are none either way. -/
theorem getD_laterDigits (n : Nat) : (laterDigits n).getD [] = (Nat.toDigits 10 n).drop 1 := by
  unfold laterDigits
  split
  · next hone => exact (List.drop_eq_nil_of_le hone).symm
  · rfl

/-- In scientific notation there is one digit before the point. The exponent marks the numeral, so
the fraction may be missing. -/
theorem spells_scientific (isNegative : Bool) {n : Nat} (hn : n ≠ 0) (exponent : Int) :
    Numeral.Spells ⟨isNegative, (Nat.toDigits 10 n).take 1, laterDigits n, some exponent⟩
      isNegative (Layout.scientific (Nat.toDigits 10 n) exponent) (Digits.value ⟨n, exponent⟩) := by
  have hpos := digitCount_pos n
  apply spells_of_padded 0 0
  · rw [getD_laterDigits, List.take_append_drop]
    simp
  · simp [Nat.toDigits_ne_nil]
  · right
    rw [List.head?_take, if_neg (by decide)]
    exact head?_toDigits hn
  · unfold laterDigits digitCount
    split
    · simp
    · next hmore =>
      intro hnil
      exact hmore (List.drop_eq_nil_iff.mp (Option.some.inj hnil))
  · simp
  · unfold laterDigits digitCount
    split
    · next hone => simp [Numeral.spelling, Numeral.exponentText, Layout.scientific, hone]
    · next hmore => simp [Numeral.spelling, Numeral.exponentText, Layout.scientific, hmore]
  · simp only [getD_laterDigits, Option.getD_some, List.length_drop]
    unfold digitCount at hpos ⊢
    omega

/-! ## Doubles -/

/-- Zero is written with one digit on each side of the point. -/
theorem spells_zero (isNegative : Bool) :
    Numeral.Spells ⟨isNegative, ['0'], some ['0'], none⟩ isNegative (layout.positional ['0'] 0)
      (Digits.value ⟨0, 0⟩) := by
  apply spells_of_padded 0 1
  · simp
  · simp
  · exact .inl rfl
  · simp
  · simp
  · simp [Numeral.spelling, Layout.positional, layout]
  · simp [digitCount]

/-- Zero lies in the interval of zero, whatever its exponent. -/
theorem holds_zero {i : Interval} (h : i.mantissa = 0) : i.Holds 0 := by
  have hquarter := i.quarter_pos
  unfold Interval.Holds
  rw [if_pos (by omega)]
  constructor
  · simp [Interval.low, h]
  · positivity

/-- A magnitude is written as a number that rounds to it. `Interval.holds_shortest` says that of its
digits; the layout puts the point in one of four ways and keeps the number. -/
theorem exists_spells {i : Interval} (hnormal : i.IsNormal) (isNegative : Bool) :
    ∃ (numeral : Numeral) (x : ℚ),
      numeral.Spells isNegative (layout.magnitude i) x ∧ i.Holds x := by
  unfold Layout.magnitude
  by_cases hzero : i.mantissa = 0
  · rw [if_pos hzero]
    refine ⟨_, _, spells_zero isNegative, ?_⟩
    simpa [Digits.value] using holds_zero hzero
  · rw [if_neg hzero]
    have hholds := Interval.holds_shortest hzero hnormal layout.tie
    generalize i.shortest layout.tie = shortest at hholds ⊢
    obtain ⟨n, exponent⟩ := shortest
    have hn : n ≠ 0 := by
      rintro rfl
      exact absurd (hholds.pos hzero) (by simp [Digits.value])
    dsimp only
    split
    · by_cases hsmall : exponent < 0
      · exact ⟨_, _, spells_small isNegative n hsmall, hholds⟩
      · by_cases hlength : digitCount n ≤ exponent.toNat + 1
        · exact ⟨_, _, spells_whole isNegative hn (not_lt.mp hsmall) hlength, hholds⟩
        · exact ⟨_, _, spells_split isNegative hn (not_lt.mp hsmall) (not_le.mp hlength), hholds⟩
    · exact ⟨_, _, spells_scientific isNegative hn exponent, hholds⟩

/-- A numeral is what a double is written as. -/
structure Numeral.Writes (numeral : Numeral) (f : Float) : Prop where
  proper : numeral.IsProper
  /-- It has a fraction or an exponent. -/
  marked : numeral.fraction ≠ none ∨ numeral.exponent ≠ none
  sign : numeral.isNegative = (decode f).1
  holds : (decode f).2.Holds numeral.magnitude

/-- A finite double is written as a numeral. -/
theorem exists_writes {f : Float} (h : f.isFinite = true) :
    ∃ numeral : Numeral, numeral.Writes f ∧ scalar (double f) = numeral.spelling := by
  obtain ⟨numeral, x, hspells, hholds⟩ := exists_spells (isNormal_decode f) (decode f).1
  refine ⟨numeral, ⟨hspells.proper, hspells.marked, hspells.sign, ?_⟩, ?_⟩
  · rw [hspells.magnitude]
    exact hholds
  · simp only [scalar, Layout.text, h, ↓reduceIte, hspells.spelling, String.toList_ofList]

/-- No other double is written as the same numeral. -/
theorem Numeral.Writes.unique {numeral : Numeral} {f g : Float} (hf : numeral.Writes f)
    (hg : numeral.Writes g) : f = g := by
  apply decode_injective
  apply Prod.ext
  · rw [← hf.sign, hg.sign]
  · exact Interval.eq_of_holds (isNormal_decode f) (isNormal_decode g) hf.holds hg.holds

/-! ## Texts -/

/-- A numeral can be told from a text that starts with it. -/
theorem Numeral.spelling_inj {numeral other : Numeral} (h : numeral.IsProper)
    (hother : other.IsProper) {rest last : List Char} (hrest : Ends rest) (hlast : Ends last)
    (heq : numeral.spelling ++ rest = other.spelling ++ last) : numeral = other ∧ rest = last := by
  have hread := numeral?_spelling h hrest
  rw [heq, numeral?_spelling hother hlast] at hread
  cases hread
  exact ⟨rfl, rfl⟩

end ModelSchema.Json
