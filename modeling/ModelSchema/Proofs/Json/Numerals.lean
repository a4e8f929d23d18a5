import Mathlib
import ModelSchema.Json.Number
import ModelSchema.Json.Printer

/-!
# Numerals read back

A numeral has one spelling, and reading it gives the numeral back if nothing follows that could go
on with it (`numeral?_spelling`). Whole numbers are written as such spellings (`int_spelling`), and
within 64 bits they are the value of what is read (`value_ofInt`).
-/

namespace ModelSchema.Json

/-! ## Digits

The readers of digits stop at the first other character, and what digits are worth is computed from
the left. -/

/-- No digit comes first. Behind a row of digits this makes the row complete. -/
def NoDigit (rest : List Char) : Prop :=
  ∀ c ∈ rest.head?, c.isDigit = false

theorem takeWhile_digits {digits rest : List Char} (hdigits : ∀ c ∈ digits, c.isDigit = true)
    (hrest : NoDigit rest) : (digits ++ rest).takeWhile Char.isDigit = digits := by
  rw [List.takeWhile_append_of_pos hdigits]
  cases rest with
  | nil => simp
  | cons c rest => simp [hrest c rfl]

theorem dropWhile_digits {digits rest : List Char} (hdigits : ∀ c ∈ digits, c.isDigit = true)
    (hrest : NoDigit rest) : (digits ++ rest).dropWhile Char.isDigit = rest := by
  rw [List.dropWhile_append_of_pos hdigits]
  cases rest with
  | nil => simp
  | cons c rest => simp [hrest c rfl]

/-- A fraction and an exponent take digits of any kind. -/
theorem someDigits?_append {digits rest : List Char} (hdigits : ∀ c ∈ digits, c.isDigit = true)
    (hne : digits ≠ []) (hrest : NoDigit rest) :
    someDigits? (digits ++ rest) = some (digits, rest) := by
  simp [someDigits?, takeWhile_digits hdigits hrest, dropWhile_digits hdigits hrest, hne]

/-- Digits without a zero in front, unless that is all. -/
structure IsWhole (whole : List Char) : Prop where
  digits : ∀ c ∈ whole, c.isDigit = true
  nonempty : whole ≠ []
  unpadded : whole = ['0'] ∨ whole.head? ≠ some '0'

/-- A whole part takes digits of a number only, see `IsWhole`. -/
theorem wholeDigits?_append {digits rest : List Char} (h : IsWhole digits) (hrest : NoDigit rest) :
    wholeDigits? (digits ++ rest) = some (digits, rest) := by
  rw [wholeDigits?, takeWhile_digits h.digits hrest, dropWhile_digits h.digits hrest]
  split
  · next hnil => exact absurd rfl h.nonempty
  · next hzero =>
    rcases h.unpadded with hsingle | hhead
    · cases hsingle
    · exact absurd rfl hhead
  · rfl

/-- Horner, cut in two. With `digitsValue_zeros` this computes what padding does to a number. -/
theorem digitsValue_append (first second : List Char) :
    digitsValue (first ++ second) =
      digitsValue first * 10 ^ second.length + digitsValue second := by
  show Nat.ofDigitChars 10 (first ++ second) 0 = _
  rw [Nat.ofDigitChars_append, Nat.ofDigitChars_eq_ofDigitChars_zero, Nat.mul_comm]
  rfl

theorem digitsValue_zeros (count : Nat) : digitsValue (List.replicate count '0') = 0 := by
  show Nat.ofDigitChars 10 _ 0 = 0
  simp

theorem digitsValue_toDigits (n : Nat) : digitsValue (Nat.toDigits 10 n) = n :=
  Nat.ofDigitChars_ten_toDigits

theorem isDigit_toDigits (n : Nat) : ∀ c ∈ Nat.toDigits 10 n, c.isDigit = true :=
  fun _ h => Nat.isDigit_of_mem_toDigits (by decide) (by decide) h

/-- Digits are made from the right, so this goes by induction on the number without its last digit.
-/
theorem head?_toDigits {n : Nat} (h : n ≠ 0) : (Nat.toDigits 10 n).head? ≠ some '0' := by
  induction n using Nat.strongRecOn with
  | _ n ih =>
    rw [Nat.toDigits_eq_if (by decide)]
    split
    · simp [h]
    · next hlarge =>
      have hfirst := ih (n / 10) (by omega) (by omega)
      rwa [List.head?_append_of_ne_nil _ Nat.toDigits_ne_nil]

theorem isWhole_toDigits (n : Nat) : IsWhole (Nat.toDigits 10 n) where
  digits := isDigit_toDigits n
  nonempty := Nat.toDigits_ne_nil
  unpadded := by
    by_cases h : n = 0
    · exact .inl (by simp [h])
    · exact .inr (head?_toDigits h)

/-! ## Spellings -/

namespace Numeral

def exponentText (exponent : Int) : List Char :=
  'e' :: (if exponent < 0 then '-' else '+') :: Nat.toDigits 10 exponent.natAbs

/-- A numeral as it is written: sign, whole part, fraction and exponent, in the order in which
`numeral?` reads them. -/
def spelling (numeral : Numeral) : List Char :=
  (if numeral.isNegative then ['-'] else []) ++ numeral.whole
    ++ numeral.fraction.elim [] ('.' :: ·) ++ numeral.exponent.elim [] exponentText

/-- The digits of a numeral are digits, and there are enough of them. All numerals that `numeral?`
gives are proper; others have spellings that are read as something else, or not at all. -/
structure IsProper (numeral : Numeral) : Prop where
  whole : IsWhole numeral.whole
  fraction : ∀ digits ∈ numeral.fraction, digits ≠ [] ∧ ∀ c ∈ digits, c.isDigit = true

/-- A numeral starts with a sign or a digit. -/
theorem spelling_start {numeral : Numeral} (h : numeral.IsProper) :
    ∃ c cs, numeral.spelling = c :: cs ∧ (c.isDigit = true ∨ c = '-') := by
  cases hsign : numeral.isNegative with
  | true => exact ⟨'-', _, by rw [spelling, hsign]; rfl, .inr rfl⟩
  | false =>
      obtain ⟨c, digits, hwhole⟩ := List.exists_cons_of_ne_nil h.whole.nonempty
      refine ⟨c, _, by rw [spelling, hsign, hwhole]; rfl, .inl ?_⟩
      exact h.whole.digits c (hwhole ▸ List.mem_cons_self)

end Numeral

/-- Nothing follows that could go on with a numeral. In JSON this is always so, as a comma, a blank
or a bracket follows. -/
def Ends (rest : List Char) : Prop :=
  ∀ c ∈ rest.head?, c.isDigit = false ∧ c ≠ '.' ∧ c ≠ 'e' ∧ c ≠ 'E'

theorem Ends.noDigit {rest : List Char} (h : Ends rest) : NoDigit rest :=
  fun c hc => (h c hc).1

theorem ends_nil : Ends [] :=
  fun _ h => by cases h

theorem ends_cons {c : Char} {rest : List Char}
    (h : c.isDigit = false ∧ c ≠ '.' ∧ c ≠ 'e' ∧ c ≠ 'E') : Ends (c :: rest) := by
  intro other hother
  cases hother
  exact h

/-! ## Reading -/

/-- Without exponent nothing is read. -/
theorem exponent?_of_ends {rest : List Char} (h : Ends rest) :
    exponent? rest = some (none, rest) := by
  cases rest with
  | nil => rfl
  | cons c rest =>
      obtain ⟨-, -, he, hE⟩ := h c rfl
      simp [exponent?, he, hE]

/-- With one, its mark and sign are read, and its digits up to the end. -/
theorem exponent?_text (exponent : Int) {rest : List Char} (h : Ends rest) :
    exponent? (Numeral.exponentText exponent ++ rest) = some (some exponent, rest) := by
  have hdigits := someDigits?_append (isDigit_toDigits exponent.natAbs) Nat.toDigits_ne_nil
    h.noDigit
  by_cases hsign : exponent < 0
  · simp only [Numeral.exponentText, hsign, ↓reduceIte, List.cons_append, exponent?, exponentSign,
      true_or, hdigits, Option.map_some, digitsValue_toDigits]
    congr
    omega
  · simp only [Numeral.exponentText, hsign, ↓reduceIte, List.cons_append, exponent?, exponentSign,
      true_or, hdigits, Option.map_some, digitsValue_toDigits, Bool.false_eq_true]
    congr
    omega

/-- What follows the whole part: its first character is no digit. -/
theorem noDigit_tail (exponent : Option Int) {rest : List Char} (h : Ends rest) :
    NoDigit (exponent.elim [] Numeral.exponentText ++ rest) := by
  cases exponent with
  | none => exact h.noDigit
  | some exponent =>
      intro c hc
      cases hc
      rfl

theorem exponent?_tail (exponent : Option Int) {rest : List Char} (h : Ends rest) :
    exponent? (exponent.elim [] Numeral.exponentText ++ rest) = some (exponent, rest) := by
  cases exponent with
  | none => exact exponent?_of_ends h
  | some exponent => exact exponent?_text exponent h

/-- What may follow the whole part, in three steps: an exponent, a fraction, or neither. -/
theorem fraction?_tail {fraction : Option (List Char)}
    (hfraction : ∀ digits ∈ fraction, digits ≠ [] ∧ ∀ c ∈ digits, c.isDigit = true)
    (exponent : Option Int) {rest : List Char} (h : Ends rest) :
    fraction? (fraction.elim [] ('.' :: ·) ++ (exponent.elim [] Numeral.exponentText ++ rest)) =
      some (fraction, exponent.elim [] Numeral.exponentText ++ rest) := by
  cases fraction with
  | some digits =>
      obtain ⟨hne, hdigits⟩ := hfraction digits rfl
      simp [fraction?, someDigits?_append hdigits hne (noDigit_tail exponent h)]
  | none =>
      cases exponent with
      | some exponent => rfl
      | none =>
          cases rest with
          | nil => rfl
          | cons c rest =>
              have hpoint := (h c rfl).2.1
              show fraction? (c :: rest) = _
              rw [fraction?.eq_def]
              split
              · next heq =>
                cases heq
                exact absurd rfl hpoint
              · rfl

/-- The rest of a numeral whose sign has been read: the lower half of `numeral?`. -/
def unsigned? (isNegative : Bool) (cs : List Char) : Option (Numeral × List Char) := do
  let (whole, cs) ← wholeDigits? cs
  let (fraction, cs) ← fraction? cs
  let (exponent, cs) ← exponent? cs
  return (⟨isNegative, whole, fraction, exponent⟩, cs)

/-- Without a sign, nothing is taken away before the digits. -/
theorem numeral?_of_ne {c : Char} (h : c ≠ '-') (cs : List Char) :
    numeral? (c :: cs) = unsigned? false (c :: cs) := by
  rw [numeral?.eq_def]
  split
  next sign text heq =>
  split at heq
  · next hcons =>
    cases hcons
    exact absurd rfl h
  · cases heq
    rfl

theorem unsigned?_append (isNegative : Bool) {whole : List Char} {fraction : Option (List Char)}
    (hwhole : IsWhole whole)
    (hfraction : ∀ digits ∈ fraction, digits ≠ [] ∧ ∀ c ∈ digits, c.isDigit = true)
    (exponent : Option Int) {rest : List Char} (hrest : Ends rest) :
    unsigned? isNegative (whole ++ (fraction.elim [] ('.' :: ·) ++
        (exponent.elim [] Numeral.exponentText ++ rest))) =
      some (⟨isNegative, whole, fraction, exponent⟩, rest) := by
  have hnext : NoDigit
      (fraction.elim [] ('.' :: ·) ++ (exponent.elim [] Numeral.exponentText ++ rest)) := by
    cases fraction with
    | none => exact noDigit_tail exponent hrest
    | some digits =>
        intro c hc
        cases hc
        rfl
  simp [unsigned?, wholeDigits?_append hwhole hnext, fraction?_tail hfraction exponent hrest,
    exponent?_tail exponent hrest]

/-- The spelling of a numeral is read as that numeral. -/
theorem numeral?_spelling {numeral : Numeral} (h : numeral.IsProper) {rest : List Char}
    (hrest : Ends rest) : numeral? (numeral.spelling ++ rest) = some (numeral, rest) := by
  obtain ⟨isNegative, whole, fraction, exponent⟩ := numeral
  have hread := unsigned?_append isNegative h.whole h.fraction exponent hrest
  cases isNegative with
  | true =>
      simp only [Numeral.spelling, ↓reduceIte, List.append_assoc]
      exact hread
  | false =>
      -- The first digit is no sign.
      obtain ⟨c, digits, rfl⟩ := List.exists_cons_of_ne_nil h.whole.nonempty
      have hc : c ≠ '-' := by
        rintro rfl
        exact absurd (h.whole.digits '-' List.mem_cons_self) (by decide)
      simp only [Numeral.spelling, Bool.false_eq_true, ↓reduceIte, List.append_assoc,
        List.nil_append, List.cons_append]
      rw [numeral?_of_ne hc]
      exact hread

/-! ## Whole numbers -/

def Numeral.ofInt (n : Int) : Numeral :=
  ⟨decide (n < 0), Nat.toDigits 10 n.natAbs, none, none⟩

theorem isProper_ofInt (n : Int) : (Numeral.ofInt n).IsProper where
  whole := isWhole_toDigits n.natAbs
  fraction := by
    intro digits h
    cases h

/-- The printer does not go through numerals. What it writes is the spelling of one. -/
theorem int_spelling (n : Int) : scalar (int n) = (Numeral.ofInt n).spelling := by
  rw [scalar, Int.toString_eq_repr, Int.repr_eq_if]
  by_cases h : 0 ≤ n
  · have hnat : n.toNat = n.natAbs := by omega
    simp [h, Numeral.spelling, Numeral.ofInt, hnat, Nat.toList_repr]
  · have hnat : (-n).toNat = n.natAbs := by omega
    have hneg : n < 0 := by omega
    simp [h, Numeral.spelling, Numeral.ofInt, hnat, hneg, Nat.toList_repr]

/-- A whole number of 64 bits, signed or not, is the value of its numeral. Beyond, the value is a
double. -/
theorem value_ofInt {n : Int} (hlow : -(2 ^ 63) ≤ n) (hhigh : n < 2 ^ 64) :
    (Numeral.ofInt n).value = int n := by
  simp only [Numeral.value, Numeral.ofInt, digitsValue_toDigits]
  by_cases h : n < 0
  · have hrange : 0 < n.natAbs ∧ n.natAbs ≤ Nat.pow 2 63 := by
      have : Nat.pow 2 63 = 2 ^ 63 := rfl
      omega
    have hvalue : -(n.natAbs : Int) = n := by omega
    simp only [h, decide_true, ↓reduceIte, hrange, hvalue, and_self]
  · have hrange : n.natAbs ≤ significandLimit := by
      have : significandLimit = 2 ^ 64 - 1 := rfl
      omega
    have hvalue : (n.natAbs : Int) = n := by omega
    simp only [h, decide_false, ↓reduceIte, hrange, hvalue, Bool.false_eq_true]

end ModelSchema.Json
