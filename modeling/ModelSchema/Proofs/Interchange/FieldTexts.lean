import ModelSchema.Interchange.Adapter
import ModelSchema.Multiplicity
import ModelSchema.Proofs.Json.Numerals

/-!
# Field texts read back

What the adapters make of the text of a field. A text without blanks at its ends is kept by trimming
(`trimmed?_of_tidy`), and a multiplicity in normal form is such a text (`tidy_normalize`). Numbers
of 32 bits are read back from their digits (`number?_toString`).
-/

namespace ModelSchema

/-! ## Tidy texts

Adapters trim the text of every field and take a blank one for a missing one. `Tidy` is what
survives that. -/

namespace Text

/-- A text that is not empty and has no blanks at its ends. -/
def Tidy (s : String) : Prop :=
  s ≠ "" ∧ trim s = s

instance : DecidablePred Tidy :=
  fun s => inferInstanceAs (Decidable (s ≠ "" ∧ trim s = s))

def TidyField (value : Option String) : Prop :=
  ∀ s ∈ value, Tidy s

instance : DecidablePred TidyField :=
  fun value => inferInstanceAs (Decidable (∀ s ∈ value, Tidy s))

theorem Tidy.field {s : String} (h : Tidy s) : TidyField s := by
  rintro _ ⟨⟩
  exact h

/-- Stated for a field that is there, so that both shapes of fields use one condition. -/
theorem trimmed?_of_tidy {s : String} (h : TidyField s) : trimmed? s = some s := by
  have htidy : Tidy s := h s rfl
  rw [trimmed?, htidy.2, if_neg htidy.1]

/-- A tidy field is read back, and so is a missing one. -/
theorem bind_trimmed? {value : Option String} (h : TidyField value) :
    value.bind trimmed? = value := by
  cases value with
  | none => rfl
  | some s => exact trimmed?_of_tidy h

/-- Neither the first nor the last character is blank. Unlike `Tidy`, this includes the empty text
and can be seen from the characters at the ends. -/
def Firm (cs : List Char) : Prop :=
  (∀ c ∈ cs.head?, isBlank c = false) ∧ ∀ c ∈ cs.getLast?, isBlank c = false

theorem dropWhile_of_head {p : Char → Bool} {cs : List Char} (h : ∀ c ∈ cs.head?, p c = false) :
    cs.dropWhile p = cs := by
  cases cs with
  | nil => rfl
  | cons c cs => simp [h c rfl]

/-- Trimming drops blanks at both ends, and there are none. -/
theorem trim_of_firm {s : String} (h : Firm s.toList) : trim s = s := by
  have hend : ∀ c ∈ s.toList.reverse.head?, isBlank c = false := by
    rw [List.head?_reverse]
    exact h.2
  rw [trim, dropBothWhile, dropWhile_of_head h.1, dropEndWhile, dropWhile_of_head hend,
    List.reverse_reverse, String.ofList_toList]

theorem head?_dropWhile_blank (cs : List Char) :
    ∀ c ∈ (cs.dropWhile isBlank).head?, isBlank c = false := by
  intro c hc
  rw [Option.mem_def] at hc
  have hnot := List.head?_dropWhile_not isBlank cs
  rwa [hc] at hnot

/-- Trimming twice is trimming once. -/
theorem firm_trim (s : String) : Firm (trim s).toList := by
  rw [trim, String.toList_ofList, dropBothWhile]
  set cs := s.toList.dropWhile isBlank with hcs
  constructor
  · intro c hc
    -- What is left is the start of `cs`, whose first character is not blank.
    obtain ⟨dropped, happend⟩ : dropEndWhile isBlank cs <+: cs := by
      rw [dropEndWhile, ← List.reverse_reverse cs, List.reverse_prefix, List.reverse_reverse]
      exact List.dropWhile_suffix isBlank
    have hhead : cs.head? = some c := by
      rw [← happend, List.head?_append, Option.mem_def.mp hc]
      rfl
    exact head?_dropWhile_blank s.toList c (hcs ▸ hhead)
  · intro c hc
    rw [dropEndWhile, List.getLast?_reverse] at hc
    exact head?_dropWhile_blank _ c hc

end Text

/-! ## Multiplicities -/

namespace Multiplicity

open Text (Firm)

/-- The bounds of a spelling, with "many" as `0` and `N`. Kept apart from `normalize` because one
format writes the bounds into two fields. -/
def normalBounds (s : String) : String × String :=
  (if isUnbounded (bounds s).1 then "0" else (bounds s).1,
    if isUnbounded (bounds s).2 then "N" else (bounds s).2)

theorem normalize_eq (s : String) :
    normalize s = (normalBounds s).1 ++ ".." ++ (normalBounds s).2 := by
  unfold normalize normalBounds
  cases bounds s
  rfl

/-- `bounds` trims each of the two parts. -/
theorem firm_bounds (s : String) : Firm (bounds s).1.toList ∧ Firm (bounds s).2.toList := by
  cases h : splitBounds? (Text.trim s).toList with
  | none =>
      simp only [bounds, h]
      exact ⟨Text.firm_trim s, Text.firm_trim s⟩
  | some parts =>
      simp only [bounds, h]
      exact ⟨Text.firm_trim _, Text.firm_trim _⟩

theorem firm_ite {s t : String} (hs : Firm s.toList) (ht : Firm t.toList) (b : Bool) :
    Firm (if b then s else t).toList := by
  cases b with
  | true => exact hs
  | false => exact ht

theorem firm_normalBounds (s : String) :
    Firm (normalBounds s).1.toList ∧ Firm (normalBounds s).2.toList := by
  obtain ⟨hlower, hupper⟩ := firm_bounds s
  have hzero : Firm "0".toList := by simp [Firm, Text.isBlank]
  have hmany : Firm "N".toList := by simp [Firm, Text.isBlank]
  unfold normalBounds
  generalize bounds s = parts at hlower hupper ⊢
  exact ⟨firm_ite hzero hlower _, firm_ite hmany hupper _⟩

/-- A normal spelling has no blanks at its ends, and is not empty. -/
theorem tidy_normalize (s : String) : Text.Tidy (normalize s) := by
  obtain ⟨hlower, hupper⟩ := firm_normalBounds s
  rw [normalize_eq]
  constructor
  · simp
  · apply Text.trim_of_firm
    simp only [String.toList_append]
    constructor
    · intro c hc
      rw [List.append_assoc, List.head?_append] at hc
      rcases hfirst : (normalBounds s).1.toList.head? with _ | first
      · rw [hfirst] at hc
        cases hc
        decide
      · rw [hfirst] at hc
        cases hc
        exact hlower.1 c hfirst
    · intro c hc
      rw [List.getLast?_append] at hc
      rcases hlast : (normalBounds s).2.toList.getLast? with _ | last
      · rw [hlast, List.getLast?_append] at hc
        cases hc
        decide
      · rw [hlast] at hc
        cases hc
        exact hupper.2 c hlast

end Multiplicity

namespace Interchange

/-! ## Numbers and flags -/

/-- Numbers are tidy: they have digits, and nothing but digits. -/
theorem isBlank_of_isDigit {c : Char} (h : c.isDigit = true) : Text.isBlank c = false := by
  have hrange : 48 ≤ c.toNat ∧ c.toNat ≤ 57 := by
    simpa [Char.isDigit, UInt32.le_iff_toNat_le] using h
  simp only [Text.isBlank, Bool.or_eq_false_iff, Bool.and_eq_false_iff, decide_eq_false_iff_not,
    beq_eq_false_iff_ne]
  omega

theorem tidy_toString (n : Nat) : Text.Tidy (toString n) := by
  have hdigits : (toString n).toList = Nat.toDigits 10 n := by
    rw [Nat.toString_eq_repr, Nat.toList_repr]
  have hblank : ∀ c ∈ (toString n).toList, Text.isBlank c = false := by
    intro c hc
    rw [hdigits] at hc
    exact isBlank_of_isDigit (Json.isDigit_toDigits n c hc)
  constructor
  · intro hempty
    rw [hempty] at hdigits
    exact Nat.toDigits_ne_nil hdigits.symm
  · apply Text.trim_of_firm
    exact ⟨fun c hc => hblank c (List.mem_of_head? hc),
      fun c hc => hblank c (List.mem_of_getLast? hc)⟩

/-- A number of 32 bits is read back from its digits. No sign is written, and `digitsValue_toDigits`
is what the digits are worth. -/
theorem number?_toString {n : Nat} (h : n < 2 ^ 32) : number? (some (toString n)) = some n := by
  have hdigits : (Text.trim (toString n)).toList = Nat.toDigits 10 n := by
    rw [(tidy_toString n).2, Nat.toString_eq_repr, Nat.toList_repr]
  have hunsigned : ∀ rest, Nat.toDigits 10 n ≠ '+' :: rest := by
    intro rest heq
    exact absurd (Json.isDigit_toDigits n '+' (heq ▸ List.mem_cons_self)) (by decide)
  have hall : (Nat.toDigits 10 n).all Char.isDigit = true :=
    List.all_eq_true.mpr (Json.isDigit_toDigits n)
  have hvalue :
      (Nat.toDigits 10 n).foldl (fun value c => 10 * value + (c.toNat - '0'.toNat)) 0 = n :=
    Json.digitsValue_toDigits n
  have hlimit : n < Nat.pow 2 32 := h
  simp only [number?, Option.bind_eq_bind, Option.bind_some, hdigits, hvalue, hall]
  simp [hlimit, Nat.toDigits_ne_nil]

/-- A flag that is not set is left out; one that is set may be spelled in several ways, of which `1`
is one. -/
theorem isFlag_one (b : Bool) : isFlag (if b then some "1" else none) = b := by
  cases b <;> decide

end Interchange

end ModelSchema
