import Mathlib
import ModelSchema.Naming.Rules
import ModelSchema.Naming.Suffix

/-!
# The shapes of names

What it means for a name to follow a naming rule, said without the tests that decide it. Each test
is proved to decide its shape, which makes the shapes decidable.
-/

namespace ModelSchema.Naming

/-- `ProductLine`: an upper-case letter, then letters and digits. -/
def IsPascal (name : String) : Prop :=
  ∃ first rest, name.toList = first :: rest ∧ first.isUpper = true ∧
    ∀ c ∈ rest, c.isAlphanum = true

/-- `Shop.Sales.SalesDataContract`: words in Pascal case with dots between them. -/
def IsDottedPascal (name : String) : Prop :=
  ∃ words, words ≠ [] ∧ (∀ word ∈ words, IsPascal word) ∧ name = ".".intercalate words

/-- `DO_CODE`: upper-case letters, digits and underscores after the mark of a domain. -/
def IsDomainCode (code : String) : Prop :=
  ∃ rest, code = "DO_" ++ rest ∧ rest ≠ "" ∧
    ∀ c ∈ rest.toList, c.isUpper = true ∨ c.isDigit = true ∨ c = '_'

def IsTrigram (trigram : String) : Prop :=
  trigram.toList.length = 3 ∧ ∀ c ∈ trigram.toList, c.isUpper = true

def isSqlLetter : Sql.Engine → Char → Bool
  | .oracle => Char.isUpper
  | .sqlServer => Char.isAlpha

/-- `PRODUCT_LINE`: a letter, then letters, digits and underscores. -/
def IsSqlIdentifier (engine : Sql.Engine) (name : String) : Prop :=
  ∃ first rest, name.toList = first :: rest ∧ isSqlLetter engine first = true ∧
    ∀ c ∈ rest, isSqlLetter engine c = true ∨ c.isDigit = true ∨ c = '_'

/-- The name of a namespace ends with one of the suffixes. -/
def Suffixes.Known (suffixes : Suffixes) (name : String) : Prop :=
  suffixes.persistent.toList <:+ name.toList ∨ suffixes.functional.toList <:+ name.toList

/-! ## Words -/

/-- The test reads a name from left to right; the shape names its first character and its rest. -/
theorem isPascalWord_iff {word : List Char} :
    isPascalWord word = true ↔
      ∃ first rest, word = first :: rest ∧ first.isUpper = true ∧
        ∀ c ∈ rest, c.isAlphanum = true := by
  cases word with
  | nil => simp [isPascalWord]
  | cons first rest => simp [isPascalWord]

theorem isPascal_iff {name : String} : isPascal name = true ↔ IsPascal name :=
  isPascalWord_iff

/-- Words have no dots, so a dotted name is cut at the dots between them and nowhere else. -/
theorem dot_not_mem_of_isPascalWord {word : List Char} (h : isPascalWord word = true) :
    '.' ∉ word := by
  obtain ⟨first, rest, rfl, hfirst, hrest⟩ := isPascalWord_iff.mp h
  intro hdot
  rcases List.mem_cons.mp hdot with rfl | hdot
  · cases hfirst
  · cases hrest '.' hdot

/-- `splitDots` is the cut of the standard library, which knows how to undo it
(`List.intercalate_splitOn`, `List.splitOn_intercalate`). -/
theorem splitDots_eq_splitOn (chars : List Char) : splitDots chars = chars.splitOn '.' := by
  fun_induction splitDots chars with
  | case1 => rfl
  | case2 rest ih => simp [ih, List.splitOn, List.splitOnP_cons_eq_if_modifyHead]
  | case3 c rest hdot hnil ih =>
      rw [ih] at hnil
      exact absurd hnil (List.splitOn_ne_nil _ _)
  | case4 c rest hdot part parts heq ih =>
      have hne : (c == '.') = false := by simpa using hdot
      rw [List.splitOn, List.splitOnP_cons_eq_if_modifyHead, hne]
      rw [ih, List.splitOn] at heq
      simp [heq]

/-- A name is cut at its dots and put together again. Both directions need it: the words that the
test sees are the words that the shape asks for. -/
theorem isDottedPascal_iff {name : String} :
    isDottedPascal name = true ↔ IsDottedPascal name := by
  rw [isDottedPascal, splitDots_eq_splitOn, List.all_eq_true]
  constructor
  · intro h
    refine ⟨(name.toList.splitOn '.').map String.ofList, ?_, ?_, ?_⟩
    · simp
    · rintro _ hmem
      obtain ⟨word, hword, rfl⟩ := List.mem_map.mp hmem
      rw [← isPascal_iff, isPascal, String.toList_ofList]
      exact h word hword
    · apply String.toList_injective
      rw [String.toList_intercalate, List.map_map]
      simp [Function.comp_def, List.intercalate_splitOn]
  -- The words have no dot in them, so cutting the joined name gives them back.
  · rintro ⟨words, hwords, hpascal, rfl⟩ word hword
    have hpascal : ∀ word ∈ words.map String.toList, isPascalWord word = true := by
      simpa [← isPascal_iff, isPascal] using hpascal
    rw [String.toList_intercalate, show ".".toList = ['.'] from rfl, List.splitOn_intercalate _
      (fun word hword => dot_not_mem_of_isPascalWord (hpascal word hword)) (by simpa)] at hword
    exact hpascal word hword

/-- The test matches the mark `DO_` character by character; the shape has it as a prefix. -/
theorem isDomainCode_iff {code : String} : isDomainCode code = true ↔ IsDomainCode code := by
  rw [isDomainCode, IsDomainCode]
  constructor
  · split
    · next rest hcode =>
      intro h
      simp only [Bool.and_eq_true, Bool.not_eq_true', List.isEmpty_eq_false_iff, List.all_eq_true,
        Bool.or_eq_true, beq_iff_eq, or_assoc] at h
      refine ⟨String.ofList rest, String.toList_injective ?_, ?_, ?_⟩
      · simpa using hcode
      · simpa using h.1
      · simpa using h.2
    · intro h
      cases h
  · rintro ⟨rest, rfl, hrest, hchars⟩
    have hcode : ("DO_" ++ rest).toList = 'D' :: 'O' :: '_' :: rest.toList := by
      rw [String.toList_append]
      rfl
    rw [hcode]
    simpa [or_assoc, hrest] using hchars

theorem isTrigram_iff {trigram : String} : isTrigram trigram = true ↔ IsTrigram trigram := by
  simp [isTrigram, IsTrigram]

/-- The engines differ in the letters that they allow, and in nothing else. -/
theorem isSqlIdentifier_iff {engine : Sql.Engine} {name : String} :
    isSqlIdentifier engine name = true ↔ IsSqlIdentifier engine name := by
  unfold isSqlIdentifier IsSqlIdentifier
  generalize name.toList = chars
  cases engine <;> cases chars <;> simp [isSqlLetter, Char.isAlphanum, or_assoc]

/-- A name with a known suffix belongs to one of the two layers. -/
theorem Suffixes.isKnown_iff {suffixes : Suffixes} {name : String} :
    suffixes.isKnown name = true ↔ suffixes.Known name := by
  simp [isKnown, isPersistent, Known, Text.endsWith]

instance : DecidablePred IsPascal :=
  fun _ => decidable_of_iff _ isPascal_iff

instance : DecidablePred IsDottedPascal :=
  fun _ => decidable_of_iff _ isDottedPascal_iff

instance : DecidablePred IsDomainCode :=
  fun _ => decidable_of_iff _ isDomainCode_iff

instance : DecidablePred IsTrigram :=
  fun _ => decidable_of_iff _ isTrigram_iff

instance (engine : Sql.Engine) : DecidablePred (IsSqlIdentifier engine) :=
  fun _ => decidable_of_iff _ isSqlIdentifier_iff

instance (suffixes : Suffixes) : DecidablePred suffixes.Known :=
  fun _ => decidable_of_iff _ Suffixes.isKnown_iff

end ModelSchema.Naming
