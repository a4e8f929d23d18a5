import ModelSchema.Allowlist
import ModelSchema.Proofs.Text.Bytes

/-!
# What patterns match

A pattern with a star fits the texts that begin with what stands before the star and go on to end
with what stands after it (`Fits`). The two parts may touch in the text, but not overlap.

* A match is tested on characters, after what stands before the star has been taken off the text
  (`isMatch_iff`).
* It can be tested on bytes too, with both parts compared to the whole text: if the text has as many
  bytes as both parts together, they do not overlap (`exists_middle_iff`). A pattern is cut before
  and after the byte of its first star, which is never inside a character (`matchBytes?_eq`).
-/

namespace ModelSchema.Allowlist

open Text

/-- A pattern without star fits itself. Any other pattern fits what stands before its first star,
followed by anything, followed by what stands after the star: this is what `isMatch` is specified
by, with no mention of how a text is searched. -/
def Fits (pattern text : String) : Prop :=
  '*' ∉ pattern.toList ∧ pattern = text ∨
    ∃ start middle ending : String, '*' ∉ start.toList ∧
      pattern = start ++ "*" ++ ending ∧ text = start ++ middle ++ ending

/-! ## Characters -/

/-- A pattern is cut at its first star. -/
theorem exists_eq_of_mem {pattern : String} (h : '*' ∈ pattern.toList) :
    ∃ start ending : String, '*' ∉ start.toList ∧ pattern = start ++ "*" ++ ending := by
  obtain ⟨start, ending, hpattern, hstart⟩ := List.eq_append_cons_of_mem h
  refine ⟨String.ofList start, String.ofList ending, by simpa using hstart, ?_⟩
  apply String.toList_injective
  simp [hpattern]

/-- The test that `isMatch` cuts a pattern with, on a part without star. -/
theorem ne_star_of_notMem {chars : List Char} (h : '*' ∉ chars) :
    ∀ c ∈ chars, (c != '*') = true := by
  intro c hc
  simpa using fun heq : c = '*' => h (heq ▸ hc)

/-- A pattern without star is compared as it is. -/
theorem isMatch_of_notMem {pattern text : List Char} (h : '*' ∉ pattern) :
    isMatch pattern text = (pattern == text) := by
  have hdrop : pattern.dropWhile (· != '*') = [] :=
    List.dropWhile_eq_nil_iff.mpr (ne_star_of_notMem h)
  have hne : pattern ≠ ['*', '*'] := by
    rintro rfl
    simp at h
  rw [isMatch, if_neg hne, hdrop]

/-- `isMatch` on a pattern that is written as its two parts. The exception is the pattern of two
stars, which `isMatch` answers before it looks for a star. -/
theorem isMatch_append {start ending text : List Char} (hstart : '*' ∉ start)
    (hne : start ++ '*' :: ending ≠ ['*', '*']) :
    isMatch (start ++ '*' :: ending) text =
      (start.isPrefixOf text && ending.isSuffixOf (text.drop start.length)) := by
  have hall := ne_star_of_notMem hstart
  rw [isMatch, if_neg hne, List.takeWhile_append_of_pos hall, List.dropWhile_append_of_pos hall]
  simp

section Star

variable {start ending text : String}

theorem toList_star (start ending : String) :
    (start ++ "*" ++ ending).toList = start.toList ++ '*' :: ending.toList := by
  simp

/-- What stands after the star ends what is left of the text once `start` is taken off. So the two
parts cannot overlap in the text. -/
theorem isMatch_star_iff (hstart : '*' ∉ start.toList) (hne : start ++ "*" ++ ending ≠ "**") :
    isMatch (start ++ "*" ++ ending).toList text.toList = true ↔
      ∃ middle, text = start ++ middle ++ ending := by
  have hchars : start.toList ++ '*' :: ending.toList ≠ ['*', '*'] := by
    rw [← toList_star]
    exact fun h => hne (String.toList_injective h)
  rw [toList_star, isMatch_append hstart hchars, Bool.and_eq_true, List.isPrefixOf_iff_prefix,
    List.isSuffixOf_iff_suffix]
  constructor
  · rintro ⟨⟨rest, hrest⟩, middle, hmiddle⟩
    rw [← hrest, List.drop_left] at hmiddle
    refine ⟨String.ofList middle, String.toList_injective ?_⟩
    rw [← hrest, ← hmiddle]
    simp
  · rintro ⟨middle, rfl⟩
    exact ⟨⟨middle.toList ++ ending.toList, by simp⟩, middle.toList, by simp⟩

end Star

/-- The specification of `isMatch`: a pattern matches the texts it fits; two stars match any text,
although they `Fits` only those that end with a star. -/
theorem isMatch_iff (pattern text : String) :
    isMatch pattern.toList text.toList = true ↔ pattern = "**" ∨ Fits pattern text := by
  constructor
  · intro h
    by_cases htwo : pattern = "**"
    · exact .inl htwo
    · refine .inr ?_
      by_cases hstar : '*' ∈ pattern.toList
      · obtain ⟨start, ending, hstart, rfl⟩ := exists_eq_of_mem hstar
        obtain ⟨middle, htext⟩ := (isMatch_star_iff hstart htwo).mp h
        exact .inr ⟨start, middle, ending, hstart, rfl, htext⟩
      · rw [isMatch_of_notMem hstar, beq_iff_eq, String.toList_inj] at h
        exact .inl ⟨hstar, h⟩
  -- Back: two stars, no star, or a text that is given with its three parts.
  · rintro (rfl | ⟨hstar, rfl⟩ | ⟨start, middle, ending, hstart, rfl, htext⟩)
    · rfl
    · rw [isMatch_of_notMem hstar, beq_self_eq_true]
    · by_cases htwo : start ++ "*" ++ ending = "**"
      · rw [htwo]
        rfl
      · exact (isMatch_star_iff hstart htwo).mpr ⟨middle, htext⟩

/-! ## Bytes -/

/-- Two parts that a text begins and ends with do not overlap if it has room for the bytes of both.
This is what makes the comparison on whole texts in `matchBytes?` agree with the one in `isMatch`.
-/
theorem exists_middle_iff {start ending text : String} :
    (∃ middle, text = start ++ middle ++ ending) ↔
      start.utf8ByteSize + ending.utf8ByteSize ≤ text.utf8ByteSize ∧
        bytes start <+: bytes text ∧ bytes ending <:+ bytes text := by
  constructor
  · rintro ⟨middle, rfl⟩
    simp only [bytes_append, String.utf8ByteSize_append]
    refine ⟨by omega, ?_, List.suffix_append _ _⟩
    rw [List.append_assoc]
    exact List.prefix_append _ _
  · rintro ⟨hroom, hstart, hending⟩
    obtain ⟨rest, hrest⟩ := bytes_isPrefix_iff.mp hstart
    obtain rfl : text = start ++ String.ofList rest := String.toList_injective (by simp [hrest])
    -- The end of the text with as many bytes as `ending` lies behind `start`.
    have hbehind : bytes ending <:+ bytes (String.ofList rest) := by
      refine List.suffix_of_suffix_length_le hending ?_ ?_
      · rw [bytes_append]
        exact List.suffix_append _ _
      · rw [String.utf8ByteSize_append] at hroom
        rw [length_bytes, length_bytes]
        omega
    obtain ⟨middle, hmiddle⟩ := bytes_isSuffix_iff.mp hbehind
    refine ⟨String.ofList middle, String.toList_injective ?_⟩
    simpa using hmiddle.symm

def starOffset? (pattern : String) : Option Nat :=
  (bytes pattern).idxOf? '*'.toUInt8

/-- Test a match on bytes: cut the pattern before and after its first star, and compare both parts
to the text, which must have room for both. There is no answer if a cut is inside a character. -/
def matchBytes? (pattern text : String) : Option Bool :=
  if pattern = "*" ∨ pattern = "**" then some true
  else
    match starOffset? pattern with
    | none => some (pattern == text)
    | some offset => do
      let start ← slice? pattern 0 offset
      let ending ← slice? pattern (offset + 1) pattern.utf8ByteSize
      return start.utf8ByteSize + ending.utf8ByteSize ≤ text.utf8ByteSize
        && (bytes start).isPrefixOf (bytes text) && (bytes ending).isSuffixOf (bytes text)

theorem utf8ByteSize_star (start : String) :
    (start ++ "*").utf8ByteSize = start.utf8ByteSize + 1 :=
  String.utf8ByteSize_append

/-- No byte of another character looks like a star (`mem_bytes_iff`). -/
theorem starOffset?_of_notMem {pattern : String} (h : '*' ∉ pattern.toList) :
    starOffset? pattern = none := by
  rw [starOffset?, List.idxOf?_eq_none_iff, mem_bytes_iff (by decide)]
  exact h

/-- The first star is as many bytes from the start as the part before it has. -/
theorem starOffset?_append {start : String} (h : '*' ∉ start.toList) (ending : String) :
    starOffset? (start ++ "*" ++ ending) = some start.utf8ByteSize :=
  idxOf?_bytes_append (by decide) h ending

/-- A star is never inside a character, nor is the offset after it. So `slice?` has an answer at
both cuts. -/
theorem isBoundary_of_starOffset? {pattern : String} {offset : Nat}
    (h : starOffset? pattern = some offset) :
    IsBoundary pattern offset ∧ IsBoundary pattern (offset + 1) := by
  by_cases hstar : '*' ∈ pattern.toList
  · obtain ⟨start, ending, hstart, rfl⟩ := exists_eq_of_mem hstar
    rw [starOffset?_append hstart] at h
    cases h
    constructor
    · exact isBoundary_iff.mpr ⟨start, "*" ++ ending, String.append_assoc, rfl⟩
    · exact isBoundary_iff.mpr ⟨start ++ "*", ending, rfl, (utf8ByteSize_star start).symm⟩
  · rw [starOffset?_of_notMem hstar] at h
    cases h

/-- The test on bytes always has an answer, and it is that of the test on characters. -/
theorem matchBytes?_eq (pattern text : String) :
    matchBytes? pattern text = some (isMatch pattern.toList text.toList) := by
  rw [matchBytes?]
  split_ifs with hstars
  · rcases hstars with rfl | rfl
    · have hall := (isMatch_iff "*" text).mpr (.inr (.inr ⟨"", text, "", by simp, rfl, by simp⟩))
      rw [hall]
    · rfl
  · obtain ⟨-, htwo⟩ := not_or.mp hstars
    by_cases hstar : '*' ∈ pattern.toList
    · obtain ⟨start, ending, hstart, rfl⟩ := exists_eq_of_mem hstar
      -- Both cuts are at boundaries, so the two slices are the parts themselves.
      have hfirst : slice? (start ++ "*" ++ ending) 0 start.utf8ByteSize = some start :=
        slice?_eq_some "" ("*" ++ ending)
          (by rw [String.empty_append, String.append_assoc]) rfl (Nat.zero_add _).symm
      have hsecond : slice? (start ++ "*" ++ ending) (start.utf8ByteSize + 1)
          (start ++ "*" ++ ending).utf8ByteSize = some ending :=
        slice?_eq_some (start ++ "*") "" String.append_empty.symm
          (utf8ByteSize_star start).symm String.utf8ByteSize_append
      rw [starOffset?_append hstart]
      simp only [hfirst, hsecond]
      refine congrArg some (Bool.eq_iff_iff.mpr ?_)
      rw [isMatch_star_iff hstart htwo, exists_middle_iff, Bool.and_eq_true, Bool.and_eq_true,
        decide_eq_true_iff, List.isPrefixOf_iff_prefix, List.isSuffixOf_iff_suffix, and_assoc]
    · rw [starOffset?_of_notMem hstar, isMatch_of_notMem hstar]
      refine congrArg some (Bool.eq_iff_iff.mpr ?_)
      rw [beq_iff_eq, beq_iff_eq, String.toList_inj]

/-! ## Skipped classes -/

/-- A pattern with at most one star matches the texts it fits, and a class is skipped if a pattern
of the allowlist matches its name. On bytes the test has the same answer: no pattern is cut inside a
character. -/
theorem patterns_match_exactly (allowlist : Allowlist) (pattern text : String) :
    (pattern.toList.count '*' ≤ 1 →
        (isMatch pattern.toList text.toList = true ↔ Fits pattern text)) ∧
      (allowlist.skips text = true ↔
        ∃ listed ∈ allowlist.patterns, isMatch listed.toList text.toList = true) ∧
      (∀ offset, starOffset? pattern = some offset →
        IsBoundary pattern offset ∧ IsBoundary pattern (offset + 1)) ∧
      matchBytes? pattern text = some (isMatch pattern.toList text.toList) := by
  refine ⟨fun hcount => ?_, List.any_eq_true, fun offset => isBoundary_of_starOffset?,
    matchBytes?_eq pattern text⟩
  have htwo : pattern ≠ "**" := by
    rintro rfl
    exact absurd hcount (by decide)
  rw [isMatch_iff, or_iff_right htwo]

/-- Both parts of the pattern are in the first text, but only one after the other in the second. -/
theorem patterns_match_exactly_accents :
    "é*é".toList.count '*' ≤ 1 ∧ ¬ Fits "é*é" "é" ∧ Fits "é*é" "éé" ∧
      (Allowlist.mk ["List", "é*é"]).skips "éé" = true ∧
      starOffset? "é*é" = some 2 ∧ IsBoundary "é*é" 2 ∧ IsBoundary "é*é" 3 ∧
      ¬ IsBoundary "é*é" 1 ∧ matchBytes? "é*é" "é" = some false := by
  have hcount : "é*é".toList.count '*' ≤ 1 := by decide
  have hshort := patterns_match_exactly ⟨["List", "é*é"]⟩ "é*é" "é"
  have hlong := patterns_match_exactly ⟨["List", "é*é"]⟩ "é*é" "éé"
  have hoffset : starOffset? "é*é" = some 2 := by decide +kernel
  refine ⟨hcount, ?_, ?_, ?_, hoffset, (hlong.2.2.1 2 hoffset).1, (hlong.2.2.1 2 hoffset).2, ?_, ?_⟩
  · rw [← hshort.1 hcount]
    decide
  · rw [← hlong.1 hcount]
    decide
  · exact hlong.2.1.mpr ⟨"é*é", by simp, by decide⟩
  · decide +kernel
  · rw [hshort.2.2.2]
    decide

end ModelSchema.Allowlist
