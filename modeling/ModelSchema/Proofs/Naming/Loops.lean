import ModelSchema.Proofs.Naming.Words
import ModelSchema.Text.Blank

/-!
# Derived names, written one character after the other

`joinWords` decides about an underscore when the next word begins, and knows by then that one does.
Names can also be written by a loop that puts an underscore as soon as a word ends. Such a loop has
to look at the end of what it has written, so that no two underscores follow each other, and to trim
those that no word follows.

* `snakeStep` is one round of such a loop for `upperSnake`. It reads the neighbours of a character
  by their positions, and writes no underscore first.
* `codeStep` is one round of a simpler loop for `generatedCode`. It does write underscores first,
  and they are trimmed at both ends.
* What either loop has written is what the scan has written, with an underscore more if a word has
  ended and no other has begun (`eager`). Every round keeps that, so `upperSnake_eq_snakeLoop` and
  `generatedCode_eq_codeLoop` are inductions over what is left to read.
-/

namespace ModelSchema.Naming

open Text

/-! ## The loops -/

/-- One round of `snakeLoop`: `out` has been written, and `c` is at position `i` of `chars`. -/
def snakeStep (chars out : List Char) (c : Char) (i : Nat) : List Char :=
  if !isAlphanumeric c then
    if out.getLast? != some '_' && !out.isEmpty then out ++ ['_'] else out
  else
    -- A capital that follows what was just cut off needs no further underscore.
    let apart := isUppercase c && 0 < i && out.getLast? != some '_' &&
      chars[i - 1]?.any fun before => isLowercase before || before.isDigit ||
        (isUppercase before && chars[i + 1]?.any isLowercase)
    (if apart then out ++ ['_'] else out) ++ uppercase c

/-- `upperSnake` as a loop over positions. -/
def snakeLoop (name : String) : String :=
  let chars := name.toList
  String.ofList <| dropEndWhile (· == '_') <|
    chars.zipIdx.foldl (fun out entry => snakeStep chars out entry.1 entry.2) []

/-- One round of `codeLoop`. -/
def codeStep (out : List Char) (c : Char) : List Char :=
  if isAlphanumeric c then out ++ uppercase c
  else if out.getLast? != some '_' then out ++ ['_'] else out

/-- `generatedCode` as a loop over the characters of the trimmed name. -/
def codeLoop (name : String) : String :=
  String.ofList (dropBothWhile (· == '_') ((trim name).toList.foldl codeStep []))

/-! ## What a loop has written -/

/-- What has been written when the scan has written `done` and comes from `before`: an underscore
more, if `before` has ended a word. -/
def eager (before : Option Char) (done : List Char) : List Char :=
  done ++ if before.any (!isAlphanumeric ·) then ['_'] else []

/-- What the scan `joinWords` has written before it goes on from `before`. -/
structure Written (before : Option Char) (done : List Char) : Prop where
  nil_iff : done = [] ↔ before = none
  first : done.head? ≠ some '_'
  last : done.getLast? ≠ some '_'

section Written

variable {before : Option Char} {done : List Char} {c : Char}

/-- Where both loops start. -/
theorem written_nil : Written none [] :=
  ⟨by simp, by simp, by simp⟩

/-- Another character writes nothing, but the scan remembers it if a word has begun. -/
theorem Written.skip (h : Written before done) (c : Char) :
    Written (before.map fun _ => c) done := by
  refine ⟨?_, h.first, h.last⟩
  rw [h.nil_iff, Option.map_eq_none_iff]

/-- A letter or number is written, after an underscore if anything has been written before. -/
theorem Written.letter (h : Written before done) (hc : isAlphanumeric c = true)
    (starts : Char → Bool) :
    Written (some c) (done ++ (if before.any starts then ['_'] else []) ++ uppercase c) := by
  have hne := uppercase_ne_nil c
  have hupper := underscore_notMem_uppercase hc
  refine ⟨by simp [hne], ?_, ?_⟩
  · cases hbefore : before with
    | none =>
        rw [h.nil_iff.mpr hbefore]
        exact fun hfirst => hupper (List.mem_of_head? hfirst)
    | some b =>
        have hdone : done ≠ [] := fun hnil => by simp [h.nil_iff.mp hnil] at hbefore
        rw [List.append_assoc, List.head?_append_of_ne_nil _ hdone]
        exact h.first
  · rw [List.getLast?_append_of_ne_nil _ hne]
    exact fun hlast => hupper (List.mem_of_getLast? hlast)

/-- An underscore ends what a loop has written if and only if a word has ended. -/
theorem Written.getLast?_eager (h : Written before done) :
    (eager before done).getLast? = some '_' ↔ before.any (!isAlphanumeric ·) = true := by
  rw [eager]
  cases hends : before.any (!isAlphanumeric ·) with
  | true => simp
  | false => simpa using h.last

/-- Trimming takes back the underscore that no word has followed. -/
theorem Written.dropEndWhile_eager (h : Written before done) :
    dropEndWhile (· == '_') (eager before done) = done := by
  have hdone : dropEndWhile (· == '_') done = done := by
    refine List.rdropWhile_eq_self_iff.mpr fun hne => ?_
    have hlast := h.last
    rw [List.getLast?_eq_some_getLast hne] at hlast
    simpa using hlast
  rw [eager]
  split
  · exact (List.rdropWhile_concat_pos _ _ _ (by simp)).trans hdone
  · rw [List.append_nil, hdone]

/-- Underscores that come first are trimmed too. -/
theorem Written.dropBothWhile_eager (h : Written before done) {lead : List Char}
    (hlead : lead = [] ∨ lead = ['_']) :
    dropBothWhile (· == '_') (lead ++ eager before done) = done := by
  have hstart : (lead ++ eager before done).dropWhile (· == '_') = eager before done := by
    have hown : (eager before done).dropWhile (· == '_') = eager before done := by
      cases hdone : done with
      | nil =>
          rw [h.nil_iff.mp hdone]
          rfl
      | cons c rest =>
          have hc : c ≠ '_' := fun heq => h.first (by rw [hdone, heq]; rfl)
          rw [eager, List.cons_append, List.dropWhile_cons_of_neg (by simpa using hc)]
    rcases hlead with rfl | rfl
    · exact hown
    · exact hown
  rw [dropBothWhile, hstart, h.dropEndWhile_eager]

end Written

/-! ## The loop of `upperSnake` -/

/-- The stretches of code points that a run has, without what it passes over. A run with a step has
one of them for every member. -/
def stretches (run : Letter.Run) : List (Nat × Nat) :=
  if run.step = 1 then [(run.first, run.last)]
  else (List.range' run.first ((run.last - run.first) / run.step + 1) run.step).map fun code =>
    (code, code)

/-- Whether all stretches lie within one of a table, if both are in order. The table is walked
through once. -/
def liesWithin (table : List (Nat × Nat)) : List (Nat × Nat) → Bool
  | [] => true
  | stretch :: rest =>
      let left := table.dropWhile fun run => run.2 < stretch.1
      (left.head?.any fun run => run.1 ≤ stretch.1 && stretch.2 ≤ run.2) && liesWithin left rest

/-- `liesWithin` may stop too early if a table is out of order, but it never finds a stretch that is
not there. So no order has to be proved. -/
theorem exists_of_liesWithin {table stretches : List (Nat × Nat)}
    (h : liesWithin table stretches = true) {stretch : Nat × Nat} (hmem : stretch ∈ stretches) :
    ∃ run ∈ table, run.1 ≤ stretch.1 ∧ stretch.2 ≤ run.2 := by
  induction stretches generalizing table with
  | nil => cases hmem
  | cons own rest ih =>
      have hsuffix := List.dropWhile_suffix (fun run : Nat × Nat => run.2 < own.1) (l := table)
      rw [liesWithin, Bool.and_eq_true, Option.any_eq_true] at h
      obtain ⟨⟨run, hrun, hwithin⟩, hrest⟩ := h
      rcases List.mem_cons.mp hmem with rfl | hmem
      · exact ⟨run, hsuffix.mem (List.mem_of_head? hrun), by simpa using hwithin⟩
      · obtain ⟨run, hrun, hwithin⟩ := ih hrest hmem
        exact ⟨run, hsuffix.mem hrun, hwithin⟩

/-- The tables of cases lie within the table of letters and numbers. -/
theorem cases_within : liesWithin Letter.alphanumericRuns
      (Letter.lowercaseRuns.flatMap stretches) = true ∧
    liesWithin Letter.alphanumericRuns (Letter.uppercaseRuns.flatMap stretches) = true := by
  decide +kernel

/-- `Letter.Run.contains` and `stretches` agree. -/
theorem mem_stretches {run : Letter.Run} {code : Nat} (h : run.contains code = true) :
    ∃ stretch ∈ stretches run, stretch.1 ≤ code ∧ code ≤ stretch.2 := by
  simp only [Letter.Run.contains, Bool.and_eq_true, decide_eq_true_eq, beq_iff_eq] at h
  obtain ⟨⟨hfirst, hlast⟩, hstep⟩ := h
  rw [stretches]
  split
  · exact ⟨_, List.mem_singleton_self _, hfirst, hlast⟩
  · refine ⟨(code, code), List.mem_map_of_mem (List.mem_range'.mpr ?_), le_rfl, le_rfl⟩
    refine ⟨(code - run.first) / run.step, ?_, ?_⟩
    · exact Nat.lt_succ_of_le (Nat.div_le_div_right (by omega))
    · rw [Nat.mul_div_cancel' (Nat.dvd_of_mod_eq_zero hstep)]
      omega

/-- A member of a run in a table of cases is a letter, by the walk through the tables. -/
theorem isAlphanumeric_of_contains {c : Char} (hbeyond : ¬ c.toNat < 128)
    {runs : List Letter.Run} {run : Letter.Run}
    (hruns : liesWithin Letter.alphanumericRuns (runs.flatMap stretches) = true)
    (hrun : run ∈ runs) (hc : run.contains c.toNat = true) : isAlphanumeric c = true := by
  obtain ⟨stretch, hstretch, hfirst, hlast⟩ := mem_stretches hc
  obtain ⟨listed, hlisted, hfrom, hto⟩ :=
    exists_of_liesWithin hruns (List.mem_flatMap.mpr ⟨run, hrun, hstretch⟩)
  rw [isAlphanumeric, if_neg hbeyond, List.any_eq_true]
  exact ⟨listed, hlisted, by simp; omega⟩

/-- Only letters have a case. -/
theorem isAlphanumeric_of_case {c : Char}
    (h : isLowercase c = true ∨ c.isDigit = true ∨ isUppercase c = true) :
    isAlphanumeric c = true := by
  rw [isLowercase, isUppercase] at h
  by_cases hascii : c.toNat < 128
  · simp only [if_pos hascii] at h
    rw [isAlphanumeric, if_pos hascii, Char.isAlphanum, Char.isAlpha]
    rcases h with hlower | hdigit | hupper
    · simp [hlower]
    · simp [hdigit]
    · simp [hupper]
  · simp only [if_neg hascii, List.any_eq_true] at h
    rcases h with ⟨run, hrun, hc⟩ | hdigit | ⟨run, hrun, hc⟩
    · exact isAlphanumeric_of_contains hascii cases_within.1 hrun hc
    · exact isAlphanumeric_of_isAlphanum (by simp [Char.isAlphanum, hdigit])
    · exact isAlphanumeric_of_contains hascii cases_within.2 hrun hc

/-- So only after a letter or digit a word can be cut. -/
theorem isAlphanumeric_of_breaks {before c : Char} {after : Option Char}
    (h : breaks before c after = true) : isAlphanumeric before = true := by
  simp only [breaks, Bool.and_eq_true, Bool.or_eq_true] at h
  rcases h.2 with (hlower | hdigit) | ⟨hupper, -⟩
  · exact isAlphanumeric_of_case (.inl hlower)
  · exact isAlphanumeric_of_case (.inr (.inl hdigit))
  · exact isAlphanumeric_of_case (.inr (.inr hupper))

/-- Where a loop stands that has read `read`: `before` is the last character of it, or nothing as
long as no letter or number has been read. -/
def Stands (read : List Char) (before : Option Char) : Prop :=
  before = read.getLast? ∨
    before = none ∧ ∀ last ∈ read.getLast?, isAlphanumeric last = false

section Snake

variable {read done : List Char} {before : Option Char} {c : Char}

/-- Other characters move the loop on, and the scan only if it has begun. -/
theorem stands_skip (read : List Char) (before : Option Char) (hc : isAlphanumeric c = false) :
    Stands (read ++ [c]) (before.map fun _ => c) := by
  rw [Stands, List.getLast?_concat]
  cases before with
  | none => exact .inr ⟨rfl, by simpa using hc⟩
  | some b => exact .inl rfl

/-- Another character ends the word, if there is one. -/
theorem snakeStep_other (h : Written before done) (hc : isAlphanumeric c = false)
    (chars : List Char) (i : Nat) :
    snakeStep chars (eager before done) c i = eager (before.map fun _ => c) done := by
  rw [snakeStep, if_pos (by simp [hc])]
  cases before with
  | none =>
      rw [h.nil_iff.mpr rfl]
      rfl
  | some b =>
      have hne : done ≠ [] := by simp [h.nil_iff]
      have hends := h.getLast?_eager
      cases hb : isAlphanumeric b with
      | true =>
          rw [if_pos]
          · simp [eager, hb, hc]
          · simp_all [eager]
      | false =>
          rw [if_neg]
          · simp [eager, hb, hc]
          · simp_all

/-- The loop finds the neighbours of a character by its position. -/
theorem snakeStep_at (hc : isAlphanumeric c = true) (read rest out : List Char) :
    snakeStep (read ++ c :: rest) out c read.length =
      (if out.getLast? != some '_' && read.getLast?.any (breaks · c rest.head?) then out ++ ['_']
        else out) ++ uppercase c := by
  have hafter : (read ++ c :: rest)[read.length + 1]? = rest.head? := by
    rw [List.getElem?_append_right (by omega)]
    simp [List.head?_eq_getElem?]
  rw [snakeStep, if_neg (by simp [hc])]
  simp only [hafter]
  cases read using List.reverseRecOn with
  | nil => simp
  | append_singleton read before =>
      have hbefore : (read ++ [before] ++ c :: rest)[(read ++ [before]).length - 1]? =
          some before := by
        simp
      simp only [hbefore, List.getLast?_concat, Option.any_some, breaks]
      congr 3
      grind

/-- A letter or number is written as the scan writes it. -/
theorem snakeStep_letter (h : Written before done) (hread : Stands read before)
    (hc : isAlphanumeric c = true) (rest : List Char) :
    snakeStep (read ++ c :: rest) (eager before done) c read.length =
      eager (some c) (done ++ (if before.any (startsWord · c rest.head?) then ['_'] else [])
        ++ uppercase c) := by
  have hends := h.getLast?_eager
  have hright : eager (some c) (done ++ (if before.any (startsWord · c rest.head?) then ['_']
      else []) ++ uppercase c) =
        done ++ (if before.any (startsWord · c rest.head?) then ['_'] else []) ++ uppercase c := by
    simp [eager, hc]
  rw [snakeStep_at hc, hright]
  congr 1
  cases before with
  | none =>
      -- What comes before is no letter, so it has no case that could end a word.
      have hcase : read.getLast?.any (breaks · c rest.head?) = false := by
        rcases hread with hnil | ⟨-, hother⟩
        · rw [← hnil]
          rfl
        · rw [Option.any_eq_false]
          intro last hlast
          rw [Bool.eq_false_iff]
          intro hbreaks
          exact absurd (isAlphanumeric_of_breaks hbreaks) (by simp [hother last hlast])
      simp [hcase, eager]
  | some b =>
      have hlast : read.getLast? = some b := by
        rcases hread with hread | ⟨hnone, -⟩
        · exact hread.symm
        · cases hnone
      have hstarts : startsWord b c rest.head? = (!isAlphanumeric b || breaks b c rest.head?) := rfl
      rw [hlast, Option.any_some, Option.any_some, hstarts]
      -- In the middle of a word the loop cuts where the scan does. After the end of one, both write
      -- a single underscore, the loop earlier.
      cases hb : isAlphanumeric b with
      | true =>
          have hopen : (eager (some b) done).getLast? ≠ some '_' := by simp [hends, hb]
          rw [bne_iff_ne.mpr hopen]
          simp only [eager, Option.any_some, hb, Bool.not_true, Bool.true_and, Bool.false_or]
          split <;> simp
      | false =>
          have hclosed : (eager (some b) done).getLast? = some '_' := by simp [hends, hb]
          rw [hclosed]
          simp [eager, hb]

/-- From where the scan stands, the loop writes what the scan writes. -/
theorem foldl_snakeStep (h : Written before done) (hread : Stands read before)
    (rest : List Char) :
    dropEndWhile (· == '_') ((rest.zipIdx read.length).foldl
        (fun out entry => snakeStep (read ++ rest) out entry.1 entry.2) (eager before done)) =
      done ++ joinWords startsWord before rest := by
  -- On what is left to read. `Written` and `Stands` hold again after each round.
  induction rest generalizing read before done with
  | nil =>
      rw [joinWords, List.append_nil, List.zipIdx_nil, List.foldl_nil, List.append_nil]
      exact h.dropEndWhile_eager
  | cons c rest ih =>
      have hnext : read ++ c :: rest = (read ++ [c]) ++ rest := by simp
      have hlength : read.length + 1 = (read ++ [c]).length := by simp
      rw [List.zipIdx_cons, List.foldl_cons, joinWords]
      cases hc : isAlphanumeric c with
      | false =>
          rw [snakeStep_other h hc, hnext, hlength, ih (h.skip c) (stands_skip read before hc),
            if_neg Bool.false_ne_true]
      | true =>
          rw [snakeStep_letter h hread hc, hnext, hlength, ih (h.letter hc _)]
          · simp
          · exact .inl (List.getLast?_concat).symm

/-- The loop over positions writes what the scan `joinWords startsWord` writes. -/
theorem upperSnake_eq_snakeLoop (name : String) : upperSnake name = snakeLoop name := by
  have hstart : Stands [] none := .inl rfl
  rw [upperSnake, snakeLoop]
  exact congrArg String.ofList (foldl_snakeStep written_nil hstart name.toList).symm

end Snake

/-- The name of a table or column: the words of a name in upper case, with single underscores
between them. No letter or number is lost, and no underscore comes first, last or twice. The loop
over positions gives it too. -/
theorem upperSnake_joins_words (name : String) :
    upperSnake name = snakeLoop name ∧
      upperSnake name =
        "_".intercalate ((words name).map fun word => String.ofList (capitals word)) ∧
      (upperSnake name).toList.filter (· ≠ '_') =
        (name.toList.filter isAlphanumeric).flatMap uppercase ∧
      (upperSnake name).toList.head? ≠ some '_' ∧
      (upperSnake name).toList.getLast? ≠ some '_' ∧
      ¬ ['_', '_'] <:+: (upperSnake name).toList := by
  have hspaced := spaced_joinWords startsBy_breaks name.toList
  refine ⟨upperSnake_eq_snakeLoop name, ?_, ?_, ?_, ?_, ?_⟩
  · apply String.toList_injective
    rw [toList_upperSnake, joinWords_eq_intercalate startsBy_breaks, String.toList_intercalate,
      List.map_map]
    simp [words, Function.comp_def]
  · rw [toList_upperSnake, filter_joinWords startsBy_breaks]
  · rw [toList_upperSnake]
    exact hspaced.first
  · rw [toList_upperSnake]
    exact hspaced.last
  · rw [toList_upperSnake]
    intro htwo
    have hchain := hspaced.single.infix htwo
    simp at hchain

example : snakeLoop " HTTPStatus - line2Code_" = "HTTP_STATUS_LINE2_CODE" := by decide +kernel

/-! ## The loop of `generatedCode` -/

/-- The code points of white space. -/
def blankCodes : List Nat :=
  List.range' 0x9 5 ++ [0x20, 0x85, 0xa0, 0x1680] ++ List.range' 0x2000 11
    ++ [0x2028, 0x2029, 0x202f, 0x205f, 0x3000]

theorem isAlphanumeric_blankCodes :
    ∀ code ∈ blankCodes, isAlphanumeric (Char.ofNat code) = false := by
  decide +kernel

/-- No letter or number is white space. -/
theorem isAlphanumeric_of_isBlank {c : Char} (h : isBlank c = true) : isAlphanumeric c = false := by
  rw [← Char.ofNat_toNat c]
  apply isAlphanumeric_blankCodes
  simp only [isBlank, Bool.or_eq_true, Bool.and_eq_true, decide_eq_true_eq, beq_iff_eq] at h
  simp only [blankCodes, List.mem_append, List.mem_range'_1, List.mem_cons, List.not_mem_nil]
  omega

section Code

variable {lead done : List Char} {before : Option Char} {c : Char}

/-- Another character ends the word. If there is none yet, the loop has written an underscore first
(`lead`), which the scan does not write. -/
theorem codeStep_other (hlead : lead = [] ∨ lead = ['_']) (h : Written before done)
    (hc : isAlphanumeric c = false) :
    ∃ lead', (lead' = [] ∨ lead' = ['_']) ∧
      codeStep (lead ++ eager before done) c = lead' ++ eager (before.map fun _ => c) done := by
  rw [codeStep, if_neg (by simp [hc])]
  cases before with
  | none =>
      rw [h.nil_iff.mpr rfl]
      refine ⟨['_'], .inr rfl, ?_⟩
      rcases hlead with rfl | rfl <;> rfl
  | some b =>
      have hne : eager (some b) done ≠ [] := by simp [eager, h.nil_iff]
      have hends := h.getLast?_eager
      refine ⟨lead, hlead, ?_⟩
      rw [List.getLast?_append_of_ne_nil _ hne]
      cases hb : isAlphanumeric b with
      | true =>
          rw [if_pos (by simp [hends, hb])]
          simp [eager, hb, hc]
      | false =>
          rw [if_neg (by simp [hends, hb])]
          simp [eager, hb, hc]

/-- A letter or number is appended. If it begins a word, the underscore is there already, in
`eager`. -/
theorem codeStep_letter (hc : isAlphanumeric c = true) (lead done : List Char)
    (before : Option Char) :
    codeStep (lead ++ eager before done) c =
      lead ++ eager (some c) (done ++ (if before.any (startsRun · c none) then ['_'] else [])
        ++ uppercase c) := by
  rw [codeStep, if_pos hc]
  simp [eager, startsRun, hc]
  rfl

/-- From where the scan stands, the loop writes what the scan writes, after the underscore that it
may have begun with. -/
theorem foldl_codeStep (hlead : lead = [] ∨ lead = ['_']) (h : Written before done)
    (rest : List Char) :
    dropBothWhile (· == '_') (rest.foldl codeStep (lead ++ eager before done)) =
      done ++ joinWords startsRun before rest := by
  induction rest generalizing lead before done with
  | nil =>
      rw [joinWords, List.append_nil, List.foldl_nil]
      exact h.dropBothWhile_eager hlead
  | cons c rest ih =>
      rw [List.foldl_cons, joinWords]
      cases hc : isAlphanumeric c with
      | false =>
          obtain ⟨lead', hlead', hstep⟩ := codeStep_other hlead h hc
          rw [hstep, ih hlead' (h.skip c), if_neg Bool.false_ne_true]
      | true =>
          rw [codeStep_letter hc, ih hlead (h.letter hc _)]
          simp [startsRun]
          rfl

/-- What has no letter or number has no word. -/
theorem joinWords_others {text : List Char} (h : ∀ c ∈ text, isAlphanumeric c = false)
    (starts : Char → Char → Option Char → Bool) (before : Option Char) :
    joinWords starts before text = [] := by
  induction text generalizing before with
  | nil => rfl
  | cons c text ih =>
      obtain ⟨hc, htext⟩ := List.forall_mem_cons.mp h
      rw [joinWords, if_neg (by simp [hc]), ih htext]

/-- Other characters at the start of a name give nothing. -/
theorem joinWords_dropWhile {p : Char → Bool} (h : ∀ c, p c = true → isAlphanumeric c = false)
    (starts : Char → Char → Option Char → Bool) (text : List Char) :
    joinWords starts none (text.dropWhile p) = joinWords starts none text := by
  induction text with
  | nil => rfl
  | cons c text ih =>
      cases hc : p c with
      | false => rw [List.dropWhile_cons_of_neg (by simp [hc])]
      | true =>
          rw [List.dropWhile_cons_of_pos hc, ih, joinWords, if_neg (by simp [h c hc])]
          rfl

/-- Other characters at the end give nothing either. Of `startsRun` only: `startsWord` looks at the
character that follows. -/
theorem joinWords_append_others {others : List Char} (h : ∀ c ∈ others, isAlphanumeric c = false)
    (text : List Char) (before : Option Char) :
    joinWords startsRun before (text ++ others) = joinWords startsRun before text := by
  induction text generalizing before with
  | nil => exact joinWords_others h startsRun before
  | cons c text ih =>
      rw [List.cons_append, joinWords, joinWords, ih, ih]
      rfl

/-- Blanks at the ends of a name change nothing. -/
theorem joinWords_trim (name : String) :
    joinWords startsRun none (trim name).toList = joinWords startsRun none name.toList := by
  rw [trim, String.toList_ofList, dropBothWhile,
    ← joinWords_dropWhile (fun c => isAlphanumeric_of_isBlank) startsRun name.toList]
  generalize name.toList.dropWhile isBlank = text
  have hsplit : dropEndWhile isBlank text ++ text.rtakeWhile isBlank = text :=
    List.rdropWhile_append_rtakeWhile
  calc joinWords startsRun none (dropEndWhile isBlank text)
    _ = joinWords startsRun none (dropEndWhile isBlank text ++ text.rtakeWhile isBlank) := by
        rw [joinWords_append_others fun c hc =>
          isAlphanumeric_of_isBlank (List.mem_rtakeWhile_imp hc)]
    _ = joinWords startsRun none text := by rw [hsplit]

/-- The loop over the trimmed name writes what the scan `joinWords startsRun` writes of the whole
name. -/
theorem generatedCode_eq_codeLoop (name : String) : generatedCode name = codeLoop name := by
  have hloop := foldl_codeStep (.inl rfl) written_nil (trim name).toList
  rw [joinWords_trim] at hloop
  exact congrArg String.ofList hloop.symm

end Code

example : codeLoop " _Order - Line_ " = "ORDER_LINE" := by decide +kernel

end ModelSchema.Naming
