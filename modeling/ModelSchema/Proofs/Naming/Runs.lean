import ModelSchema.Proofs.Naming.Words

/-!
# Generated codes

A code generated from a display name has the runs of letters and numbers of the name in upper case,
with underscores between them.

* The runs are what is left of a text that is cut at all other characters (`runs`). They are the
  words of a scan that cuts nowhere else (`wordsBy_uncut`).
* Joined by underscores, runs are found again (`runs_intercalate`). So a code stays as it is when a
  code is generated from it, provided its letters stay as they are (`Settled`). Those of ASCII names
  do; others may not.
-/

namespace ModelSchema

/-! ## Letters that are in upper case already -/

namespace Text

def IsAscii (s : String) : Prop :=
  ∀ c ∈ s.toList, c.toNat < 128

instance (s : String) : Decidable (IsAscii s) :=
  List.decidableBAll (fun c : Char => c.toNat < 128) s.toList

/-- The upper case of a character has letters and numbers only, which are their own upper case. What
`generatedCode` makes of such characters it leaves alone the next time. -/
def Settled (c : Char) : Prop :=
  ∀ d ∈ uppercase c, isAlphanumeric d = true ∧ uppercase d = [d]

/-- For ASCII the tables play no part: `toUpper` gives a letter or digit, and is idempotent. -/
theorem settled_of_ascii {c : Char} (hascii : c.toNat < 128) (h : isAlphanumeric c = true) :
    Settled c := by
  rw [isAlphanumeric, if_pos hascii] at h
  have hupper : c.toUpper.isAlphanum = true := by
    rcases isUpper_or_isDigit_toUpper h with hupper | hdigit
    · simp [Char.isAlphanum, Char.isAlpha, hupper]
    · simp [Char.isAlphanum, hdigit]
  intro d hd
  rw [uppercase_of_isAlphanum h, List.mem_singleton] at hd
  rw [hd, uppercase_of_isAlphanum hupper, Char.toUpper_toUpper_eq_toUpper]
  exact ⟨isAlphanumeric_of_isAlphanum hupper, rfl⟩

end Text

namespace Naming

open Text

/-! ## Runs -/

/-- The longest runs of letters and numbers in a text, in order. Unlike `wordsBy`, this says it with
`List.splitOnP`, where a run ends for one reason only. -/
def runs (text : List Char) : List (List Char) :=
  (text.splitOnP fun c => !isAlphanumeric c).filter (· ≠ [])

section Runs

variable {c d : Char} {run rest text : List Char}

/-- `runs` and `wordsBy` have the same three equations; this is the first, and `runs_append` and
`runs_joined` are the others. -/
theorem runs_of_not_isAlphanumeric (h : isAlphanumeric c = false) :
    runs (c :: rest) = runs rest := by
  simp [runs, List.splitOnP_cons_eq_if_modifyHead, h]

theorem runs_self (hne : run ≠ []) (hrun : ∀ c ∈ run, isAlphanumeric c = true) :
    runs run = [run] := by
  rw [runs, List.splitOnP_eq_singleton (by simpa using hrun)]
  simp [hne]

/-- Another character ends a run. -/
theorem runs_append (hne : run ≠ []) (hrun : ∀ c ∈ run, isAlphanumeric c = true)
    (hc : isAlphanumeric c = false) : runs (run ++ c :: rest) = run :: runs rest := by
  rw [runs, List.splitOnP_append_cons_of_forall_mem (by simpa using hrun) c (by simp [hc]),
    List.filter_cons_of_pos (by simpa using hne)]
  rfl

/-- A letter or number joins the run of the next one. -/
theorem runs_joined (hc : isAlphanumeric c = true) (hd : isAlphanumeric d = true)
    (rest : List Char) :
    ∃ run others, runs (d :: rest) = (d :: run) :: others ∧
      runs (c :: d :: rest) = (c :: d :: run) :: others := by
  obtain ⟨run, others, hsplit⟩ := List.exists_cons_of_ne_nil
    (List.splitOnP_ne_nil (fun c => !isAlphanumeric c) rest)
  refine ⟨run, others.filter (· ≠ []), ?_, ?_⟩
  · simp [runs, List.splitOnP_cons_eq_if_modifyHead, hd, hsplit]
  · simp [runs, List.splitOnP_cons_eq_if_modifyHead, hc, hd, hsplit]

/-- A text that is cut inside no run has the runs as words. -/
theorem wordsBy_uncut (text : List Char) : wordsBy (fun _ _ _ => false) text = runs text := by
  -- The two cuts satisfy the same equations on the first one or two characters.
  induction text with
  | nil => rfl
  | cons c rest ih =>
      cases hc : isAlphanumeric c with
      | false => rw [wordsBy_of_not_isAlphanumeric hc, runs_of_not_isAlphanumeric hc, ih]
      | true =>
          have hself : ∀ d ∈ [c], isAlphanumeric d = true := by simpa using hc
          cases rest with
          | nil =>
              rw [wordsBy_apart hc (by simp), runs_self (List.cons_ne_nil _ _) hself]
              rfl
          | cons d rest =>
              cases hd : isAlphanumeric d with
              | false =>
                  rw [wordsBy_apart hc (by simp [hd]), ih, runs_of_not_isAlphanumeric hd]
                  exact (runs_append (List.cons_ne_nil _ _) hself hd).symm
              | true =>
                  obtain ⟨word, more, hwords, hjoined⟩ : ∃ word more,
                      wordsBy (fun _ _ _ => false) (d :: rest) = (d :: word) :: more ∧
                        wordsBy (fun _ _ _ => false) (c :: d :: rest) = (c :: d :: word) :: more :=
                    wordsBy_joined hc hd rfl
                  obtain ⟨run, others, hruns, hjoined'⟩ := runs_joined hc hd rest
                  rw [hwords, hruns] at ih
                  cases ih
                  rw [hjoined, hjoined']

/-- Runs have letters and numbers of the text only. -/
theorem of_mem_runs (h : run ∈ runs text) (hc : c ∈ run) : c ∈ text ∧ isAlphanumeric c = true := by
  rw [← wordsBy_uncut] at h
  rw [← List.mem_filter, ← flatten_wordsBy text]
  exact List.mem_flatten_of_mem h hc

/-- Runs that are joined by underscores are found again. -/
theorem runs_intercalate {parts : List (List Char)}
    (h : ∀ part ∈ parts, part ≠ [] ∧ ∀ c ∈ part, isAlphanumeric c = true) :
    runs (['_'].intercalate parts) = parts := by
  induction parts with
  | nil => rfl
  | cons part rest ih =>
      obtain ⟨⟨hne, hpart⟩, hrest⟩ := List.forall_mem_cons.mp h
      cases rest with
      | nil => rw [List.intercalate_singleton, runs_self hne hpart]
      | cons next rest =>
          rw [List.intercalate_cons_cons, List.append_assoc, List.singleton_append,
            runs_append hne hpart (by decide), ih hrest]

end Runs

/-! ## Codes -/

/-- `startsRun` begins a word after other characters only. -/
theorem startsBy_uncut : StartsBy (fun _ _ _ => false) startsRun :=
  fun _ _ _ => (Bool.or_false _).symm

/-- The specification of `generatedCode` on characters; `generatedCode_eq_intercalate` says it of
texts. -/
theorem toList_generatedCode (name : String) :
    (generatedCode name).toList = ['_'].intercalate ((runs name.toList).map capitals) := by
  rw [generatedCode, String.toList_ofList, joinWords_eq_intercalate startsBy_uncut, wordsBy_uncut]

theorem generatedCode_eq_intercalate (name : String) :
    generatedCode name =
      "_".intercalate ((runs name.toList).map fun run => String.ofList (capitals run)) := by
  apply String.toList_injective
  rw [toList_generatedCode, String.toList_intercalate, List.map_map]
  simp [Function.comp_def]

/-- Runs in upper case are not empty and have no underscore, so underscores stand between runs
only. -/
theorem capitals_spell_runs {name : String} {run : List Char} (h : run ∈ runs name.toList) :
    capitals run ≠ [] ∧ '_' ∉ capitals run := by
  rw [← wordsBy_uncut] at h
  exact capitals_spell (List.mem_map_of_mem h)

/-- Only a name without letters and numbers gives no code. -/
theorem generatedCode_eq_empty_iff {name : String} :
    generatedCode name = "" ↔ ∀ c ∈ name.toList, isAlphanumeric c = false := by
  have hletters := filter_joinWords startsBy_uncut name.toList
  have hfirst := (spaced_joinWords startsBy_uncut name.toList).first
  rw [generatedCode, String.ofList_eq_empty_iff]
  constructor
  · intro hnil c hc
    by_contra halnum
    rw [hnil, eq_comm, List.filter_nil, List.flatMap_eq_nil_iff] at hletters
    exact uppercase_ne_nil c (hletters c (List.mem_filter.mpr ⟨hc, by simpa using halnum⟩))
  · intro hnone
    have hnil : name.toList.filter isAlphanumeric = [] :=
      List.filter_eq_nil_iff.mpr fun c hc => by simp [hnone c hc]
    rw [hnil, List.flatMap_nil] at hletters
    -- What has underscores only would begin with one.
    cases hcode : joinWords startsRun none name.toList with
    | nil => rfl
    | cons c rest =>
        rw [hcode] at hletters hfirst
        have hc : c ≠ '_' := fun heq => hfirst (congrArg some heq)
        simp [hc] at hletters

/-- Letters that are in upper case already stay as they are. -/
theorem capitals_of_settled {part : List Char} (h : ∀ c ∈ part, uppercase c = [c]) :
    capitals part = part := by
  rw [capitals, List.flatMap_congr h, List.flatMap_singleton']

/-- A code stays as it is when a code is generated from it, if its letters do. The runs of a code
are its parts (`runs_intercalate`), and upper case leaves them as they are. -/
theorem generatedCode_of_settled {name : String}
    (h : ∀ c ∈ name.toList, isAlphanumeric c = true → Settled c) :
    generatedCode (generatedCode name) = generatedCode name := by
  have hparts : ∀ part ∈ (runs name.toList).map capitals, part ≠ [] ∧
      ∀ d ∈ part, isAlphanumeric d = true ∧ uppercase d = [d] := by
    intro part hpart
    obtain ⟨run, hrun, rfl⟩ := List.mem_map.mp hpart
    refine ⟨(capitals_spell_runs hrun).1, fun d hd => ?_⟩
    obtain ⟨c, hc, hupper⟩ := List.mem_flatMap.mp hd
    obtain ⟨hmem, halnum⟩ := of_mem_runs hrun hc
    exact h c hmem halnum d hupper
  apply String.toList_injective
  rw [toList_generatedCode, toList_generatedCode,
    runs_intercalate fun part hpart => ⟨(hparts part hpart).1, fun d hd =>
      ((hparts part hpart).2 d hd).1⟩]
  refine congrArg _ ((List.map_congr_left fun part hpart => ?_).trans (List.map_id _))
  exact capitals_of_settled fun d hd => ((hparts part hpart).2 d hd).2

/-- So `generatedCode` is idempotent on ASCII names, whatever their letters and other characters
are. -/
theorem generatedCode_of_isAscii {name : String} (h : IsAscii name) :
    generatedCode (generatedCode name) = generatedCode name :=
  generatedCode_of_settled fun c hc => settled_of_ascii (h c hc)

/-- The upper case of this letter has an accent of its own, which is no letter. -/
example : generatedCode "ǰ" = "J\u030c" ∧ generatedCode (generatedCode "ǰ") = "J" := by
  decide +kernel

end Naming

end ModelSchema
