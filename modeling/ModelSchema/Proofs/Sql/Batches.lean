import ModelSchema.Proofs.Sql.Lines
import ModelSchema.Sql.Script

/-!
# Batches of a script

Whoever runs a script cuts its text at the lines that are separators (`Script.batches`). Every
statement is written with a separator after it, so the script comes apart into its statements
(`Script.Separates`) if no text in it has a separator for a line. Since each further separator makes
a further batch, it comes apart in no other case (`Script.separates_iff`).
-/

namespace ModelSchema.Sql

variable (engine : Engine)

def Entry.content : Entry → String
  | .comment text => "-- " ++ text
  | .statement s => s.text engine

/-- The lines of a part. -/
def Entry.lines (entry : Entry) : List (List Char) :=
  Text.lines (entry.content engine) ++
    match entry with
    | .comment _ => []
    | .statement _ => [engine.separator.toList, []]

namespace Script

/-- What the text of a script holds before each line that is a separator, from the one before. This
is how clients of both engines read a script. -/
def batches (script : Script) : List String :=
  ((Text.lines (script.body engine)).splitOn engine.separator.toList).dropLast.map fun lines =>
    String.ofList (['\n'].intercalate lines)

/-- A script comes apart into its statements: there is a batch for each, and it ends with the text
of the statement. -/
def Separates (script : Script) : Prop :=
  List.Forall₂ (fun batch statement => Text.endsWith (statement.text engine) batch = true)
    (script.batches engine) script.statements

variable {engine}

/-! ## The lines of a script -/

theorem lines_separator : Text.lines engine.separator = [engine.separator.toList] := by
  cases engine <;> exact Text.lines_of_not_mem (by decide)

/-- A part of a script and what follows have lines of their own. -/
theorem lines_text (entry : Entry) (rest : String) :
    Text.lines (entry.text engine ++ rest) = entry.lines engine ++ Text.lines rest := by
  cases entry with
  | comment text =>
      have htext : (Entry.comment text).text engine ++ rest = "-- " ++ text ++ "\n" ++ rest := by
        simp only [Entry.text, Entry.pieces, commentPieces, String.join_cons, String.join_nil,
          String.append_assoc, String.empty_append]
      rw [htext, Text.lines_append_break]
      simp [Entry.lines, Entry.content]
  | statement s =>
      -- The separator stands on a line of its own, and the line after it is empty.
      have htext : (Entry.statement s).text engine ++ rest =
          s.text engine ++ "\n" ++ (engine.separator ++ "\n" ++ ("" ++ "\n" ++ rest)) := by
        simp only [Entry.text, Entry.pieces, batchPieces, String.join_cons, String.join_nil,
          String.append_assoc, String.empty_append]
      have hempty : Text.lines "" = [[]] := Text.lines_of_not_mem (by simp)
      rw [htext, Text.lines_append_break, Text.lines_append_break, Text.lines_append_break,
        lines_separator, hempty]
      simp [Entry.lines, Entry.content]

/-- After the last part there is an empty line. -/
theorem lines_body (script : Script) :
    Text.lines (script.body engine) = script.flatMap (Entry.lines engine) ++ [[]] := by
  induction script with
  | nil => exact Text.lines_of_not_mem (by simp [body])
  | cons entry script ih =>
      rw [List.flatMap_cons, List.append_assoc, ← ih, ← lines_text, body, List.map_cons,
        String.join_cons]
      rfl

/-! ## Cutting

If the texts of a script are `Clear`, the separators are where they were put. -/

/-- Lines put together again end with the last of them. -/
theorem suffix_intercalate (before : List (List Char)) {lines : List (List Char)}
    (h : lines ≠ []) : ['\n'].intercalate lines <:+ ['\n'].intercalate (before ++ lines) := by
  induction before with
  | nil => exact List.suffix_refl _
  | cons line before ih =>
      have hrest : before ++ lines ≠ [] := List.append_ne_nil_of_right_ne_nil before h
      rw [List.cons_append, List.intercalate_cons_of_ne_nil hrest]
      exact ih.trans (List.suffix_append _ _)

/-- What stands before a statement does not keep the batch from ending with it. -/
theorem endsWith_batch (before : List (List Char)) (s : String) :
    Text.endsWith s (String.ofList (['\n'].intercalate (before ++ Text.lines s))) = true := by
  rw [Text.endsWith, String.toList_ofList, List.isSuffixOf_iff_suffix]
  have hlines : ['\n'].intercalate (Text.lines s) = s.toList := List.intercalate_splitOn '\n'
  exact hlines ▸ suffix_intercalate before (Text.lines_ne_nil s)

/-- Cutting at separators gives the statements, as long as no text has one for a line. `before` are
the lines since the last separator: comments and the empty line that follows it. -/
theorem forall₂_cut {script : Script} (h : ∀ entry ∈ script, Clear engine (entry.content engine))
    (before : List (List Char)) (hbefore : engine.separator.toList ∉ before) :
    List.Forall₂ (fun lines statement =>
        Text.endsWith (statement.text engine) (String.ofList (['\n'].intercalate lines)) = true)
      ((before ++ script.flatMap (Entry.lines engine) ++ [[]]).splitOn
        engine.separator.toList).dropLast
      script.statements := by
  have hend : engine.separator.toList ≠ [] := by cases engine <;> decide
  induction script generalizing before with
  | nil =>
      rw [List.flatMap_nil, List.append_nil, List.splitOn_eq_singleton (by simp [hbefore, hend])]
      exact .nil
  | cons entry script ih =>
      have hclear := h entry List.mem_cons_self
      have hread : engine.separator.toList ∉ before ++ Text.lines (entry.content engine) :=
        List.mem_append.not.mpr (not_or.mpr ⟨hbefore, hclear⟩)
      have hrest := ih fun other hother => h other (List.mem_cons_of_mem _ hother)
      cases entry with
      | comment text =>
          have hlines : before ++ (Entry.comment text :: script).flatMap (Entry.lines engine) =
              before ++ Text.lines ((Entry.comment text).content engine) ++
                script.flatMap (Entry.lines engine) := by
            simp [Entry.lines]
          rw [hlines]
          exact hrest _ hread
      | statement s =>
          -- The cut is made right after the statement; the empty line begins the next batch.
          have hlines :
              before ++ (Entry.statement s :: script).flatMap (Entry.lines engine) ++ [[]] =
                before ++ Text.lines ((Entry.statement s).content engine) ++
                  engine.separator.toList ::
                    ([[]] ++ script.flatMap (Entry.lines engine) ++ [[]]) := by
            simp [Entry.lines]
          rw [hlines, List.splitOn_append_cons_self_of_not_mem hread,
            List.dropLast_cons_of_ne_nil (List.splitOn_ne_nil _ _)]
          exact .cons (endsWith_batch before _) (hrest [[]] (by simpa using hend))

/-! ## Counting

The converse, by counting: a further separator makes a further batch, whatever is in it. -/

/-- Each separator makes one part more. -/
theorem length_splitOn {α : Type} [BEq α] (a : α) (as : List α) :
    (as.splitOn a).length = as.count a + 1 := by
  induction as with
  | nil => rfl
  | cons b as ih =>
      rw [List.splitOn_cons_eq_if_modifyHead, List.count_cons, ← Nat.add_right_comm, ← ih]
      split <;> simp

theorem length_batches (script : Script) :
    (script.batches engine).length =
      (Text.lines (script.body engine)).count engine.separator.toList := by
  rw [batches, List.length_map, List.length_dropLast, length_splitOn, Nat.add_sub_cancel]

/-- Each statement brings a separator; the others are lines of texts. So there are too many batches
if a text has one. -/
theorem count_lines (script : Script) :
    (Text.lines (script.body engine)).count engine.separator.toList =
      script.statements.length + (script.flatMap fun entry =>
        Text.lines (entry.content engine)).count engine.separator.toList := by
  have hend : [] ≠ engine.separator.toList := by cases engine <;> decide
  rw [lines_body, List.count_append, List.count_singleton, if_neg (by simpa using hend),
    Nat.add_zero]
  induction script with
  | nil => rfl
  | cons entry script ih =>
      rw [List.flatMap_cons, List.flatMap_cons, List.count_append, List.count_append, ih]
      cases entry with
      | comment text =>
          simp only [Entry.lines, List.append_nil, statements, List.filterMap_cons,
            Entry.statement?]
          omega
      | statement s =>
          simp only [Entry.lines, List.count_append, List.count_cons, List.count_nil, hend,
            beq_self_eq_true, beq_iff_eq, if_true, if_false, statements, List.filterMap_cons,
            Entry.statement?, List.length_cons]
          omega

/-- A script comes apart into its statements exactly if no line of a text in it is the separator. -/
theorem separates_iff {script : Script} :
    script.Separates engine ↔ ∀ entry ∈ script, Clear engine (entry.content engine) := by
  constructor
  · -- A separator among the lines of a text makes one batch too many.
    intro h entry hentry hmem
    have hlength := h.length_eq
    rw [length_batches, count_lines] at hlength
    have hnone : (script.flatMap fun entry => Text.lines (entry.content engine)).count
        engine.separator.toList = 0 := by omega
    exact List.count_eq_zero.mp hnone (List.mem_flatMap.mpr ⟨entry, hentry, hmem⟩)
  · intro h
    rw [Separates, batches, List.forall₂_map_left_iff, lines_body]
    exact forall₂_cut h [] List.not_mem_nil

end Script

end ModelSchema.Sql
