import Mathlib
import ModelSchema.Sql.Statement

/-!
# Phrases of statements

What a statement does can be read off its text, without knowing how the text was put together:

* every statement begins with words of its own kind (`Statement.leads_text`), and a text that begins
  with other words cannot be mistaken for it (`Text.between?_eq_none`);
* what stands between two given phrases is one thing only (`Text.between?_eq_some_iff`), so the name
  in a phrase such as `create sequence SEQ_T start with 1000 cache 20` can be told.
-/

namespace ModelSchema

namespace Text

/-! ## What stands between two phrases -/

/-- What stands between the given start and ending of a text, if it has both and they do not
overlap. -/
def between? (start ending text : String) : Option String := do
  let rest ← text.toList.dropPrefix? start.toList
  let middle ← rest.dropSuffix? ending.toList
  return String.ofList middle

section

variable {start ending text : String}

/-- `between?` finds the only text that makes up `text` together with `start` and `ending`. -/
theorem between?_eq_some_iff {middle : String} :
    between? start ending text = some middle ↔ text = start ++ middle ++ ending := by
  simp only [between?, Option.bind_eq_bind, Option.bind_eq_some_iff, Option.pure_def,
    Option.some.injEq, List.dropPrefix?_eq_some_iff, List.dropSuffix?_eq_some_iff, beq_iff_eq]
  constructor
  · rintro ⟨_, ⟨_, htext, rfl⟩, chars, ⟨_, rfl, rfl⟩, rfl⟩
    apply String.toList_injective
    simp [htext]
  · rintro rfl
    exact ⟨middle.toList ++ ending.toList, ⟨_, by simp, rfl⟩, middle.toList, ⟨_, rfl, rfl⟩,
      String.ofList_toList⟩

end

/-- Whether neither of two phrases begins with the other, so that no text begins with both. -/
def differ (phrase other : String) : Bool :=
  !phrase.toList.isPrefixOf other.toList && !other.toList.isPrefixOf phrase.toList

/-- Of two beginnings of one text, one is a beginning of the other. -/
theorem not_begins_of_differ {phrase other rest more : String} (h : differ phrase other = true) :
    phrase ++ rest ≠ other ++ more := by
  intro heq
  have htext := congrArg String.toList heq
  rw [String.toList_append, String.toList_append] at htext
  simp only [differ, Bool.and_eq_true, Bool.not_eq_true', ← Bool.not_eq_true,
    List.isPrefixOf_iff_prefix] at h
  have hother : other.toList <+: phrase.toList ++ rest.toList := ⟨_, htext.symm⟩
  rcases List.prefix_or_prefix_of_prefix (List.prefix_append _ _) hother with hbegin | hbegin
  · exact h.1 hbegin
  · exact h.2 hbegin

/-- Two texts with the same start and ending are told apart by what stands between. -/
theorem eq_of_between {start ending middle other : String}
    (h : start ++ middle ++ ending = start ++ other ++ ending) : middle = other :=
  Option.some.inj ((between?_eq_some_iff.mpr rfl).symm.trans (between?_eq_some_iff.mpr h))

def differAtEnd (phrase other : String) : Bool :=
  !phrase.toList.isSuffixOf other.toList && !other.toList.isSuffixOf phrase.toList

theorem not_ends_of_differAtEnd {phrase other front more : String}
    (h : differAtEnd phrase other = true) : front ++ phrase ≠ more ++ other := by
  intro heq
  have htext := congrArg String.toList heq
  rw [String.toList_append, String.toList_append] at htext
  simp only [differAtEnd, Bool.and_eq_true, Bool.not_eq_true', ← Bool.not_eq_true,
    List.isSuffixOf_iff_suffix] at h
  have hother : other.toList <:+ front.toList ++ phrase.toList := ⟨_, htext.symm⟩
  rcases List.suffix_or_suffix_of_suffix (List.suffix_append _ _) hother with hend | hend
  · exact h.1 hend
  · exact h.2 hend

/-- Where a text begins with another phrase than `start`, nothing stands between the two that
`between?` looks for. -/
theorem between?_eq_none {start ending lead rest : String} (h : differ lead start = true) :
    between? start ending (lead ++ rest) = none := by
  rw [Option.eq_none_iff_forall_ne_some]
  intro middle hmiddle
  rw [between?_eq_some_iff, String.append_assoc] at hmiddle
  exact not_begins_of_differ h hmiddle

/-! ## What texts begin with -/

def Leads (lead text : String) : Prop :=
  ∃ rest, text = lead ++ rest

/-- Pieces that follow do not change what a text begins with. -/
theorem leads_followed (lead : String) (pieces : List String) :
    Leads lead (pieces.foldl (· ++ ·) lead) := by
  suffices h : ∀ text, Leads lead text → Leads lead (pieces.foldl (· ++ ·) text) from
    h lead ⟨"", String.append_empty.symm⟩
  intro text htext
  induction pieces generalizing text with
  | nil => exact htext
  | cons piece rest ih =>
      obtain ⟨after, rfl⟩ := htext
      exact ih _ ⟨after ++ piece, String.append_assoc⟩

end Text

namespace Sql.Statement

open Text

/-- The words that a statement begins with. An engine that has no such statement writes nothing. -/
def lead (engine : Engine) : Statement → String
  | createTable _ => "create table "
  | createSequence _ =>
    match engine with
    | .sqlServer => ""
    | .oracle => "create sequence "
  | createTrigger .. =>
    match engine with
    | .sqlServer => "create trigger "
    | .oracle => "create or replace trigger "
  | addUnique .. => "alter table "
  | createTableType .. => "create type "
  | createObjectType .. => "create or replace type "
  | createCollectionType .. => "create or replace type "
  | createIndex .. => "create index "
  | addForeignKey .. => "alter table "
  | identityInsert .. =>
    match engine with
    | .sqlServer => "set identity_insert "
    | .oracle => ""
  | insertRow .. => "insert into "
  | insertTranslation _ => "insert into "

/-- The text of a statement begins with its lead. The numbers of pieces are those in `text`. -/
theorem leads_text (engine : Engine) (statement : Statement) :
    Leads (statement.lead engine) (statement.text engine) := by
  cases statement with
  | createTable table => exact leads_followed _ [_, _, _, _, _]
  | createSequence table =>
      cases engine with
      | sqlServer => exact ⟨"", rfl⟩
      | oracle => exact leads_followed _ [_, _]
  | createTrigger table history event =>
      cases engine with
      | sqlServer => exact leads_followed _ [_, _, _, _, _, _, _, _, _, _, _, _]
      | oracle => exact leads_followed _ [_, _, _, _, _, _, _, _, _, _, _, _]
  | addUnique table name columns => exact leads_followed _ [_, _, _, _, _, _]
  | createTableType name columns => exact leads_followed _ [_, _, _, _]
  | createObjectType name columns => exact leads_followed _ [_, _, _, _]
  | createCollectionType name element => exact leads_followed _ [_, _, _]
  | createIndex table name column storage => exact leads_followed _ [_, _, _, _, _, _, _]
  | addForeignKey table key => exact leads_followed _ [_, _, _, _, _, _, _, _, _, _]
  | identityInsert table on =>
      cases engine with
      | sqlServer => exact leads_followed _ [_, _, _]
      | oracle => exact ⟨"", rfl⟩
  | insertRow table cells => exact leads_followed _ [_, _, _, _, _, _]
  | insertTranslation t =>
      exact leads_followed _ [_, _, _, _, _, _, _, _, _, _, _, _, _, _, _]

end Sql.Statement

end ModelSchema
