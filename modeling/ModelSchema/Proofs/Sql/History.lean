import Mathlib
import ModelSchema.Sql.Schema

/-!
# Histories keep rows as they were

The history of a table is filled by two triggers. They list the columns of the history and give
values for them, and the values are found by position only: the columns come from the history, the
values from the table. Both lists line up (`copies_historyInsertion`): each column that is copied is
given the value of the column of that name, and the last two tell when and why.
-/

namespace ModelSchema

/-- `Text.join` is the library function; its lemmas apply then. -/
theorem Text.join_eq_intercalate (separator : String) (parts : List String) :
    Text.join separator parts = separator.intercalate parts := by
  fun_induction Text.join separator parts with
  | case1 => rw [String.intercalate_nil]
  | case2 part => rw [String.intercalate_singleton]
  | case3 part rest hrest ih =>
      rw [ih, String.intercalate_cons_of_ne_nil]
      rintro rfl
      exact hrest rfl

namespace Sql

/-! ## Tables -/

/-- A column that holds former values: it has name and type of a column, and may be empty. -/
structure CopyOf (column copy : Column) : Prop where
  name : copy.name = column.name
  type : copy.type = column.type
  isRequired : copy.isRequired = false
  isIdentity : copy.isIdentity = false
  default : copy.default = none

/-- A table that has copies of the columns of another one, in order, and two further columns which
are never empty. -/
def Keeps (history table : Table) : Prop :=
  ∃ copies date creation, history.columns = copies ++ [date, creation] ∧
    List.Forall₂ CopyOf table.columns copies ∧
    date.isRequired = true ∧ creation.isRequired = true

/-- `Table.history` copies every column and adds two. -/
theorem keeps_history (engine : Engine) (table : Table) : Keeps (table.history engine) table := by
  refine ⟨_, _, _, rfl, ?_, rfl, rfl⟩
  rw [List.forall₂_map_right_iff, List.forall₂_same]
  intro column _
  exact ⟨rfl, rfl, rfl, rfl, rfl⟩

/-! ## Triggers -/

structure Insertion where
  table : String
  columns : List String
  values : List String

/-- A column of the row that makes a trigger fire. -/
def newColumn : Engine → String → String
  | .sqlServer, name => "[" ++ name ++ "]"
  | .oracle, name => ":new." ++ name

/-- The statement that creates a trigger on a table, around the lists of columns and values. All
words of SQL are here, so what is left to compare are the two lists. -/
def triggerAround (engine : Engine) (name table : String) (event : Event)
    (target columns values : String) : String :=
  match engine with
  | .sqlServer =>
    "create trigger " ++ engine.quote name ++ " on " ++ engine.quote table ++ " after "
      ++ event.word ++ " as\nbegin\n\tset nocount on;\n\tinsert into " ++ engine.quote target
      ++ " (" ++ columns ++ ")\n\tselect " ++ values ++ " from inserted;\nend"
  | .oracle =>
    "create or replace trigger " ++ engine.quote name ++ " after " ++ event.word ++ " on "
      ++ engine.quote table ++ " for each row\nbegin\n\tinsert into " ++ engine.quote target
      ++ " (" ++ columns ++ ")\n\tvalues (" ++ values ++ ");\nend;"

/-- The statement that creates a trigger on a table, by what the trigger inserts. -/
def Insertion.trigger (engine : Engine) (name table : String) (event : Event)
    (insertion : Insertion) : String :=
  triggerAround engine name table event insertion.table
    (", ".intercalate (insertion.columns.map engine.quote)) (", ".intercalate insertion.values)

/-- The columns of the history are listed in order, and the values stand where their columns do:
the new row first, then the time, then whether the row is new. -/
structure Copies (engine : Engine) (table history : Table) (isCreation : String)
    (insertion : Insertion) : Prop where
  target : insertion.table = history.name
  columns : insertion.columns = history.columns.map (·.name)
  size : insertion.values.length = insertion.columns.length
  row : ∀ k < table.columns.length, insertion.values[k]? =
    insertion.columns[k]?.map (newColumn engine)
  date : insertion.values[table.columns.length]? = some engine.now
  creation : insertion.values[table.columns.length + 1]? = some isCreation

section Triggers

variable (engine : Engine) (table : Table) (event : Event)

def historyInsertion : Insertion where
  table := (table.history engine).name
  columns := (table.history engine).columns.map (·.name)
  values := table.columns.map (fun column => newColumn engine column.name)
    ++ [engine.now, event.isCreation]

/-- Position by position: the values are the columns of the table, followed by two more. -/
theorem copies_historyInsertion :
    Copies engine table (table.history engine) event.isCreation
      (historyInsertion engine table event) where
  target := rfl
  columns := rfl
  size := by simp [historyInsertion, Table.history]
  row k hk := by simp [historyInsertion, Table.history, List.getElem?_append_left, hk]
  date := by simp [historyInsertion]
  creation := by simp [historyInsertion]

/-- The values are one list, as long as there are columns: the time has a separator before it.
Without columns the list would begin with that separator. -/
theorem historyValues_eq (h : table.columns ≠ []) :
    Statement.historyValues engine table event =
      ", ".intercalate (historyInsertion engine table event).values := by
  have hvalues : table.columns.map (fun column => newColumn engine column.name) ≠ [] := by simpa
  have hlast : ", ".intercalate [engine.now, event.isCreation] =
      engine.now ++ ", " ++ event.isCreation := by
    rw [String.intercalate_cons_cons, String.intercalate_singleton]
  rw [historyInsertion, String.intercalate_append_of_ne_nil hvalues (List.cons_ne_nil _ _), hlast,
    Statement.historyValues, Text.join_eq_intercalate]
  cases engine <;> simp only [newColumn, Engine.quote, String.append_assoc]

/-- The text of a trigger, with its two lists taken out. -/
theorem triggerText_eq_around (history : Table) :
    Statement.triggerText engine table history event =
      triggerAround engine (Table.triggerName table.name event.short) table.name event history.name
        (Statement.names engine (history.columns.map (·.name)))
        (Statement.historyValues engine table event) := by
  cases engine <;> rfl

theorem triggerText_eq (h : table.columns ≠ []) :
    Statement.triggerText engine table (table.history engine) event =
      (historyInsertion engine table event).trigger engine
        (Table.triggerName table.name event.short) table.name event := by
  rw [triggerText_eq_around, historyValues_eq engine table event h, Statement.names,
    Text.join_eq_intercalate, Insertion.trigger, historyInsertion]

end Triggers

/-- The history of a table keeps its columns, and both triggers give every column of the history
the value that belongs there: the columns of the new row by name, the time, and whether the row is
new. -/
theorem history_triggers_line_up (engine : Engine) (table : Table) (h : table.columns ≠ []) :
    Keeps (table.history engine) table ∧
      ∃ onInsert onUpdate,
        Copies engine table (table.history engine) "1" onInsert ∧
        Copies engine table (table.history engine) "0" onUpdate ∧
        (Schema.historyStatements engine table).map (Statement.text engine) =
          [Statement.tableText engine (table.history engine),
            onInsert.trigger engine (Table.triggerName table.name "INS") table.name .insert,
            onUpdate.trigger engine (Table.triggerName table.name "UPD") table.name .update] := by
  refine ⟨keeps_history engine table, historyInsertion engine table .insert,
    historyInsertion engine table .update, copies_historyInsertion engine table .insert,
    copies_historyInsertion engine table .update, ?_⟩
  have hinsert := triggerText_eq engine table .insert h
  have hupdate := triggerText_eq engine table .update h
  show [Statement.tableText engine (table.history engine),
    Statement.triggerText engine table (table.history engine) .insert,
    Statement.triggerText engine table (table.history engine) .update] = _
  rw [hinsert, hupdate]
  rfl

/-- A table with a numbered key and a time of creation. -/
def auditedProduct : Table where
  name := "PRODUCT"
  className := "Product"
  trigram := some "PRD"
  columns := [⟨"PRD_ID", "int", true, true, none⟩,
    ⟨"PRD_CREATED_AT", "datetime2", true, false, some "getdate()"⟩]
  primaryKey := ["PRD_ID"]
  uniqueColumns := []
  compositeUnique := []
  foreignKeys := []
  indexedColumns := []
  hasGeneratedKey := true
  storage := none

theorem history_triggers_line_up_auditedProduct :
    auditedProduct.columns ≠ [] ∧ Keeps (auditedProduct.history .sqlServer) auditedProduct ∧
      ∃ onInsert onUpdate,
        Copies .sqlServer auditedProduct (auditedProduct.history .sqlServer) "1" onInsert ∧
        Copies .sqlServer auditedProduct (auditedProduct.history .sqlServer) "0" onUpdate ∧
        (Schema.historyStatements .sqlServer auditedProduct).map (Statement.text .sqlServer) =
          [Statement.tableText .sqlServer (auditedProduct.history .sqlServer),
            onInsert.trigger .sqlServer "TRG_PRODUCT_INS" "PRODUCT" .insert,
            onUpdate.trigger .sqlServer "TRG_PRODUCT_UPD" "PRODUCT" .update] :=
  ⟨by decide, history_triggers_line_up .sqlServer auditedProduct (by decide)⟩

example : Statement.text .oracle
      (.createTrigger auditedProduct (auditedProduct.history .oracle) .update) =
    "create or replace trigger TRG_PRODUCT_UPD after update on PRODUCT for each row\nbegin\n\t"
      ++ "insert into PRODUCT_HISTO "
      ++ "(PRD_ID, PRD_CREATED_AT, PRD_HISTO_DATE, PRD_HISTO_IS_CREATION)\n\t"
      ++ "values (:new.PRD_ID, :new.PRD_CREATED_AT, sysdate, 0);\nend;" := by decide +kernel

end Sql

end ModelSchema
