import ModelSchema.Proofs.Sql.ForeignKeys
import ModelSchema.Proofs.Sql.Phrases

/-!
# Sessions

An engine that numbers rows takes a key from a row only while that is switched on, and for one table
at a time. The *session* of a statement is the table for which it is switched on, if there is one.

* `Follows` says which statements can follow in a session. The rest of them follow in the session
  that the first one leaves (`Follows.step`), or several (`Follows.run`). All that is said about a
  script from the outside comes from there (`Follows.bracketed`).
* The statements that fill a list follow in the empty session and leave it empty
  (`follows_rowStatements`), so lists can be filled one after the other.
* A row is inserted in the session of its table exactly if its item brings a key
  (`insertions_rowStatements`), and a row lists a numbered key exactly then
  (`keyInSession_of_bringsKey`).
* Sessions are those of the written text: a text reads as a switch exactly if the statement is one
  (`text_eq_switchText_iff`).
-/

namespace ModelSchema.Sql.Seeding

open ModelSchema.Graph (Property)
open Reading (read)
open Seed (Item)

/-! ## Statements in a session -/

/-- The session that a statement leaves. Folded over a script this is the semantics of the switches;
everything else leaves the session alone. -/
def sessionAfter (session : Option String) : Statement → Option String
  | .identityInsert table true => some table
  | .identityInsert _ false => none
  | _ => session

/-- Statements that follow in a session and end in the empty one. -/
inductive Follows : Option String → List Statement → Prop
  | done : Follows none []
  | row {table : String} {cells : List (String × Cell)} {rest : List Statement}
      (h : Follows none rest) : Follows none (.insertRow table cells :: rest)
  /-- While a table is switched on, only its own rows are inserted. -/
  | keyedRow {table : String} {cells : List (String × Cell)} {rest : List Statement}
      (h : Follows (some table) rest) : Follows (some table) (.insertRow table cells :: rest)
  /-- A table is switched on for a row. -/
  | on {table : String} {cells : List (String × Cell)} {rest : List Statement}
      (h : Follows (some table) (.insertRow table cells :: rest)) :
      Follows none (.identityInsert table true :: .insertRow table cells :: rest)
  | off {table : String} {rest : List Statement} (h : Follows none rest) :
      Follows (some table) (.identityInsert table false :: rest)

namespace Follows

variable {session : Option String} {statements : List Statement}

/-- The constructors of `Follows` agree with `sessionAfter`. -/
theorem step {statement : Statement} {rest : List Statement}
    (h : Follows session (statement :: rest)) : Follows (sessionAfter session statement) rest := by
  cases h with
  | row hrest => exact hrest
  | keyedRow hrest => exact hrest
  | on hrest => exact hrest
  | off hrest => exact hrest

/-- `step` for several statements. -/
theorem run {before after : List Statement} (h : Follows session (before ++ after)) :
    Follows (before.foldl sessionAfter session) after := by
  induction before generalizing session with
  | nil => exact h
  | cons statement rest ih =>
      rw [List.foldl_cons]
      apply ih
      exact h.step

/-- Scripts end in the empty session, as `done` is the only way to end. -/
theorem session_eq_none (h : Follows session statements) :
    statements.foldl sessionAfter session = none := by
  rw [← List.append_nil statements] at h
  cases hlast : statements.foldl sessionAfter session with
  | none => rfl
  | some table =>
      have hend := h.run
      rw [hlast] at hend
      cases hend

/-- A table that is switched on will be switched off, and until then there are rows of that table
only. -/
theorem exists_off {table : String} (h : Follows (some table) statements) :
    ∃ rows rest, statements = rows ++ .identityInsert table false :: rest ∧
      ∀ row ∈ rows, ∃ cells, row = .insertRow table cells := by
  induction statements with
  | nil => cases h
  | cons statement rest ih =>
      cases h with
      | off hrest => exact ⟨[], rest, rfl, fun row hrow => absurd hrow List.not_mem_nil⟩
      | @keyedRow _ cells _ hrest =>
          obtain ⟨rows, later, heq, hrows⟩ := ih hrest
          refine ⟨.insertRow table cells :: rows, later, by rw [heq, List.cons_append], ?_⟩
          intro row hrow
          rcases List.mem_cons.mp hrow with rfl | hrow
          · exact ⟨cells, rfl⟩
          · exact hrows row hrow

/-- Only the empty session can be followed by a switch that turns on. -/
theorem session_of_on {table : String}
    (h : Follows session (.identityInsert table true :: statements)) :
    session = none := by
  cases h
  rfl

theorem session_of_off {table : String}
    (h : Follows session (.identityInsert table false :: statements)) : session = some table := by
  cases h
  rfl

/-- A switch that turns on is followed by a row at once. -/
theorem exists_rows {table : String}
    (h : Follows session (.identityInsert table true :: statements)) :
    ∃ rows rest, statements = rows ++ .identityInsert table false :: rest ∧ rows ≠ [] ∧
      ∀ row ∈ rows, ∃ cells, row = .insertRow table cells := by
  obtain ⟨rows, rest, heq, hrows⟩ := h.step.exists_off
  refine ⟨rows, rest, heq, ?_, hrows⟩
  -- The row that a table is switched on for comes before it is switched off.
  rintro rfl
  rw [heq] at h
  cases h

end Follows

/-- Tables are switched on and off in turn, each around some of its rows. -/
structure Bracketed (statements : List Statement) : Prop where
  /-- Nothing is switched on when a table is. -/
  on : ∀ before table after, statements = before ++ .identityInsert table true :: after →
    before.foldl sessionAfter none = none
  /-- What is switched off has been on. -/
  off : ∀ before table after, statements = before ++ .identityInsert table false :: after →
    before.foldl sessionAfter none = some table
  /-- Nothing is switched on in the end. -/
  final : statements.foldl sessionAfter none = none
  /-- Between on and off there are rows, all of that table. -/
  encloses : ∀ before table after, statements = before ++ .identityInsert table true :: after →
    ∃ rows rest, after = rows ++ .identityInsert table false :: rest ∧ rows ≠ [] ∧
      ∀ row ∈ rows, ∃ cells, row = .insertRow table cells

/-- The four properties of a script as a whole, by `Follows.run` at the place of the switch. -/
theorem Follows.bracketed {statements : List Statement} (h : Follows none statements) :
    Bracketed statements where
  on before table after heq := by
    rw [heq] at h
    exact h.run.session_of_on
  off before table after heq := by
    rw [heq] at h
    exact h.run.session_of_off
  final := h.session_eq_none
  encloses before table after heq := by
    rw [heq] at h
    exact h.run.exists_rows

/-! ## Texts of switches

Sessions are defined by statements. An engine sees their texts, and `text_eq_switchText_iff` is what
allows to speak of the one instead of the other. -/

/-- The text that lets the rows of a table bring their key, or ends that. -/
def switchText (table : String) : Bool → String
  | true => "set identity_insert " ++ ("[" ++ table ++ "]") ++ " on"
  | false => "set identity_insert " ++ ("[" ++ table ++ "]") ++ " off"

/-- The quotes of the engine are brackets. -/
theorem text_identityInsert (table : String) (on : Bool) :
    (Statement.identityInsert table on).text .sqlServer = switchText table on := by
  have hjoined (front last : String) : front ++ " " ++ last = front ++ (" " ++ last) :=
    String.append_assoc
  cases on with
  | true => exact hjoined _ "on"
  | false => exact hjoined _ "off"

/-- The text of a switch tells the table, and whether it is switched on or off. -/
theorem switchText_inj {table other : String} {on off : Bool}
    (h : switchText table on = switchText other off) : table = other ∧ on = off := by
  cases on <;> cases off
  · exact ⟨Text.eq_of_between (Text.eq_of_between h), rfl⟩
  · exact absurd h (Text.not_ends_of_differAtEnd (by decide))
  · exact absurd h (Text.not_ends_of_differAtEnd (by decide))
  · exact ⟨Text.eq_of_between (Text.eq_of_between h), rfl⟩

/-- Among all statements, only the switch of a table has the text of that switch. No other statement
begins like one (`Statement.leads_text`). -/
theorem text_eq_switchText_iff (statement : Statement) (table : String) (on : Bool) :
    statement.text .sqlServer = switchText table on ↔ statement = .identityInsert table on := by
  constructor
  · intro h
    obtain ⟨rest, htext⟩ := Statement.leads_text .sqlServer statement
    obtain ⟨more, hswitch⟩ : Text.Leads "set identity_insert " (switchText table on) := by
      rw [← text_identityInsert]
      exact Statement.leads_text .sqlServer (.identityInsert table on)
    cases statement with
    | identityInsert other off =>
        rw [text_identityInsert] at h
        obtain ⟨rfl, rfl⟩ := switchText_inj h
        rfl
    | createSequence other =>
        -- The text is empty, since there is no such statement for the engine.
        have hempty : switchText table on = "" := h.symm
        rw [hswitch] at hempty
        exact absurd (congrArg String.toList hempty) (by simp)
    | _ =>
        rw [htext, hswitch] at h
        dsimp only [Statement.lead] at h
        exact absurd h (Text.not_begins_of_differ (by decide))
  · rintro rfl
    exact text_identityInsert table on

/-- An engine with sequences is never told to switch anything. -/
theorem not_leads_oracle (statement : Statement) :
    ¬ Text.Leads "set identity_insert " (statement.text .oracle) := by
  rintro ⟨more, hswitch⟩
  obtain ⟨rest, htext⟩ := Statement.leads_text .oracle statement
  cases statement with
  | identityInsert table on =>
      have hempty : "set identity_insert " ++ more = "" := hswitch.symm
      exact absurd (congrArg String.toList hempty) (by simp)
  | _ =>
      rw [htext] at hswitch
      dsimp only [Statement.lead] at hswitch
      exact absurd hswitch (Text.not_begins_of_differ (by decide))

/-! ## One list

A list is filled from the empty session. Its rows are grouped by whether they bring their key, in
the order of the items. -/

variable {engine : Engine} {settings : Settings} {graph : Graph}

def sessionOf (table : Table) (on : Bool) : Option String :=
  if on then some table.name else none

/-- Where rows are numbered, `switchStatements` has a statement for the switch. -/
theorem switchStatements_of_usesIdentity {table : Table} (h : table.usesIdentity engine = true)
    (on : Bool) : switchStatements engine table.name on = [.identityInsert table.name on] := by
  rw [switchStatements, Engine.isSome_identityInsert?, (Bool.and_eq_true_iff.mp h).2, if_pos rfl]

/-- The statements that fill a list leave the session as they find it, so what follows in the empty
session can come after them. Only a table with numbered rows is ever switched on. -/
theorem follows_rowStatements (c : Graph.Class) (table : Table) (on : Bool)
    (hon : on = true → table.usesIdentity engine = true) (items : List Item)
    {later : List Statement} (h : Follows none later) :
    Follows (sessionOf table on) (rowStatements engine c table on items ++ later) := by
  -- On the items, for either state of the switch.
  induction items generalizing on with
  | nil =>
      rw [rowStatements]
      cases on with
      | false => exact h
      | true =>
          rw [if_pos rfl, switchStatements_of_usesIdentity (hon rfl)]
          exact .off h
  | cons item rest ih =>
      rw [rowStatements]
      split
      · exact ih on hon
      · -- A switch stands before the row if the item before was of the other kind.
        have hnext : (table.usesIdentity engine && bringsKey c item) = true →
            table.usesIdentity engine = true := fun hboth => (Bool.and_eq_true_iff.mp hboth).1
        have hrest := ih _ hnext
        dsimp only
        generalize (table.usesIdentity engine && bringsKey c item) = next at hnext hrest ⊢
        cases on <;> cases next
        · exact .row hrest
        · rw [switchStatements_of_usesIdentity (hnext rfl)]
          exact .on (.keyedRow hrest)
        · rw [switchStatements_of_usesIdentity (hon rfl)]
          exact .off (.row hrest)
        · exact .keyedRow hrest

/-- List after list, by induction from the last one. -/
theorem follows_flatMap (found : List (Graph.Class × Table)) :
    Follows none
      (found.flatMap fun entry => rowStatements engine entry.1 entry.2 false entry.1.items) := by
  induction found with
  | nil => exact .done
  | cons entry rest ih =>
      rw [List.flatMap_cons]
      exact follows_rowStatements entry.1 entry.2 false (fun h => absurd h Bool.false_ne_true)
        entry.1.items ih

/-! ## Rows with their sessions -/

/-- Statements, each with the session in which it is run. `Follows` looks at a script from the
inside; this lists what happens. -/
def trace : Option String → List Statement → List (Option String × Statement)
  | _, [] => []
  | session, statement :: rest =>
    (session, statement) :: trace (sessionAfter session statement) rest

/-- The second part is run in the session that the first one leaves. -/
theorem trace_append (session : Option String) (before after : List Statement) :
    trace session (before ++ after) =
      trace session before ++ trace (before.foldl sessionAfter session) after := by
  induction before generalizing session with
  | nil => rfl
  | cons statement rest ih =>
      rw [List.cons_append, trace, trace, ih, List.cons_append, List.foldl_cons]

def insertions (session : Option String) (statements : List Statement) :
    List (Option String × Statement) :=
  (trace session statements).filter fun entry => isRow entry.2

theorem insertions_append (session : Option String) (before after : List Statement) :
    insertions session (before ++ after) =
      insertions session before ++ insertions (before.foldl sessionAfter session) after := by
  unfold insertions
  rw [trace_append, List.filter_append]

/-- A row is inserted in the session of its table exactly if its item brings a key for a numbered
column. The switches come from comparing an item with the one before it, so the proof is for either
state of the switch. -/
theorem insertions_rowStatements (c : Graph.Class) (table : Table) (on : Bool)
    (hon : on = true → table.usesIdentity engine = true) (items : List Item) :
    insertions (sessionOf table on) (rowStatements engine c table on items) =
      items.filterMap fun item => (rowOf? engine c table item).map fun row =>
        (sessionOf table (table.usesIdentity engine && bringsKey c item), row) := by
  induction items generalizing on with
  | nil =>
      rw [rowStatements]
      cases on with
      | false => rfl
      | true =>
          rw [if_pos rfl, switchStatements_of_usesIdentity (hon rfl)]
          rfl
  | cons item rest ih =>
      cases hcells : cells engine c table item with
      | nil =>
          have hrow : rowOf? engine c table item = none := by rw [rowOf?, hcells]
          rw [rowStatements, hcells, List.filterMap_cons_none (by rw [hrow]; rfl)]
          exact ih on hon
      | cons cell others =>
          have hrow : rowOf? engine c table item =
              some (.insertRow table.name (cell :: others)) := by rw [rowOf?, hcells]
          have hnext : (table.usesIdentity engine && bringsKey c item) = true →
              table.usesIdentity engine = true := fun hboth => (Bool.and_eq_true_iff.mp hboth).1
          rw [rowStatements, hcells, List.filterMap_cons_some (by rw [hrow]; rfl), ← ih _ hnext]
          dsimp only
          generalize (table.usesIdentity engine && bringsKey c item) = next at hnext
          -- The item may be of the kind of the one before it, or not.
          cases on <;> cases next
          · rfl
          · rw [switchStatements_of_usesIdentity (hnext rfl)]
            rfl
          · rw [switchStatements_of_usesIdentity (hon rfl)]
            rfl
          · rfl

/-- Each list is left as it was entered, so the rows of one do not depend on the others. -/
theorem insertions_flatMap (found : List (Graph.Class × Table)) :
    insertions none
        (found.flatMap fun entry => rowStatements engine entry.1 entry.2 false entry.1.items) =
      found.flatMap fun entry => entry.1.items.filterMap fun item =>
        (rowOf? engine entry.1 entry.2 item).map fun row =>
          (sessionOf entry.2 (entry.2.usesIdentity engine && bringsKey entry.1 item), row) := by
  induction found with
  | nil => rfl
  | cons entry rest ih =>
      have hleft : (rowStatements engine entry.1 entry.2 false entry.1.items).foldl sessionAfter
          none = none := by
        have h : Follows none (rowStatements engine entry.1 entry.2 false entry.1.items ++ []) :=
          follows_rowStatements entry.1 entry.2 false (fun h => absurd h Bool.false_ne_true)
            entry.1.items .done
        rw [List.append_nil] at h
        exact h.session_eq_none
      rw [List.flatMap_cons, List.flatMap_cons, insertions_append, hleft, ih]
      congr 1
      exact insertions_rowStatements entry.1 entry.2 false
        (fun h => absurd h Bool.false_ne_true) entry.1.items

/-! ## Rows and items

Rows of a script and the items that they come from, side by side. -/

variable (engine settings graph) in
/-- The items of a list that have a row. -/
def listItems (id : ClassId) : List (ClassId × Item) :=
  match Schema.table engine settings graph id with
  | .ok table =>
    ((graph.classAt id).items.filter fun item =>
      (rowOf? engine (graph.classAt id) table item).isSome).map fun item => (id, item)
  | .error _ => []

variable (engine settings graph) in
/-- A statement is the row of an item in the table of its list. -/
structure RowFor (row : Statement) (origin : ClassId × Item) (table : Table) : Prop where
  derived : Schema.table engine settings graph origin.1 = .ok table
  inserted : row = .insertRow table.name (cells engine (graph.classAt origin.1) table origin.2)

/-- What is kept by `filterMap`, side by side with what it comes from. -/
theorem forall₂_filterMap {α β : Type} {f : α → Option β} {R : β → α → Prop} {as : List α}
    (h : ∀ a ∈ as, ∀ b, f a = some b → R b a) :
    List.Forall₂ R (as.filterMap f) (as.filter fun a => (f a).isSome) := by
  induction as with
  | nil => exact .nil
  | cons a rest ih =>
      have hrest := ih fun other hother => h other (List.mem_cons_of_mem _ hother)
      cases ha : f a with
      | none =>
          rw [List.filterMap_cons_none ha, List.filter_cons_of_neg (by simp [ha])]
          exact hrest
      | some b =>
          rw [List.filterMap_cons_some ha, List.filter_cons_of_pos (by simp [ha])]
          exact .cons (h a List.mem_cons_self b ha) hrest

/-- What holds of the row of every item holds of rows and items side by side. -/
theorem forall₂_listItems {α : Type} {f : Graph.Class → Table → Item → Statement → α}
    {R : α → ClassId × Item → Prop} {ids : List ClassId} {found : List (Graph.Class × Table)}
    (hfound : List.Forall₂ (fun id entry => entry.1 = graph.classAt id ∧
      Schema.table engine settings graph id = .ok entry.2) ids found)
    (h : ∀ id ∈ ids, ∀ item ∈ (graph.classAt id).items, ∀ table row,
      RowFor engine settings graph row (id, item) table →
        R (f (graph.classAt id) table item row) (id, item)) :
    List.Forall₂ R
      (found.flatMap fun entry => entry.1.items.filterMap fun item =>
        (rowOf? engine entry.1 entry.2 item).map (f entry.1 entry.2 item))
      (ids.flatMap (listItems engine settings graph)) := by
  induction hfound with
  | nil => exact .nil
  | @cons id entry rest others hentry _ ih =>
      obtain ⟨c, table⟩ := entry
      obtain ⟨rfl, htable⟩ := hentry
      have hitems : listItems engine settings graph id =
          ((graph.classAt id).items.filter fun item =>
            ((rowOf? engine (graph.classAt id) table item).map
              (f (graph.classAt id) table item)).isSome).map fun item => (id, item) := by
        rw [listItems, htable]
        simp only [Option.isSome_map]
      rw [List.flatMap_cons, List.flatMap_cons, hitems]
      refine List.rel_append ?_ (ih fun other hother => h other (List.mem_cons_of_mem _ hother))
      rw [List.forall₂_map_right_iff]
      apply forall₂_filterMap
      intro item hitem value hvalue
      obtain ⟨row, hrow, rfl⟩ := Option.map_eq_some_iff.mp hvalue
      refine h id List.mem_cons_self item hitem table row ⟨htable, ?_⟩
      rw [rowOf?] at hrow
      split at hrow <;> cases hrow
      rfl

/-- The row of an item lists the columns with a value, and keys taken from a sequence. -/
theorem mem_map_cells {c : Graph.Class} {table : Table} {item : Item} {name : String} :
    name ∈ (cells engine c table item).map (·.1) ↔
      ∃ property, (property, name) ∈ Table.columnProperties c ∧
        (item.values.contains property.name = true ∨
          property.isPrimaryKey = true ∧ table.usesSequence engine = true) := by
  simp only [cells, Bool.and_assoc, Table.usesSequence_and_isSome_nextValue?, List.mem_map,
    List.mem_filterMap, Prod.exists]
  constructor
  · rintro ⟨_, cell, ⟨property, column, hproperty, hcell⟩, rfl⟩
    split at hcell
    · next value hvalue =>
      cases hcell
      exact ⟨property, hproperty, .inl (by simp [Catalog.contains, hvalue])⟩
    · split at hcell
      · next hkey =>
        cases hcell
        exact ⟨property, hproperty, .inr (by simpa using hkey)⟩
      · cases hcell
  · rintro ⟨property, hproperty, hlisted⟩
    cases hvalue : item.values.get? property.name with
    | some value => exact ⟨name, .literal value, ⟨property, name, hproperty, by simp [hvalue]⟩, rfl⟩
    | none =>
        have hkey : property.isPrimaryKey = true ∧ table.usesSequence engine = true := by
          simpa [Catalog.contains, hvalue] using hlisted
        exact ⟨name, .nextKey, ⟨property, name, hproperty, by simp [hvalue, hkey]⟩, rfl⟩

/-! ## Keys in a session -/

/-- If rows of a table are numbered, its class has one key, and a row lists the column of that
exactly if the table is switched on. Other tables are not switched on. -/
structure KeyInSession (c : Graph.Class) (table : Table) (cells : List (String × Cell))
    (session : Option String) : Prop where
  numbered : table.usesIdentity .sqlServer = true →
    ∃ key, c.primaryKeys = [key] ∧ ∃ column ∈ table.columns, key.column = some column.name ∧
      column.isIdentity = true ∧ (column.name ∈ cells.map (·.1) ↔ session = some table.name)
  unnumbered : table.usesIdentity .sqlServer = false → session = none

/-- `generatesKey` asks for one key column. Where all keys are columns, there is then one key. -/
theorem exists_onlyKey {c : Graph.Class}
    (hkeys : ∀ key ∈ c.primaryKeys, key.isColumn = true) (h : Table.generatesKey graph c = true) :
    ∃ key, c.primaryKeys = [key] := by
  have hcolumns : c.primaryKeys.filter (·.isColumn) = c.primaryKeys := List.filter_eq_self.mpr hkeys
  rw [Table.generatesKey, hcolumns] at h
  split at h
  · next key hkey => exact ⟨key, hkey⟩
  · cases h

/-- `primaryKey?` is the first of the keys. -/
theorem primaryKey?_of_primaryKeys {c : Graph.Class} {key : Property} {others : List Property}
    (h : c.primaryKeys = key :: others) : c.primaryKey? = some key := by
  rw [Graph.Class.primaryKey?, ← List.head?_filter]
  exact congrArg List.head? h

/-- If all keys are columns and no two columns have one name, it is enough that a table is switched
on for the items that bring their key. -/
theorem keyInSession_of_bringsKey {id : ClassId} {table : Table} {item : Item}
    (htable : Schema.table .sqlServer settings graph id = .ok table)
    (hkeys : ∀ key ∈ (graph.classAt id).primaryKeys,
      key.isColumn = true ∧ ∃ name, key.column = some name)
    (hcolumns : ((Table.columnProperties (graph.classAt id)).map (·.2)).Nodup) :
    KeyInSession (graph.classAt id) table (cells .sqlServer (graph.classAt id) table item)
      (sessionOf table (table.usesIdentity .sqlServer && bringsKey (graph.classAt id) item)) := by
  refine ⟨fun hidentity => ?_, fun hno => by rw [hno]; rfl⟩
  have hgenerates : Table.generatesKey graph (graph.classAt id) = true := by
    rw [← Table.hasGeneratedKey_ofClass htable]
    exact (Bool.and_eq_true_iff.mp hidentity).1
  -- The only key is the one that items may bring, and its column is numbered.
  obtain ⟨key, hkey⟩ := exists_onlyKey (fun key hmem => (hkeys key hmem).1) hgenerates
  have hmem : key ∈ (graph.classAt id).primaryKeys := by
    rw [hkey]
    exact List.mem_singleton_self key
  obtain ⟨hisColumn, name, hname⟩ := hkeys key hmem
  obtain ⟨hproperty, hprimary⟩ := List.mem_filter.mp hmem
  have hentry : (key, name) ∈ Table.columnProperties (graph.classAt id) :=
    Table.mem_columnProperties.mpr ⟨hproperty, hisColumn, hname⟩
  obtain ⟨column, hcolumn, hderived⟩ := Table.exists_column htable hentry
  obtain ⟨rfl, -⟩ := Table.columnOf_eq_ok hderived
  refine ⟨key, hkey, column, hcolumn, hname, ?_, ?_⟩
  · rw [(Table.columnOf_marks hderived).1, hgenerates, hprimary]
    rfl
  · have hsequence : table.usesSequence .sqlServer = false := by
      simp [Table.usesSequence, Engine.keyGeneration]
    rw [mem_map_cells, hidentity, Bool.true_and, bringsKey, primaryKey?_of_primaryKeys hkey,
      sessionOf]
    constructor
    · rintro ⟨other, hother, hvalue | hnext⟩
      · have hsame := List.inj_on_of_nodup_map hcolumns hother hentry rfl
        rw [Prod.mk.injEq] at hsame
        rw [hsame.1] at hvalue
        exact if_pos hvalue
      · rw [hsequence] at hnext
        cases hnext.2
    · intro hon
      refine ⟨key, hentry, .inl ?_⟩
      by_contra hno
      rw [if_neg (by simpa using hno)] at hon
      cases hon

/-! ## Scripts -/

/-- Scripts fill the lists in order, up to the first without a table. -/
theorem exists_filled (engine : Engine) (settings : Settings) (graph : Graph) :
    ∃ (ids : List ClassId) (found : List (Graph.Class × Table)), ids.Subperm (lists graph) ∧
      List.Forall₂ (fun id entry => entry.1 = graph.classAt id ∧
        Schema.table engine settings graph id = .ok entry.2) ids found ∧
      (generate engine settings graph).rounds =
        (found.map fun entry => listRound engine settings entry.1 entry.2) ∧
      ((generate engine settings graph).error = none → ids.Perm (lists graph)) := by
  rw [generate]
  cases horder : order graph (lists graph) with
  | error error => exact ⟨[], [], List.nil_subperm, .nil, rfl, fun h => by cases h⟩
  | ok ordered =>
      have hperm := (order_eq_ok horder).1
      obtain ⟨ids, hids, hfound⟩ :=
        Schema.exists_forall₂_tables graph (Schema.table engine settings graph) ordered
      refine ⟨ids, _, hids.sublist.subperm.trans hperm.subperm, hfound, rfl, fun hcomplete => ?_⟩
      have hlength := (Schema.forall₂_tables hcomplete).length_eq
      rw [← hfound.length_eq] at hlength
      rwa [hids.eq_of_length hlength.symm]

/-- Without a numbered key nothing is switched, and only rows are left. -/
theorem rowStatements_eq {c : Graph.Class} {table : Table}
    (h : table.usesIdentity engine = false) (items : List Item) :
    rowStatements engine c table false items = items.filterMap (rowOf? engine c table) := by
  induction items with
  | nil => rfl
  | cons item rest ih =>
      rw [rowStatements, List.filterMap_cons, rowOf?, ← ih]
      cases cells engine c table item with
      | nil => rfl
      | cons cell others => simp only [h, Bool.false_and, bne_self_eq_false]; rfl

/-- A statement of the scripts is in a script of one of the lists. -/
theorem exists_round {rounds : List Scripts} {script : Script}
    (h : script ∈ (Scripts.ofRounds rounds).toList) {statement : Statement}
    (hstatement : statement ∈ script.statements) :
    ∃ round ∈ rounds, ∃ part ∈ round.toList, statement ∈ part.statements := by
  have hpart (part : Scripts → Script) (hparts : ∀ round : Scripts, part round ∈ round.toList)
      (hscript : script = rounds.flatMap part) :
      ∃ round ∈ rounds, ∃ part ∈ round.toList, statement ∈ part.statements := by
    rw [hscript, Script.statements, List.filterMap_flatMap] at hstatement
    obtain ⟨round, hround, hmem⟩ := List.mem_flatMap.mp hstatement
    exact ⟨round, hround, part round, hparts round, hmem⟩
  simp only [Scripts.toList, Scripts.ofRounds, List.mem_cons, List.not_mem_nil, or_false] at h
  rcases h with h | h | h | h | h | h
  all_goals exact hpart _ (by simp [Scripts.toList]) h

/-- An engine that takes keys from sequences has nothing to switch. -/
theorem not_mem_of_oracle (settings : Settings) (graph : Graph) {script : Script}
    (h : script ∈ (generate .oracle settings graph).scripts.toList) (table : String) (on : Bool) :
    .identityInsert table on ∉ script.statements := by
  intro hstatement
  obtain ⟨_, found, -, -, hrounds, -⟩ := exists_filled .oracle settings graph
  rw [Generation.scripts, hrounds] at h
  obtain ⟨round, hround, part, hpart, hmem⟩ := exists_round h hstatement
  obtain ⟨⟨c, derived⟩, -, rfl⟩ := List.mem_map.mp hround
  have hidentity : derived.usesIdentity .oracle = false := by
    simp [Table.usesIdentity, Engine.keyGeneration]
  simp only [Scripts.toList, listRound, Scripts.empty, List.mem_cons, List.not_mem_nil, or_false,
    or_self_left] at hpart
  rcases hpart with rfl | rfl | rfl
  · exact absurd hmem List.not_mem_nil
  · rw [statements_rows, rowStatements_eq hidentity] at hmem
    obtain ⟨item, -, hrow⟩ := List.mem_filterMap.mp hmem
    rw [rowOf?] at hrow
    split at hrow <;> cases hrow
  · unfold translations at hmem
    split at hmem
    · rw [Schema.statements_map, List.mem_flatMap] at hmem
      obtain ⟨item, -, hlabel⟩ := hmem
      rw [itemTranslations] at hlabel
      split at hlabel
      · exact absurd hlabel List.not_mem_nil
      · obtain ⟨label, -, heq⟩ := List.mem_map.mp hlabel
        cases heq
    · exact absurd hmem List.not_mem_nil

/-- Complete scripts for an engine that numbers rows switch tables on and off in turn, each around
some of its rows and nothing else, and these switches are what the texts of the statements say. If
all keys are persistent and no class has two columns of one name, a row lists a numbered key exactly
while its table is switched on. An engine with sequences gets no such statement at all. -/
theorem keys_in_session {suffixes : Naming.Suffixes} {shared : List Graph.Domain}
    {sources : List Reading.Source} {found : List Diagnostic}
    (hread : read suffixes shared sources = .ok (graph, found)) (seed : Seed)
    (settings : Settings) :
    ((∀ id ∈ (graph.addSeed seed).persistentIds,
        (∀ key ∈ ((graph.addSeed seed).classAt id).primaryKeys, key.isPersistent = true) ∧
          ((Table.columnProperties ((graph.addSeed seed).classAt id)).map (·.2)).Nodup) →
      (generate .sqlServer settings (graph.addSeed seed)).error = none →
        Bracketed (generate .sqlServer settings (graph.addSeed seed)).scripts.data.statements ∧
        (∀ statement ∈ (generate .sqlServer settings (graph.addSeed seed)).scripts.data.statements,
          ∀ table on, statement.text .sqlServer = switchText table on ↔
            statement = .identityInsert table on) ∧
        ∃ ids : List ClassId, ids.Perm (lists (graph.addSeed seed)) ∧
          List.Forall₂
            (fun insertion origin => ∃ table,
              RowFor .sqlServer settings (graph.addSeed seed) insertion.2 origin table ∧
              KeyInSession ((graph.addSeed seed).classAt origin.1) table
                (cells .sqlServer ((graph.addSeed seed).classAt origin.1) table origin.2)
                insertion.1)
            (insertions none
              (generate .sqlServer settings (graph.addSeed seed)).scripts.data.statements)
            (ids.flatMap (listItems .sqlServer settings (graph.addSeed seed)))) ∧
    ∀ script ∈ (generate .oracle settings (graph.addSeed seed)).scripts.toList,
      (∀ table on, .identityInsert table on ∉ script.statements) ∧
        ∀ statement ∈ script.statements,
          ¬ Text.Leads "set identity_insert " (statement.text .oracle) := by
  refine ⟨fun hclasses hcomplete => ?_, fun script hscript =>
    ⟨not_mem_of_oracle settings _ hscript, fun statement _ => not_leads_oracle statement⟩⟩
  obtain ⟨ids, entries, -, hentries, hrounds, hperm⟩ :=
    exists_filled .sqlServer settings (graph.addSeed seed)
  have hids := hperm hcomplete
  rw [data_statements hrounds]
  refine ⟨(follows_flatMap entries).bracketed, fun statement _ => text_eq_switchText_iff statement,
    ids, hids, ?_⟩
  rw [insertions_flatMap]
  refine forall₂_listItems
    (f := fun c table item row =>
      (sessionOf table (table.usesIdentity .sqlServer && bringsKey c item), row))
    hentries fun id hid item _ table row hrow => ⟨table, hrow, ?_⟩
  obtain ⟨hpersistent, hcolumns⟩ :=
    hclasses id (List.mem_of_mem_filter (hids.mem_iff.mp hid))
  refine keyInSession_of_bringsKey hrow.derived (fun key hkey => ?_) hcolumns
  have hmem := List.mem_filter.mp hkey
  rw [Graph.properties_addSeed] at hmem
  exact Schema.column_of_key (Reading.arises_of_read hread hmem.1) hmem.2 (hpersistent key hkey)

def sampleKeys : Seed :=
  Seed.empty.insert "Color" ⟨"Colors", .reference,
    [sampleItem "Red" "ColorId" 1, sampleItem "Blue" "ShadeId" 7, sampleItem "Green" "ColorId" 2]⟩

theorem keys_in_session_sample :
    ∃ graph found, read .standard [] [Reading.sample] = .ok (graph, found) ∧
      (∀ id ∈ (graph.addSeed sampleKeys).persistentIds,
        (∀ key ∈ ((graph.addSeed sampleKeys).classAt id).primaryKeys, key.isPersistent = true) ∧
          ((Table.columnProperties ((graph.addSeed sampleKeys).classAt id)).map (·.2)).Nodup) ∧
      (generate .sqlServer sampleSettings (graph.addSeed sampleKeys)).error = none ∧
      (generate .sqlServer sampleSettings (graph.addSeed sampleKeys)).scripts.data.statements =
        [.identityInsert "COLOR" true, .insertRow "COLOR" [("COLOR_ID", .literal (.integer 1))],
          .identityInsert "COLOR" false, .insertRow "COLOR" [("SHADE_ID", .literal (.integer 7))],
          .identityInsert "COLOR" true, .insertRow "COLOR" [("COLOR_ID", .literal (.integer 2))],
          .identityInsert "COLOR" false] ∧
      Bracketed
        (generate .sqlServer sampleSettings (graph.addSeed sampleKeys)).scripts.data.statements ∧
      (∀ statement ∈
          (generate .sqlServer sampleSettings (graph.addSeed sampleKeys)).scripts.data.statements,
        ∀ table on, statement.text .sqlServer = switchText table on ↔
          statement = .identityInsert table on) ∧
      (∃ ids : List ClassId, ids.Perm (lists (graph.addSeed sampleKeys)) ∧
        List.Forall₂
          (fun insertion origin => ∃ table,
            RowFor .sqlServer sampleSettings (graph.addSeed sampleKeys) insertion.2 origin table ∧
            KeyInSession ((graph.addSeed sampleKeys).classAt origin.1) table
              (cells .sqlServer ((graph.addSeed sampleKeys).classAt origin.1) table origin.2)
              insertion.1)
          (insertions none
            (generate .sqlServer sampleSettings (graph.addSeed sampleKeys)).scripts.data.statements)
          (ids.flatMap (listItems .sqlServer sampleSettings (graph.addSeed sampleKeys)))) ∧
      ∀ script ∈ (generate .oracle sampleSettings (graph.addSeed sampleKeys)).scripts.toList,
        (∀ table on, .identityInsert table on ∉ script.statements) ∧
          ∀ statement ∈ script.statements,
            ¬ Text.Leads "set identity_insert " (statement.text .oracle) := by
  obtain ⟨graph, found, hread, hchecked⟩ := Reading.exists_read_sample
    (P := fun graph _ =>
      (graph.addSeed sampleKeys).persistentIds.all (fun id =>
        ((graph.addSeed sampleKeys).classAt id).primaryKeys.all (·.isPersistent) &&
          decide ((Table.columnProperties ((graph.addSeed sampleKeys).classAt id)).map
            Prod.snd).Nodup) &&
        (generate .sqlServer sampleSettings (graph.addSeed sampleKeys)).error == none &&
        (generate .sqlServer sampleSettings (graph.addSeed sampleKeys)).scripts.data.statements ==
          [.identityInsert "COLOR" true, .insertRow "COLOR" [("COLOR_ID", .literal (.integer 1))],
            .identityInsert "COLOR" false, .insertRow "COLOR" [("SHADE_ID", .literal (.integer 7))],
            .identityInsert "COLOR" true, .insertRow "COLOR" [("COLOR_ID", .literal (.integer 2))],
            .identityInsert "COLOR" false])
    (by decide +kernel)
  simp only [Bool.and_eq_true, List.all_eq_true, beq_iff_eq, decide_eq_true_eq] at hchecked
  obtain ⟨⟨hclasses, hcomplete⟩, hstatements⟩ := hchecked
  obtain ⟨hsessions, horacle⟩ := keys_in_session hread sampleKeys sampleSettings
  obtain ⟨hbracketed, htexts, hrows⟩ := hsessions hclasses hcomplete
  exact ⟨graph, found, hread, hclasses, hcomplete, hstatements, hbracketed, htexts, hrows, horacle⟩

end ModelSchema.Sql.Seeding
