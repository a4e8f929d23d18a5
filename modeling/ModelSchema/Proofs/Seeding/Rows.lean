import ModelSchema.Proofs.Seeding.Order
import ModelSchema.Proofs.Steps

/-!
# The rows of seed scripts

The data script holds one row for every item with a value, list after list, each list in the order
of its items (`rows_scripts`). Statements that switch key columns stand between the rows and do not
disturb them (`rows_rowStatements`). The number of rows is counted apart from the script, and
`rowTotal_eq` says that both go through the same tables.
-/

namespace ModelSchema.Sql.Seeding

open Seed (Item)

variable (engine : Engine) (settings : Settings)

/-! ## One list -/

def isRow : Statement → Bool
  | .insertRow .. => true
  | _ => false

/-- The row of an item, unless the item has no value. -/
def rowOf? (c : Graph.Class) (table : Table) (item : Item) : Option Statement :=
  match cells engine c table item with
  | [] => none
  | cells => some (.insertRow table.name cells)

/-- Switches are no rows. -/
theorem rows_switchStatements (table : String) (on : Bool) :
    (switchStatements engine table on).filter isRow = [] := by
  rw [switchStatements]
  split <;> rfl

/-- `rowStatements` switches key columns on and off between rows. Without the switches, these are
the rows of the items in order. -/
theorem rows_rowStatements (c : Graph.Class) (table : Table) (on : Bool) (items : List Item) :
    (rowStatements engine c table on items).filter isRow =
      items.filterMap (rowOf? engine c table) := by
  -- Whether the key column is switched on changes from row to row.
  induction items generalizing on with
  | nil =>
      rw [rowStatements]
      split
      · exact rows_switchStatements ..
      · rfl
  | cons item rest ih =>
      cases hcells : cells engine c table item with
      | nil =>
          have hrow : rowOf? engine c table item = none := by rw [rowOf?, hcells]
          rw [rowStatements, hcells, List.filterMap_cons_none hrow]
          exact ih on
      | cons cell others =>
          have hrow : rowOf? engine c table item =
              some (.insertRow table.name (cell :: others)) := by rw [rowOf?, hcells]
          rw [rowStatements, hcells, List.filterMap_cons_some hrow, ← ih]
          simp only [List.filter_append]
          split
          · rw [rows_switchStatements]
            rfl
          · rfl

/-- `rowCount` counts items with cells, which are those with a row. -/
theorem rowCount_eq (c : Graph.Class) (table : Table) :
    rowCount engine c table = (c.items.filterMap (rowOf? engine c table)).length := by
  rw [rowCount, List.length_filterMap_eq_countP]
  refine List.countP_congr fun item _ => ?_
  rw [rowOf?]
  split <;> simp_all

/-- The rows of a list that has a table. -/
def listRows (graph : Graph) (id : ClassId) : List Statement :=
  match Schema.table engine settings graph id with
  | .ok table => (graph.classAt id).items.filterMap (rowOf? engine (graph.classAt id) table)
  | .error _ => []

/-! ## All lists -/

/-- The rows are counted table by table, as far as there are tables. `Schema.tables` stops at the
same class as the count does. -/
theorem foldlM_rowCount (graph : Graph) (ids : List ClassId) (total : Nat) :
    ids.foldlM (fun total id => do
        let table ← Schema.table engine settings graph id
        return total + rowCount engine (graph.classAt id) table) total =
      match Schema.tables graph (Schema.table engine settings graph) ids with
      | (_, some error) => .error error
      | (found, none) =>
        .ok (total + (found.map fun (c, table) => rowCount engine c table).sum) := by
  -- On the classes left, for any count so far.
  induction ids generalizing total with
  | nil => rfl
  | cons id rest ih =>
      rw [List.foldlM_cons, Schema.tables]
      cases Schema.table engine settings graph id with
      | error error => rfl
      | ok table =>
          refine (ih (total + rowCount engine (graph.classAt id) table)).trans ?_
          rcases Schema.tables graph (Schema.table engine settings graph) rest with
            ⟨found, _ | error⟩
          · simp [Nat.add_assoc]
          · rfl

/-- Rows are counted exactly if the scripts can be written. -/
theorem rowTotal_eq (graph : Graph) :
    rowTotal engine settings graph =
      match order graph (lists graph) with
      | .error error => .error error
      | .ok ids =>
        match Schema.tables graph (Schema.table engine settings graph) ids with
        | (_, some error) => .error error
        | (found, none) => .ok (found.map fun (c, table) => rowCount engine c table).sum := by
  rw [rowTotal]
  cases order graph (lists graph) with
  | error error => rfl
  | ok ids =>
      refine (foldlM_rowCount engine settings graph ids 0).trans ?_
      dsimp only
      rcases Schema.tables graph (Schema.table engine settings graph) ids with ⟨found, _ | error⟩
      · simp
      · rfl

variable {engine settings}

/-- Class by class, for lists that all have tables. -/
theorem listRows_of_tables {graph : Graph} {ids : List ClassId}
    {found : List (Graph.Class × Table)}
    (h : Schema.tables graph (Schema.table engine settings graph) ids = (found, none)) :
    (found.flatMap fun (c, table) => c.items.filterMap (rowOf? engine c table)) =
        ids.flatMap (listRows engine settings graph) ∧
      ∀ id ∈ ids, ∃ table, Schema.table engine settings graph id = .ok table := by
  induction ids generalizing found with
  | nil =>
      cases h
      exact ⟨rfl, fun _ hid => absurd hid List.not_mem_nil⟩
  | cons id rest ih =>
      rw [Schema.tables] at h
      split at h
      · next table htable =>
        rcases hrest : Schema.tables graph (Schema.table engine settings graph) rest with
          ⟨others, error⟩
        rw [hrest] at h
        cases h
        obtain ⟨heq, htables⟩ := ih hrest
        constructor
        · rw [List.flatMap_cons, List.flatMap_cons, heq, listRows, htable]
        · intro other hother
          rcases List.mem_cons.mp hother with rfl | hother
          · exact ⟨table, htable⟩
          · exact htables other hother
      · cases h

/-- The script of a list has a heading and its statements; the heading is none of them. -/
theorem statements_rows (c : Graph.Class) (table : Table) :
    Script.statements (rows engine c table) = rowStatements engine c table false c.items := by
  rw [Script.statements, rows, Schema.heading, List.filterMap_cons_none rfl, List.filterMap_map]
  exact List.filterMap_some ..

/-- The data script fills one list after the other. -/
theorem data_statements {generation : Generation} {found : List (Graph.Class × Table)}
    (h : generation.rounds = found.map fun entry => listRound engine settings entry.1 entry.2) :
    generation.scripts.data.statements =
      found.flatMap fun entry => rowStatements engine entry.1 entry.2 false entry.1.items := by
  simp only [Generation.scripts, h, Scripts.ofRounds, Script.statements, List.flatMap_map,
    List.filterMap_flatMap, listRound]
  exact List.flatMap_congr fun entry _ => statements_rows entry.1 entry.2

/-- The rows of a data script are those of its lists. -/
theorem rows_scripts (found : List (Graph.Class × Table)) (error : Option Error) :
    ((Generation.mk (found.map fun (c, table) => listRound engine settings c table)
        error).scripts.data.statements.filter isRow) =
      found.flatMap fun (c, table) => c.items.filterMap (rowOf? engine c table) := by
  rw [data_statements rfl, List.filter_flatMap]
  exact List.flatMap_congr fun entry _ => rows_rowStatements engine entry.1 entry.2 false _

/-- Every list is filled once. -/
theorem nodup_lists (graph : Graph) : (lists graph).Nodup :=
  (List.nodup_range.filter _).filter _

/-- When rows are counted, the scripts are complete. The rows of the data script are those of the
lists, each list after all lists it refers to, and the count is their number. -/
theorem rows_of_rowTotal {graph : Graph} {total : Nat}
    (h : rowTotal engine settings graph = .ok total) :
    (generate engine settings graph).error = none ∧
      ∃ ids : List ClassId, ids.Perm (lists graph) ∧ ids.Nodup ∧
        (∀ id ∈ ids, ∃ table, Schema.table engine settings graph id = .ok table) ∧
        (generate engine settings graph).scripts.data.statements.filter isRow =
          ids.flatMap (listRows engine settings graph) ∧
        total = (ids.flatMap (listRows engine settings graph)).length ∧
        ∀ id ∈ lists graph, ∀ other ∈ lists graph, refersTo graph id other = true →
          [other, id].Sublist ids := by
  rw [rowTotal_eq] at h
  rw [generate]
  cases horder : order graph (lists graph) with
  | error error =>
      rw [horder] at h
      cases h
  | ok ids =>
      rw [horder] at h
      dsimp only at h ⊢
      obtain ⟨hperm, hsettled⟩ := order_eq_ok horder
      rcases htables : Schema.tables graph (Schema.table engine settings graph) ids with
        ⟨found, _ | error⟩
      · rw [htables] at h
        cases h
        obtain ⟨hrows, hexists⟩ := listRows_of_tables htables
        refine ⟨rfl, ids, hperm, hperm.nodup_iff.mpr (nodup_lists graph), hexists, ?_, ?_, ?_⟩
        · rw [← hrows]
          exact rows_scripts found none
        · rw [← hrows, List.length_flatMap]
          exact congrArg List.sum (List.map_congr_left fun entry _ => rowCount_eq engine ..)
        · intro id hid other hother hrefers
          exact hsettled.sublist (hperm.mem_iff.mpr hid) (hperm.mem_iff.mpr hother) hrefers
      · rw [htables] at h
        cases h

/-! ## Two lists -/

/-- A persistent list with a numbered key. -/
def sampleList (name table key column : String) (references : List Graph.Property)
    (items : List Item) : Graph.Class :=
  { (default : Graph.Class) with
    name, table, items
    stereotype := .reference
    isPersistent := true
    properties := { Graph.Property.plain key none with
      column := some column
      isPrimaryKey := true
      isPersistent := true
      persistentType := some "int" } :: references }

def sampleItem (name property : String) (value : Int) : Item :=
  ⟨name, Catalog.empty.insert property (.integer value), .empty⟩

/-- Two lists, of which the first refers to the second; one item has no value. -/
def sampleLists : Graph :=
  { Graph.empty with
    classes := [
      sampleList "Shade" "SHADE" "ShadeId" "SHADE_ID"
        [{ Graph.Property.plain "ColorId" none with
          column := some "COLOR_ID"
          isPersistent := true
          persistentType := some "int"
          kind := .reference 1 }]
        [sampleItem "Dark" "ColorId" 1, sampleItem "Lost" "Other" 0, sampleItem "Pale" "ShadeId" 7],
      sampleList "Color" "COLOR" "ColorId" "COLOR_ID" [] [sampleItem "Red" "ColorId" 1]] }

def sampleSettings : Settings := ⟨"Shop", none, none, "TRANSLATION"⟩

theorem rows_of_sampleLists :
    rowTotal .sqlServer sampleSettings sampleLists = .ok 3 ∧ lists sampleLists = [0, 1] ∧
      (generate .sqlServer sampleSettings sampleLists).error = none ∧
      ∃ ids : List ClassId, ids.Perm (lists sampleLists) ∧ ids.Nodup ∧
        (∀ id ∈ ids, ∃ table, Schema.table .sqlServer sampleSettings sampleLists id = .ok table) ∧
        (generate .sqlServer sampleSettings sampleLists).scripts.data.statements.filter isRow =
          ids.flatMap (listRows .sqlServer sampleSettings sampleLists) ∧
        3 = (ids.flatMap (listRows .sqlServer sampleSettings sampleLists)).length ∧
        ∀ id ∈ lists sampleLists, ∀ other ∈ lists sampleLists,
          refersTo sampleLists id other = true → [other, id].Sublist ids := by
  have htotal : rowTotal .sqlServer sampleSettings sampleLists = .ok 3 := by cbv
  exact ⟨htotal, by cbv, rows_of_rowTotal htotal⟩

end ModelSchema.Sql.Seeding
