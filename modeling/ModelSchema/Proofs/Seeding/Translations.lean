import ModelSchema.Proofs.Reading.Shapes
import ModelSchema.Proofs.Seeding.Mandatory
import ModelSchema.Proofs.Sql.Complete

/-!
# Labels and rows

The translated labels of an item are put beside the row of the item, which is found by the value of
one of its columns. Rows and labels are written to two scripts, and the columns of a row are chosen
by another rule than the column it is found by: a row lists the properties that become columns,
while it is found by a key or a unique property with a column name. In a graph that is read, keys
and unique properties with a column name become columns (`mem_cells_of_filter?`), so whatever has
labels has a row in which they find their value (`labels_target_rows`).
-/

namespace ModelSchema.Sql.Seeding

open Reading (read)
open Seed (Item)

variable {engine : Engine} {settings : Settings} {graph : Graph}

/-! ## One item -/

/-- The statements for the labels of an item: only reference lists with a key column have any. -/
def labelStatements (settings : Settings) (c : Graph.Class) (table : Table) (item : Item) :
    List Statement :=
  match c.stereotype, c.primaryKey?.bind (·.column) with
  | .reference, some keyColumn => itemTranslations settings c table keyColumn item
  | _, _ => []

/-- An item has a value by which its row can be found. -/
def HasFilter (c : Graph.Class) (item : Item) : Prop :=
  ∃ property ∈ c.properties, (property.isPrimaryKey = true ∨ property.isUnique = true) ∧
    property.column.isSome = true ∧ item.values.contains property.name = true

/-- `filter?` takes the first key or unique property with a column and a value. There is one exactly
if there is any. -/
theorem isSome_filter?_iff {c : Graph.Class} {item : Item} :
    (filter? c item).isSome = true ↔ HasFilter c item := by
  constructor
  · intro h
    obtain ⟨⟨column, value⟩, hfilter⟩ := Option.isSome_iff_exists.mp h
    obtain ⟨property, hmem, hmark, hcolumn, hvalue⟩ := exists_of_filter? hfilter
    exact ⟨property, hmem, hmark, by simp [hcolumn], by simp [Catalog.contains, hvalue]⟩
  · rintro ⟨property, hmem, hmark, hcolumn, hvalue⟩
    obtain ⟨column, hcolumn⟩ := Option.isSome_iff_exists.mp hcolumn
    obtain ⟨value, hvalue⟩ := Option.isSome_iff_exists.mp hvalue
    rw [filter?, List.findSome?_isSome_iff]
    refine ⟨property, ?_, by simp [hcolumn, hvalue]⟩
    rw [List.mem_append, Graph.Class.primaryKeys, List.mem_filter, List.mem_filter]
    exact hmark.imp (⟨hmem, ·⟩) (⟨hmem, ·⟩)

/-- The value by which a row is found stands in that row. The hypothesis is what makes the two rules
for columns agree; in a graph that is read it holds by `Shaped`. -/
theorem mem_cells_of_filter? {c : Graph.Class} {item : Item} (table : Table)
    (hcolumns : ∀ property ∈ c.properties, property.column.isSome = true →
      property.isColumn = true)
    {column : String} {value : Seed.Value} (h : filter? c item = some (column, value)) :
    (column, .literal value) ∈ cells engine c table item := by
  obtain ⟨property, hmem, -, hcolumn, hvalue⟩ := exists_of_filter? h
  refine List.mem_filterMap.mpr ⟨(property, column), ?_, by simp [hvalue]⟩
  exact Table.mem_columnProperties.mpr ⟨hmem, hcolumns property hmem (by simp [hcolumn]), hcolumn⟩

/-- Unless it is skipped, the row of an item stands among those of its list. -/
theorem insertRow_mem_rowStatements {c : Graph.Class} {table : Table} {on : Bool}
    {items : List Item} {item : Item} (hitem : item ∈ items)
    (hcells : cells engine c table item ≠ []) :
    .insertRow table.name (cells engine c table item) ∈
      rowStatements engine c table on items := by
  have hrow : rowOf? engine c table item =
      some (.insertRow table.name (cells engine c table item)) := by
    rw [rowOf?]
    split
    · next hnone => exact absurd hnone hcells
    · rfl
  have hlisted := List.mem_filterMap.mpr ⟨item, hitem, hrow⟩
  rw [← rows_rowStatements engine c table on] at hlisted
  exact List.mem_of_mem_filter hlisted

/-- The three reasons for an item to have no labels, and that it has none to write. -/
theorem labelStatements_ne_nil_iff {c : Graph.Class} {table : Table} {item : Item} :
    labelStatements settings c table item ≠ [] ↔
      c.stereotype = .reference ∧ (c.primaryKey?.bind (·.column)).isSome = true ∧
        HasFilter c item ∧ item.translations.entries ≠ [] := by
  rw [labelStatements, ← isSome_filter?_iff]
  split
  · next keyColumn hreference hkey =>
    rw [itemTranslations]
    split
    · next hfilter => simp [hfilter]
    · next hfilter => simp [hreference, hkey, hfilter]
  · next hno =>
    refine iff_of_false (fun h => h rfl) ?_
    rintro ⟨hreference, hkey, -⟩
    obtain ⟨keyColumn, hkey⟩ := Option.isSome_iff_exists.mp hkey
    exact hno keyColumn hreference hkey

/-- A statement adds a label to the row with given cells: it looks for a value that the row has. -/
def AddsLabel (c : Graph.Class) (table : Table) (row : List (String × Cell))
    (statement : Statement) (label : String × String) : Prop :=
  ∃ t : Translation, statement = .insertTranslation t ∧ t.className = c.name ∧
    t.table = table.name ∧ t.language = label.1 ∧ t.label = label.2 ∧
    (t.filterColumn, .literal t.filterValue) ∈ row

/-- One statement for each language, all with the same filter. -/
theorem addsLabel_labelStatements {c : Graph.Class} {table : Table} {item : Item}
    (hcolumns : ∀ property ∈ c.properties, property.column.isSome = true →
      property.isColumn = true)
    (h : labelStatements settings c table item ≠ []) :
    List.Forall₂ (AddsLabel c table (cells engine c table item))
      (labelStatements settings c table item) item.translations.entries := by
  rw [labelStatements] at h ⊢
  split at h
  · rw [itemTranslations] at h ⊢
    split at h
    · exact absurd rfl h
    · next hfilter =>
      rw [List.forall₂_map_left_iff, List.forall₂_same]
      intro label _
      exact ⟨_, rfl, rfl, rfl, rfl, rfl, mem_cells_of_filter? table hcolumns hfilter⟩
  · exact absurd rfl h

/-! ## Scripts -/

variable (engine settings graph) in
/-- What is written for the labels of an item, and how it meets the data script. -/
structure LabelsRow (data : Script) (written : List Statement) (origin : ClassId × Item)
    (table : Table) : Prop where
  derived : Schema.table engine settings graph origin.1 = .ok table
  /-- Labels are written for the items of reference lists whose row can be found. -/
  isWritten : written ≠ [] ↔
    (graph.classAt origin.1).stereotype = .reference ∧
      ((graph.classAt origin.1).primaryKey?.bind (·.column)).isSome = true ∧
      HasFilter (graph.classAt origin.1) origin.2 ∧ origin.2.translations.entries ≠ []
  /-- Then the item has a row. -/
  inserted : written ≠ [] →
    .insertRow table.name (cells engine (graph.classAt origin.1) table origin.2) ∈ data.statements
  /-- There is one statement for each language, and it finds the row. -/
  labels : written ≠ [] →
    List.Forall₂ (AddsLabel (graph.classAt origin.1) table
        (cells engine (graph.classAt origin.1) table origin.2))
      written origin.2.translations.entries
  /-- An item without row has no labels. -/
  skipped : cells engine (graph.classAt origin.1) table origin.2 = [] → written = []

def itemsOf (graph : Graph) (id : ClassId) : List (ClassId × Item) :=
  (graph.classAt id).items.map fun item => (id, item)

/-- The script of a list by items; the condition on the stereotype is the same for all of them. -/
theorem statements_translations (c : Graph.Class) (table : Table) :
    Script.statements (translations settings c table) =
      c.items.flatMap (labelStatements settings c table) := by
  rw [translations]
  split
  · next keyColumn hreference hkey =>
    rw [Schema.statements_map]
    refine List.flatMap_congr fun item _ => ?_
    rw [labelStatements, hreference, hkey]
  · next hno =>
    refine (List.flatMap_eq_nil_iff.mpr fun item _ => ?_).symm
    rw [labelStatements]
    split
    · next keyColumn hreference hkey => exact (hno keyColumn hreference hkey).elim
    · rfl

/-- The script of labels goes through the same lists as the data script, item by item. -/
theorem translations_statements {generation : Generation} {found : List (Graph.Class × Table)}
    (h : generation.rounds = found.map fun entry => listRound engine settings entry.1 entry.2) :
    generation.scripts.translations.statements =
      (found.flatMap fun entry =>
        entry.1.items.map (labelStatements settings entry.1 entry.2)).flatten := by
  simp only [Generation.scripts, h, Scripts.ofRounds, Script.statements, List.flatMap_map,
    List.filterMap_flatMap, listRound, List.flatten_eq_flatMap, List.flatMap_assoc, id]
  exact List.flatMap_congr fun entry _ => statements_translations entry.1 entry.2

/-- `LabelsRow` for one item, as long as the rows of its list are in the data script. -/
theorem labelsRow_labelStatements {id : ClassId} {table : Table} {data : Script}
    (htable : Schema.table engine settings graph id = .ok table)
    (hdata : ∀ statement ∈ rowStatements engine (graph.classAt id) table false
      (graph.classAt id).items, statement ∈ data.statements)
    (hcolumns : ∀ property ∈ (graph.classAt id).properties, property.column.isSome = true →
      property.isColumn = true)
    {item : Item} (hitem : item ∈ (graph.classAt id).items) :
    LabelsRow engine settings graph data (labelStatements settings (graph.classAt id) table item)
      (id, item) table := by
  -- A label finds a value in the row, so the row is not empty.
  have hcells : labelStatements settings (graph.classAt id) table item ≠ [] →
      cells engine (graph.classAt id) table item ≠ [] := by
    intro h
    obtain ⟨_, _, hfilter, _⟩ := labelStatements_ne_nil_iff.mp h
    obtain ⟨⟨column, value⟩, hfilter⟩ :=
      Option.isSome_iff_exists.mp (isSome_filter?_iff.mpr hfilter)
    exact List.ne_nil_of_mem (mem_cells_of_filter? table hcolumns hfilter)
  refine ⟨htable, labelStatements_ne_nil_iff, fun h => ?_, addsLabel_labelStatements hcolumns,
    fun hnone => ?_⟩
  · exact hdata _ (insertRow_mem_rowStatements hitem (hcells h))
  · by_contra h
    exact hcells h hnone

/-- Labels are written for the items of reference lists whose row can be found: one statement for
each language of the item, and each looks for a value that the row inserted for the item has. An
item without row has no labels. -/
theorem labels_target_rows {suffixes : Naming.Suffixes} {shared : List Graph.Domain}
    {sources : List Reading.Source} {found : List Diagnostic}
    (hread : read suffixes shared sources = .ok (graph, found)) (seed : Seed) (engine : Engine)
    (settings : Settings) :
    ∃ (ids : List ClassId) (parts : List (List Statement)),
      ids.Subperm (lists (graph.addSeed seed)) ∧
      ((generate engine settings (graph.addSeed seed)).error = none →
        ids.Perm (lists (graph.addSeed seed))) ∧
      (generate engine settings (graph.addSeed seed)).scripts.translations.statements =
        parts.flatten ∧
      List.Forall₂
        (fun written origin => ∃ table,
          LabelsRow engine settings (graph.addSeed seed)
            (generate engine settings (graph.addSeed seed)).scripts.data written origin table)
        parts (ids.flatMap (itemsOf (graph.addSeed seed))) := by
  obtain ⟨ids, entries, hids, hentries, hrounds, hcomplete⟩ :=
    exists_filled engine settings (graph.addSeed seed)
  refine ⟨ids, _, hids, hcomplete, translations_statements hrounds, ?_⟩
  have hdata : ∀ entry ∈ entries, ∀ statement ∈ rowStatements engine entry.1 entry.2 false
      entry.1.items, statement ∈
        (generate engine settings (graph.addSeed seed)).scripts.data.statements := by
    intro entry hentry statement hstatement
    rw [data_statements hrounds]
    exact List.mem_flatMap.mpr ⟨entry, hentry, hstatement⟩
  have hcolumns (id : ClassId) : ∀ property ∈ ((graph.addSeed seed).classAt id).properties,
      property.column.isSome = true → property.isColumn = true := by
    intro property hproperty hcolumn
    rw [Graph.properties_addSeed] at hproperty
    have hshaped := Reading.shaped_of_read hread id property hproperty
    exact hshaped.isColumn.mpr (hshaped.column.mp hcolumn)
  clear hids hcomplete hrounds
  induction hentries with
  | nil => exact .nil
  | @cons id entry _ _ hentry _ ih =>
      obtain ⟨c, table⟩ := entry
      obtain ⟨rfl, htable⟩ := hentry
      rw [List.flatMap_cons, List.flatMap_cons]
      refine List.rel_append ?_ (ih fun entry hentry => hdata entry (List.mem_cons_of_mem _ hentry))
      rw [itemsOf, List.forall₂_map_left_iff, List.forall₂_map_right_iff, List.forall₂_same]
      intro item hitem
      exact ⟨table, labelsRow_labelStatements htable (hdata _ List.mem_cons_self) (hcolumns id)
        hitem⟩

/-- Three countries with labels: the row of the first can be found by its key, the second brings no
key, and the third has no row. -/
def countries : Seed :=
  Seed.empty.insert "Country" ⟨"Countries", .reference,
    [⟨"France", (Catalog.empty.insert "Id" (.integer 1)).insert "Rank" (.integer 2),
        (Catalog.empty.insert "fr" "L'Hexagone").insert "en" "France"⟩,
      ⟨"Spain", Catalog.empty.insert "Rank" (.integer 3), Catalog.empty.insert "en" "Spain"⟩,
      ⟨"Nowhere", .empty, Catalog.empty.insert "en" "Nowhere"⟩]⟩

def franceLabel (language label : String) : Translation where
  translationTable := "TRANSLATION"
  className := "Country"
  keyColumn := "COU_ID"
  table := "COUNTRY"
  filterColumn := "COU_ID"
  filterValue := .integer 1
  language := language
  label := label

theorem labels_target_rows_countries :
    ∃ graph found, read .standard [] [registers] = .ok (graph, found) ∧
      (generate .sqlServer sampleSettings (graph.addSeed countries)).scripts.data.statements =
        [.identityInsert "COUNTRY" true,
          .insertRow "COUNTRY" [("COU_ID", .literal (.integer 1)),
            ("COU_RANK", .literal (.integer 2))],
          .identityInsert "COUNTRY" false,
          .insertRow "COUNTRY" [("COU_RANK", .literal (.integer 3))]] ∧
      (generate .sqlServer sampleSettings
          (graph.addSeed countries)).scripts.translations.statements =
        [.insertTranslation (franceLabel "en" "France"),
          .insertTranslation (franceLabel "fr" "L'Hexagone")] ∧
      ∃ (ids : List ClassId) (parts : List (List Statement)),
        ids.Subperm (lists (graph.addSeed countries)) ∧
        ((generate .sqlServer sampleSettings (graph.addSeed countries)).error = none →
          ids.Perm (lists (graph.addSeed countries))) ∧
        (generate .sqlServer sampleSettings
            (graph.addSeed countries)).scripts.translations.statements = parts.flatten ∧
        List.Forall₂
          (fun written origin => ∃ table,
            LabelsRow .sqlServer sampleSettings (graph.addSeed countries)
              (generate .sqlServer sampleSettings (graph.addSeed countries)).scripts.data written
              origin table)
          parts (ids.flatMap (itemsOf (graph.addSeed countries))) := by
  obtain ⟨graph, found, hread, hchecked⟩ := Reading.exists_read .standard []
    (.cons document_registers .nil)
    (P := fun graph _ =>
      (generate .sqlServer sampleSettings (graph.addSeed countries)).scripts.data.statements ==
          [.identityInsert "COUNTRY" true,
            .insertRow "COUNTRY" [("COU_ID", .literal (.integer 1)),
              ("COU_RANK", .literal (.integer 2))],
            .identityInsert "COUNTRY" false,
            .insertRow "COUNTRY" [("COU_RANK", .literal (.integer 3))]] &&
        (generate .sqlServer sampleSettings
            (graph.addSeed countries)).scripts.translations.statements ==
          [.insertTranslation (franceLabel "en" "France"),
            .insertTranslation (franceLabel "fr" "L'Hexagone")])
    (by decide +kernel)
  simp only [Bool.and_eq_true, beq_iff_eq] at hchecked
  exact ⟨graph, found, hread, hchecked.1, hchecked.2,
    labels_target_rows hread countries .sqlServer sampleSettings⟩

end ModelSchema.Sql.Seeding
