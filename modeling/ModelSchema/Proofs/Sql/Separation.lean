import ModelSchema.Proofs.Sql.Batches
import ModelSchema.Proofs.Sql.Complete
import ModelSchema.Proofs.Sql.Spelling
import ModelSchema.Proofs.Seeding.Mandatory

/-!
# Scripts that come apart into their statements

The texts of a model, of its seed and of the settings are written as they are, line breaks included.
If none of them has the separator for a line after a break (`CalmTexts`), then all six scripts come
apart into their statements (`separates_generate`). The checks do not see to that: a list without
findings may hold a text that cuts its own row in two (`exists_broken_batch`).
-/

namespace ModelSchema.Sql

open ModelSchema.Graph (Property)

/-! ## The texts of a model

Scripts hold texts of three origins: the settings, the model and its items. -/

/-- The texts of a class that its scripts hold are calm. All of them are listed, so that this can be
decided for a given model. -/
structure CalmClass (engine : Engine) (graph : Graph) (c : Graph.Class) : Prop where
  name : Calm engine c.name
  table : Calm engine c.table
  trigram : ∀ trigram ∈ c.trigram, Calm engine trigram
  storage : ∀ storage ∈ c.storage, Calm engine storage
  columns : ∀ property ∈ c.properties, ∀ column ∈ property.column, Calm engine column
  types : ∀ property ∈ c.properties, ∀ type ∈ Table.persistentType? graph property,
    Calm engine type
  values : ∀ item ∈ c.items, ∀ value ∈ item.values.values, CalmValue engine value
  labels : ∀ item ∈ c.items, ∀ entry ∈ item.translations.entries,
    Calm engine entry.1 ∧ Calm engine entry.2

/-- The texts that scripts take from the settings and the model are calm. -/
structure CalmTexts (engine : Engine) (settings : Settings) (graph : Graph) : Prop where
  dataStorage : ∀ storage ∈ settings.dataStorage, Calm engine storage
  indexStorage : ∀ storage ∈ settings.indexStorage, Calm engine storage
  translationTable : Calm engine settings.translationTable
  classes : ∀ id ∈ graph.persistentIds, CalmClass engine graph (graph.classAt id)

instance (engine : Engine) (graph : Graph) (c : Graph.Class) :
    Decidable (CalmClass engine graph c) :=
  decidable_of_iff (_ ∧ _ ∧ _ ∧ _ ∧ _ ∧ _ ∧ _ ∧ _)
    ⟨fun h => ⟨h.1, h.2.1, h.2.2.1, h.2.2.2.1, h.2.2.2.2.1, h.2.2.2.2.2.1, h.2.2.2.2.2.2.1,
      h.2.2.2.2.2.2.2⟩,
    fun h => ⟨h.name, h.table, h.trigram, h.storage, h.columns, h.types, h.values, h.labels⟩⟩

instance (engine : Engine) (settings : Settings) (graph : Graph) :
    Decidable (CalmTexts engine settings graph) :=
  decidable_of_iff (_ ∧ _ ∧ _ ∧ _)
    ⟨fun h => ⟨h.1, h.2.1, h.2.2.1, h.2.2.2⟩,
    fun h => ⟨h.dataStorage, h.indexStorage, h.translationTable, h.classes⟩⟩

variable {engine : Engine} {settings : Settings} {graph : Graph}

/-! ## Tables -/

/-- Lists of columns are made of column names. -/
theorem CalmClass.calm_columnsWhere {c : Graph.Class} (h : CalmClass engine graph c)
    (p : Property → Bool) : ∀ column ∈ Table.columnsWhere c p, Calm engine column := by
  intro column hcolumn
  obtain ⟨⟨property, _⟩, hentry, rfl⟩ := List.mem_map.mp hcolumn
  obtain ⟨hmem, -, hname⟩ := Table.mem_columnProperties.mp (List.mem_of_mem_filter hentry)
  exact h.columns property hmem _ hname

/-- The type of a column is that of the property or its domain, spelled for the engine. -/
theorem CalmClass.isCalm_columnOf {c : Graph.Class} (h : CalmClass engine graph c)
    {property : Property} {name : String} (hproperty : (property, name) ∈ Table.columnProperties c)
    {column : Column} (hcolumn : Table.columnOf engine graph c property name = .ok column) :
    column.IsCalm engine := by
  obtain ⟨hmem, -, hname⟩ := Table.mem_columnProperties.mp hproperty
  obtain ⟨rfl, htype⟩ := Table.columnOf_eq_ok hcolumn
  obtain ⟨-, -, hdefault⟩ := Table.columnOf_marks hcolumn
  refine ⟨h.columns property hmem _ hname, ?_, by simp [hdefault]⟩
  rw [Table.columnType] at htype
  split at htype
  · cases htype
  · next type hsome =>
    have hcalm := h.types property hmem type hsome
    split at htype <;>
      · rw [← Except.ok.inj htype]
        exact calm_columnType hcalm _ _

theorem isCalm_technical {name : String} (h : Calm engine name) :
    (Table.technical engine name).IsCalm engine where
  name := h
  type := calm_timestampType
  default := by simp [Table.technical]

/-- Technical columns have words for names, behind the trigram. -/
theorem CalmClass.isCalm_auditColumns {c : Graph.Class} (h : CalmClass engine graph c)
    {column : Column} (hcolumn : column ∈ Table.auditColumns engine c) : column.IsCalm engine := by
  unfold Table.auditColumns at hcolumn
  split at hcolumn
  · have hcreated : (Table.technical engine (Table.technicalColumn c.trigram
        "CREATED_AT")).IsCalm engine :=
      isCalm_technical (calm_technicalColumn h.trigram (calm_of_not_mem (by decide)))
    simp only [List.mem_cons, List.not_mem_nil, or_false] at hcolumn
    rcases hcolumn with rfl | rfl
    · exact ⟨hcreated.name, hcreated.type, by simpa using calm_now⟩
    · exact isCalm_technical (calm_technicalColumn h.trigram (calm_of_not_mem (by decide)))
  · exact absurd hcolumn List.not_mem_nil

theorem CalmClass.calm_exportColumn {c : Graph.Class} (h : CalmClass engine graph c) {name : String}
    (hname : name ∈ (Table.exportColumn? c).toList) : Calm engine name := by
  unfold Table.exportColumn? at hname
  split at hname
  · obtain rfl : name = _ := by simpa using hname
    exact calm_technicalColumn h.trigram (calm_of_not_mem (by decide))
  · exact absurd hname (by simp)

/-- The other table belongs to a persistent class too. -/
theorem CalmTexts.isCalm_foreignKey (h : CalmTexts engine settings graph) {property : Property}
    {column : String} (hcolumn : Calm engine column) {key : ForeignKey}
    (hkey : Table.foreignKey? graph property column = some key) : key.IsCalm engine := by
  obtain ⟨target, keyProperty, -, hprimary, hpersistent, rfl, htable, htarget⟩ :=
    Schema.foreignKey?_eq_some hkey
  have hmem : keyProperty ∈ (graph.classAt target).properties := List.mem_of_find?_eq_some hprimary
  have hclass := h.classes target
    (List.mem_filter.mpr ⟨List.mem_range.mpr (Graph.lt_of_mem_properties hmem), hpersistent⟩)
  exact ⟨hcolumn, htable ▸ hclass.table, hclass.columns keyProperty hmem _ htarget⟩

/-- The tables of a calm model are calm. Field by field of `Table.ofClass`. -/
theorem CalmTexts.isCalm_table (h : CalmTexts engine settings graph) {id : ClassId}
    (hid : id ∈ graph.persistentIds) {table : Table}
    (htable : Schema.table engine settings graph id = .ok table) : table.IsCalm engine := by
  have hclass := h.classes id hid
  obtain ⟨columns, hcolumns, htable⟩ := bind_eq_ok_iff.mp htable
  cases htable
  refine
    { name := hclass.table
      trigram := hclass.trigram
      columns := fun column hcolumn => ?_
      primaryKey := hclass.calm_columnsWhere _
      uniqueColumns := hclass.calm_columnsWhere fun property =>
        property.isUnique && !property.isPrimaryKey
      compositeUnique := hclass.calm_columnsWhere _
      foreignKeys := fun key hkey => ?_
      indexedColumns := fun column hcolumn => ?_
      storage := fun storage hstorage => ?_ }
  · rcases List.mem_append.mp hcolumn with hcolumn | hexport
    · rcases List.mem_append.mp hcolumn with hdeclared | haudit
      · obtain ⟨⟨property, name⟩, hproperty, hderived⟩ :=
          exists_of_forall₂ (forall₂_of_mapM hcolumns) column hdeclared
        exact hclass.isCalm_columnOf hproperty hderived
      · exact hclass.isCalm_auditColumns haudit
    · obtain ⟨name, hname, rfl⟩ := List.mem_map.mp hexport
      exact isCalm_technical (hclass.calm_exportColumn hname)
  · obtain ⟨⟨property, column⟩, hproperty, hsome⟩ := List.mem_filterMap.mp hkey
    obtain ⟨hmem, -, hname⟩ := Table.mem_columnProperties.mp hproperty
    exact h.isCalm_foreignKey (hclass.columns property hmem _ hname) hsome
  · rcases List.mem_append.mp hcolumn with hordered | hexport
    · exact hclass.calm_columnsWhere _ column hordered
    · exact hclass.calm_exportColumn hexport
  · rcases Option.or_eq_some_iff.mp hstorage with hown | ⟨-, hdefault⟩
    · exact hclass.storage storage hown
    · exact h.dataStorage storage hdefault

/-- A history adds words to names, and nothing else. -/
theorem Table.IsCalm.history {table : Table} (h : table.IsCalm engine) :
    (table.history engine).IsCalm engine where
  name := h.name.finish rfl
  trigram := h.trigram
  columns column hcolumn := by
    rcases List.mem_append.mp hcolumn with hcopy | hadded
    · obtain ⟨original, horiginal, rfl⟩ := List.mem_map.mp hcopy
      exact ⟨(h.columns original horiginal).name, (h.columns original horiginal).type, by simp⟩
    · simp only [List.mem_cons, List.not_mem_nil, or_false] at hadded
      rcases hadded with rfl | rfl
      · exact ⟨calm_technicalColumn h.trigram (calm_of_not_mem (by decide)), calm_timestampType,
          by simp⟩
      · exact ⟨calm_technicalColumn h.trigram (calm_of_not_mem (by decide)), calm_booleanType,
          by simp⟩
  primaryKey := by simp [Table.history]
  uniqueColumns := by simp [Table.history]
  compositeUnique := by simp [Table.history]
  foreignKeys := by simp [Table.history]
  indexedColumns := by simp [Table.history]
  storage := h.storage

/-! ## Statements -/

/-- Statements take their texts from tables, so they are calm if the table is. Likewise for the
other scripts. -/
theorem isCalm_createStatements {c : Graph.Class} {table : Table} (h : table.IsCalm engine)
    {statement : Statement} (hstatement : statement ∈ Schema.createStatements engine c table) :
    statement.IsCalm engine := by
  rcases List.mem_append.mp hstatement with hcreate | hhistory
  · rcases List.mem_cons.mp hcreate with rfl | hsequence
    · exact h
    · rw [Schema.sequenceStatements_eq] at hsequence
      split at hsequence
      · obtain rfl := List.mem_singleton.mp hsequence
        exact h.name
      · exact absurd hsequence List.not_mem_nil
  · split at hhistory
    · simp only [Schema.historyStatements, List.mem_cons, List.not_mem_nil, or_false] at hhistory
      rcases hhistory with rfl | rfl | rfl
      · exact h.history
      · exact ⟨h, h.history⟩
      · exact ⟨h, h.history⟩
    · exact absurd hhistory List.not_mem_nil

theorem isCalm_uniqueStatements {table : Table} (h : table.IsCalm engine) {statement : Statement}
    (hstatement : statement ∈ Schema.uniqueStatements table) : statement.IsCalm engine := by
  rcases List.mem_append.mp hstatement with hsingle | hcomposite
  · obtain ⟨column, hcolumn, rfl⟩ := List.mem_map.mp hsingle
    have hcalm := h.uniqueColumns column hcolumn
    exact ⟨h.name, calm_joined rfl h.name hcalm, by simpa using hcalm⟩
  · split at hcomposite
    · obtain rfl := List.mem_singleton.mp hcomposite
      exact ⟨h.name, ((led_append_calm rfl h.name).finish rfl).calm, h.compositeUnique⟩
    · exact absurd hcomposite List.not_mem_nil

theorem isCalm_typeStatements {table : Table} (h : table.IsCalm engine) {statement : Statement}
    (hstatement : statement ∈ Schema.typeStatements engine table) : statement.IsCalm engine := by
  have hname {ending : String} (hending : isMarked ending = true) :
      Calm engine (table.name ++ ending) := h.name.finish hending
  cases engine with
  | sqlServer =>
      obtain rfl := List.mem_singleton.mp hstatement
      exact ⟨hname rfl, h.columns⟩
  | oracle =>
      simp only [Schema.typeStatements, List.mem_cons, List.not_mem_nil, or_false] at hstatement
      rcases hstatement with rfl | rfl
      · exact ⟨hname rfl, h.columns⟩
      · exact ⟨hname rfl, hname rfl⟩

theorem isCalm_indexStatements (hstorage : ∀ storage ∈ settings.indexStorage, Calm engine storage)
    {table : Table} (h : table.IsCalm engine) {statement : Statement}
    (hstatement : statement ∈ Schema.indexStatements settings table) :
    statement.IsCalm engine := by
  rcases List.mem_append.mp hstatement with hindex | hforeign
  · obtain ⟨column, hcolumn, rfl⟩ := List.mem_map.mp hindex
    have hcalm : Calm engine column := by
      rcases List.mem_append.mp (Schema.mem_indexedColumns.mp hcolumn) with hreference | hindexed
      · obtain ⟨key, hkey, rfl⟩ := List.mem_map.mp hreference
        exact (h.foreignKeys key hkey).column
      · exact h.indexedColumns column hindexed
    exact ⟨h.name, calm_joined rfl h.name hcalm, hcalm, hstorage⟩
  · obtain ⟨key, hkey, rfl⟩ := List.mem_map.mp hforeign
    exact ⟨h.name, h.foreignKeys key hkey⟩

/-- The cells of a row are columns of the class and values of the item. -/
theorem CalmClass.calm_cells {c : Graph.Class} (h : CalmClass engine graph c) {table : Table}
    {item : Seed.Item} (hitem : item ∈ c.items) {cell : String × Cell}
    (hcell : cell ∈ Seeding.cells engine c table item) :
    Calm engine cell.1 ∧ Statement.CalmCell engine cell.2 := by
  obtain ⟨⟨property, column⟩, hproperty, hsome⟩ := List.mem_filterMap.mp hcell
  obtain ⟨hmem, -, hname⟩ := Table.mem_columnProperties.mp hproperty
  have hcolumn := h.columns property hmem column hname
  dsimp only at hsome
  split at hsome
  · next value hvalue =>
    cases hsome
    exact ⟨hcolumn, h.values item hitem value (Catalog.mem_values_of_get? hvalue)⟩
  · split at hsome <;> cases hsome
    exact ⟨hcolumn, trivial⟩

theorem CalmClass.isCalm_rowStatements {c : Graph.Class} (h : CalmClass engine graph c)
    {table : Table} (htable : Calm engine table.name) {statement : Statement}
    (hstatement : statement ∈ Seeding.rowStatements engine c table false c.items) :
    statement.IsCalm engine := by
  rcases Seeding.mem_rowStatements hstatement with ⟨switch, rfl⟩ | ⟨item, hitem, rfl⟩
  · exact htable
  · exact ⟨htable, fun cell hcell => h.calm_cells hitem hcell⟩

/-- What a row is found by is one of its cells. -/
theorem CalmClass.calm_filter {c : Graph.Class} (h : CalmClass engine graph c) {item : Seed.Item}
    (hitem : item ∈ c.items) {column : String} {value : Seed.Value}
    (hfilter : Seeding.filter? c item = some (column, value)) :
    Calm engine column ∧ CalmValue engine value := by
  obtain ⟨property, hmem, -, hname, hfound⟩ := Seeding.exists_of_filter? hfilter
  exact ⟨h.columns property hmem _ hname,
    h.values item hitem _ (Catalog.mem_values_of_get? hfound)⟩

/-- A label is written with the name of the class, which no table has. -/
theorem CalmClass.clear_translations {c : Graph.Class} (h : CalmClass engine graph c)
    (htranslations : Calm engine settings.translationTable) {table : Table}
    (htable : Calm engine table.name) {entry : Entry}
    (hentry : entry ∈ Seeding.translations settings c table) :
    Clear engine (entry.content engine) := by
  obtain ⟨item, hitem, key, hkey, keyColumn, filterColumn, filterValue, language, label, hcolumn,
    hfilter, hlabel, rfl⟩ := Seeding.mem_translations hentry
  obtain ⟨hfilterColumn, hfilterValue⟩ := h.calm_filter hitem hfilter
  obtain ⟨hlanguage, htext⟩ := h.labels item hitem _ hlabel
  exact @Statement.clear_text engine (.insertTranslation _)
    ⟨htranslations, h.name, h.columns key hkey _ hcolumn, hlanguage, htext, htable, hfilterColumn,
      hfilterValue⟩

/-! ## Scripts -/

/-- Everything that complete scripts are made of is clear in a calm model. -/
theorem clear_of_written (h : CalmTexts engine settings graph)
    {tables lists : List (Graph.Class × Table)}
    (hentries : ∀ entry ∈ tables ++ lists,
      CalmClass engine graph entry.1 ∧ entry.2.IsCalm engine)
    {entry : Entry} (hwritten : Written engine settings tables lists entry) :
    Clear engine (entry.content engine) := by
  have hcreated {entry : Graph.Class × Table} (hentry : entry ∈ tables) :=
    hentries entry (List.mem_append_left _ hentry)
  have hfilled {entry : Graph.Class × Table} (hentry : entry ∈ lists) :=
    hentries entry (List.mem_append_right _ hentry)
  cases hwritten with
  | heading hlisted =>
      obtain ⟨hclass, htable⟩ := hentries _ hlisted
      exact (led_append_calm rfl ((hclass.name.next rfl htable.name).finish rfl)).clear
  | create hlisted hstatement =>
      exact Statement.clear_text (isCalm_createStatements (hcreated hlisted).2 hstatement)
  | uniqueKey hlisted hstatement =>
      exact Statement.clear_text (isCalm_uniqueStatements (hcreated hlisted).2 hstatement)
  | index hlisted hstatement =>
      exact Statement.clear_text
        (isCalm_indexStatements h.indexStorage (hcreated hlisted).2 hstatement)
  | type hlisted hstatement =>
      exact Statement.clear_text (isCalm_typeStatements (hcreated hlisted).2 hstatement)
  | row hlisted hstatement =>
      obtain ⟨hclass, htable⟩ := hfilled hlisted
      exact Statement.clear_text (hclass.isCalm_rowStatements htable.name hstatement)
  | translation hlisted hentry =>
      obtain ⟨hclass, htable⟩ := hfilled hlisted
      exact hclass.clear_translations h.translationTable htable.name hentry

/-- A script comes apart into its statements exactly if no line of a comment or statement is the
separator, and all complete scripts do if the texts they hold are calm. -/
theorem separates_generate (engine : Engine) (settings : Settings) (graph : Graph)
    (hcomplete : (generate engine settings graph).error = none) :
    (∀ script ∈ (generate engine settings graph).scripts.toList,
      (script.Separates engine ↔ ∀ entry ∈ script, Clear engine (entry.content engine))) ∧
      (CalmTexts engine settings graph →
        ∀ script ∈ (generate engine settings graph).scripts.toList, script.Separates engine) := by
  refine ⟨fun script _ => Script.separates_iff, fun h script hscript => ?_⟩
  obtain ⟨tables, lists, ids, htables, hids, hlists, hscripts⟩ := exists_complete hcomplete
  rw [hscripts] at hscript
  -- Tables and lists come from persistent classes alike.
  refine Script.separates_iff.mpr fun entry hentry =>
    clear_of_written h (fun entry hlisted => ?_) (written_of_mem hscript hentry)
  obtain ⟨id, hid, hclass, htable⟩ : ∃ id ∈ graph.persistentIds, entry.1 = graph.classAt id ∧
      Schema.table engine settings graph id = .ok entry.2 := by
    rcases List.mem_append.mp hlisted with hlisted | hlisted
    · exact htables.exists_id hlisted
    · obtain ⟨id, hid, hentry⟩ := hlists.exists_id hlisted
      exact ⟨id, List.mem_of_mem_filter (hids.mem_iff.mp hid), hentry⟩
  exact ⟨hclass ▸ h.classes id hid, h.isCalm_table hid htable⟩

/-! ## Labels with line breaks -/

def labelled (label : String) : Seed :=
  Seed.empty.insert "Country" ⟨"Countries", .reference,
    [⟨"France", (Catalog.empty.insert "Id" (.integer 1)).insert "Rank" (.integer 2),
      Catalog.empty.insert "fr" label⟩]⟩

def brokenLine : Seed :=
  labelled "Pays\ngothique"

/-- A label with a line that is a separator. -/
def brokenBatch : Seed :=
  labelled "Pays\ngo\nFrance"

theorem separates_generate_brokenLine :
    ∃ graph found, Reading.read .standard [] [Seeding.registers] = .ok (graph, found) ∧
      (generate .sqlServer Seeding.sampleSettings (graph.addSeed brokenLine)).error = none ∧
      CalmTexts .sqlServer Seeding.sampleSettings (graph.addSeed brokenLine) ∧
      ∀ script ∈ (generate .sqlServer Seeding.sampleSettings
          (graph.addSeed brokenLine)).scripts.toList,
        script.Separates .sqlServer := by
  obtain ⟨graph, found, hread, hchecked⟩ := Reading.exists_read .standard []
    (.cons Seeding.document_registers .nil)
    (P := fun graph _ =>
      (generate .sqlServer Seeding.sampleSettings (graph.addSeed brokenLine)).error == none &&
        decide (CalmTexts .sqlServer Seeding.sampleSettings (graph.addSeed brokenLine)))
    (by decide +kernel)
  simp only [Bool.and_eq_true, beq_iff_eq, decide_eq_true_eq] at hchecked
  obtain ⟨hcomplete, hcalm⟩ := hchecked
  exact ⟨graph, found, hread, hcomplete, hcalm,
    (separates_generate .sqlServer Seeding.sampleSettings _ hcomplete).2 hcalm⟩

/-- Models and seeds without findings may have a text that cuts its own statement in two. -/
theorem exists_broken_batch :
    ∃ graph, Reading.read .standard [] [Seeding.registers] = .ok (graph, []) ∧
      (∀ c ∈ (graph.addSeed brokenBatch).classes,
        Schema.strict.allowlist.skips c.name = false) ∧
      (Check.run Schema.strict (graph.addSeed brokenBatch)).1 = [] ∧
      Check.Seed.check (graph.addSeed brokenBatch) brokenBatch = [] ∧
      Schema.checkIdentifiers .sqlServer Seeding.sampleSettings (graph.addSeed brokenBatch) = [] ∧
      (generate .sqlServer Seeding.sampleSettings (graph.addSeed brokenBatch)).error = none ∧
      ∃ script ∈ (generate .sqlServer Seeding.sampleSettings
          (graph.addSeed brokenBatch)).scripts.toList,
        script.statements.length = 1 ∧ (script.batches .sqlServer).length = 2 := by
  obtain ⟨graph, found, hread, hchecked⟩ := Reading.exists_read .standard []
    (.cons Seeding.document_registers .nil)
    (P := fun graph found =>
      let graph := graph.addSeed brokenBatch
      let generation := generate .sqlServer Seeding.sampleSettings graph
      found == [] && graph.classes.all (fun c => !Schema.strict.allowlist.skips c.name) &&
        (Check.run Schema.strict graph).1 == [] && Check.Seed.check graph brokenBatch == [] &&
        Schema.checkIdentifiers .sqlServer Seeding.sampleSettings graph == [] &&
        generation.error == none &&
        generation.scripts.toList.any fun script =>
          script.statements.length == 1 && (script.batches .sqlServer).length == 2)
    (by decide +kernel)
  simp only [Bool.and_eq_true, List.all_eq_true, List.any_eq_true, Bool.not_eq_true',
    beq_iff_eq] at hchecked
  obtain ⟨⟨⟨⟨⟨⟨rfl, hskip⟩, hclean⟩, hseed⟩, hshort⟩, hcomplete⟩, hbroken⟩ := hchecked
  exact ⟨graph, hread, hskip, hclean, hseed, hshort, hcomplete, hbroken⟩

end ModelSchema.Sql
