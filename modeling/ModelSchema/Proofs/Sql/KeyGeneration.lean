import ModelSchema.Proofs.Sql.Clashes
import ModelSchema.Proofs.Sql.Complete
import ModelSchema.Proofs.Sql.Phrases
import ModelSchema.Proofs.Sql.Spelling

/-!
# Generated keys

Whether a table gets its keys from the engine is decided once, with the table
(`Table.generatesKey_iff`). How it gets them is decided in three places, each of which asks the
engine for a spelling of its own: `Statement.columnDeclaration` marks a column,
`Schema.createStatements` makes a sequence after the table, and `Seeding.cells` asks for the next
number when lists are filled. `keys_agree` says that the three agree in what is written, for each
engine in its own way:

* a column is marked exactly if the table is derived for an engine that numbers it
  (`Column.clause?_eq`);
* the text of a statement creates a sequence exactly if the statement is for one and the engine has
  sequences (`Statement.sequence?_eq`);
* the text of a value asks a sequence only if it stands for the next key
  (`sequenceAsked?_cellText`), and then it asks the one of its own table.
-/

namespace ModelSchema.Sql

open ModelSchema.Graph (Property)

/-! ## What is written about keys

All of it is read off texts, so that a statement or a value that is spelled wrongly, or not at all,
does not count. -/

/-- The name in a text that creates a sequence. -/
def sequenceCreated? (text : String) : Option String :=
  Text.between? "create sequence " " start with 1000 cache 20" text

def sequenceAsked? (value : String) : Option String :=
  Text.between? "" ".nextval" value

/-- The sequence that the text of a statement creates. -/
def Statement.sequence? (engine : Engine) (statement : Statement) : Option String :=
  sequenceCreated? (statement.text engine)

def Script.sequences (engine : Engine) (script : Script) : List String :=
  script.statements.filterMap (Statement.sequence? engine)

/-- The sequences that the values of a row ask for numbers. -/
def Statement.asked (engine : Engine) : Statement → List String
  | insertRow table cells =>
    cells.filterMap fun cell => sequenceAsked? (cellText engine table cell.2)
  | _ => []

/-- What the declaration of a column says between the type and the default. -/
def Column.clause? (engine : Engine) (column : Column) : Option String :=
  Text.between? ("\t" ++ engine.quote column.name ++ " " ++ column.type)
    ((match column.default with
      | some default => " default " ++ default
      | none => "")
      ++ if column.isRequired then " not null" else " null")
    (Statement.columnDeclaration engine column)

/-- The columns that are declared as numbered by the engine. -/
def Table.numbered (engine : Engine) (table : Table) : List Column :=
  table.columns.filter fun column => column.clause? engine == some " identity(1, 1)"

def Table.keyColumns (c : Graph.Class) : List (Property × String) :=
  (Table.columnProperties c).filter (·.1.isPrimaryKey)

/-- The statements that create what belongs to a class agree on its key. -/
structure KeysAgree (engine : Engine) (graph : Graph) (c : Graph.Class) (table : Table)
    (part : List Statement) : Prop where
  /-- Besides the table only its history is created. -/
  created : part.filterMap Statement.created? =
    table :: if c.isHistorized then [table.history engine] else []
  /-- A key is generated if it is a single whole number, unless the class is a closed list. -/
  generated : table.hasGeneratedKey = true ↔
    c.stereotype ≠ .static ∧
      ∃ key column, Table.keyColumns c = [(key, column)] ∧ Table.isIntegral graph key = true
  /-- An engine that numbers rows does so for the only key column. -/
  numbered : engine = .sqlServer → table.hasGeneratedKey = true →
    ∃ column, table.numbered engine = [column] ∧ table.primaryKey = [column.name]
  /-- Nothing else is numbered, in the history neither. -/
  unnumbered : ∀ other ∈ part.filterMap Statement.created?,
    engine = .oracle ∨ other.hasGeneratedKey = false →
      ∀ column ∈ other.columns, column.isIdentity = false ∧ column.clause? engine = some ""
  /-- An engine with sequences gets one for a generated key. -/
  sequences : part.filterMap (Statement.sequence? engine) =
    if engine = .oracle ∧ table.hasGeneratedKey = true then [Engine.sequenceName table.name]
    else []

/-! ## Texts -/

section Texts

variable {engine : Engine}

/-- `Statement.columnDeclaration` asks the engine for a clause, and writes it for marked columns. -/
theorem Column.clause?_eq (column : Column) :
    column.clause? engine =
      some (if column.isIdentity && engine == .sqlServer then " identity(1, 1)" else "") := by
  rw [clause?, Text.between?_eq_some_iff, ← String.append_assoc]
  obtain ⟨name, type, isRequired, isIdentity, default⟩ := column
  cases engine <;> cases isIdentity <;> cases default <;> rfl

def Statement.sequenceTable? : Statement → Option String
  | createSequence table => some table
  | _ => none

/-- Among all texts of statements, only those of `createSequence` read as the creation of a
sequence, and only for the engine that has sequences. -/
theorem Statement.sequence?_eq (statement : Statement) :
    statement.sequence? engine =
      match engine with
      | .sqlServer => none
      | .oracle => statement.sequenceTable?.map Engine.sequenceName := by
  obtain ⟨rest, htext⟩ := leads_text engine statement
  cases statement with
  | createSequence table =>
      cases engine with
      | sqlServer => exact (by decide : sequenceCreated? "" = none)
      | oracle => exact Text.between?_eq_some_iff.mpr rfl
  | identityInsert table on =>
      cases engine with
      | sqlServer =>
          rw [sequence?, htext]
          dsimp only [lead]
          exact Text.between?_eq_none (by decide)
      | oracle => exact (by decide : sequenceCreated? "" = none)
  | _ =>
      rw [sequence?, htext]
      cases engine <;> dsimp only [lead] <;> exact Text.between?_eq_none (by decide)

/-- No value of an item reads as a question to a sequence: numbers have other characters, and texts
end with a quote. -/
theorem sequenceAsked?_literal (value : Seed.Value) : sequenceAsked? (literal value) = none := by
  have hnumeral {text : String} (h : ∀ c ∈ text.toList, isNumeral c = true) :
      sequenceAsked? text = none := by
    rw [Option.eq_none_iff_forall_ne_some]
    intro name hname
    rw [sequenceAsked?, Text.between?_eq_some_iff] at hname
    refine absurd (h 'x' ?_) (by decide)
    rw [hname, String.toList_append]
    exact List.mem_append_right _ (by decide)
  cases value with
  | null => decide
  | bool b => cases b <;> decide
  | integer n => exact hnumeral fun _ => isNumeral_of_mem_int
  | double f => exact hnumeral fun _ => isNumeral_of_mem_double
  | text s =>
      rw [Option.eq_none_iff_forall_ne_some]
      intro name hname
      rw [sequenceAsked?, Text.between?_eq_some_iff] at hname
      exact absurd hname (Text.not_ends_of_differAtEnd (by decide))

/-- A value asks the sequence of its table if it is the next key, and none otherwise. -/
theorem sequenceAsked?_cellText (table : String) (cell : Cell) :
    sequenceAsked? (Statement.cellText engine table cell) =
      if cell = .nextKey ∧ engine = .oracle then some (Engine.sequenceName table) else none := by
  cases cell with
  | literal value =>
      rw [if_neg (by simp)]
      exact sequenceAsked?_literal value
  | nextKey =>
      cases engine with
      | sqlServer => exact (by decide : sequenceAsked? "" = none)
      | oracle =>
          refine Text.between?_eq_some_iff.mpr ?_
          rw [String.empty_append]
          rfl

end Texts

/-! ## Tables -/

namespace Table

variable {engine : Engine} {storage : Option String} {graph : Graph} {c : Graph.Class}
  {table : Table}

/-- The properties of the key that become columns. `generatesKey` looks at these, the primary key of
the table at their names. -/
theorem map_fst_keyColumns (c : Graph.Class) :
    (keyColumns c).map (·.1) = c.primaryKeys.filter (·.isColumn) := by
  rw [keyColumns, columnProperties, Graph.Class.primaryKeys]
  induction c.properties with
  | nil => rfl
  | cons property rest ih =>
      by_cases hcolumn : property.isColumn = true
      · -- What becomes a column has a name for it.
        obtain ⟨name, hname⟩ : ∃ name, property.column = some name := by
          rw [← Option.isSome_iff_exists]
          simp only [Graph.Property.isColumn, Bool.and_eq_true] at hcolumn
          exact hcolumn.1.2
        rw [List.filter_cons_of_pos hcolumn, List.filterMap_cons_some (by rw [hname]; rfl)]
        by_cases hkey : property.isPrimaryKey = true
        · simp [hkey, hcolumn, ih]
        · simp [hkey, ih]
      · by_cases hkey : property.isPrimaryKey = true <;> simp [hkey, hcolumn, ih]

/-- `Table.generatesKey` in terms of columns: one key, of whole numbers, and no static list. -/
theorem generatesKey_iff :
    generatesKey graph c = true ↔
      c.stereotype ≠ .static ∧
        ∃ key column, keyColumns c = [(key, column)] ∧ isIntegral graph key = true := by
  have hkeys := map_fst_keyColumns c
  rw [generatesKey]
  constructor
  · intro h
    split at h
    · next key hkey =>
      obtain ⟨⟨found, column⟩, honly, hfound⟩ := List.map_eq_singleton_iff.mp (hkeys.trans hkey)
      cases hfound
      simp only [Bool.and_eq_true, bne_iff_ne] at h
      exact ⟨h.1, found, column, honly, h.2⟩
    · cases h
  · rintro ⟨hopen, key, column, honly, hintegral⟩
    rw [← hkeys, honly]
    simp [hopen, hintegral]

/-- The primary key of the table has the names of the key columns. -/
theorem primaryKey_ofClass (h : ofClass engine storage graph c = .ok table) :
    table.primaryKey = (keyColumns c).map (·.2) := by
  obtain ⟨columns, hderives⟩ := exists_columns h
  exact hderives.primaryKey

/-- Technical columns are never numbered. -/
theorem isIdentity_of_technical {columns : List Column}
    (hderives : Derives engine graph c table columns) :
    table.columns.filter (·.isIdentity) = columns.filter (·.isIdentity) := by
  have haudit : (auditColumns engine c).filter (·.isIdentity) = [] := by
    rw [auditColumns]
    split <;> rfl
  have hexport : ((exportColumn? c).toList.map (technical engine)).filter (·.isIdentity) = [] := by
    cases exportColumn? c <;> rfl
  rw [hderives.columns, List.filter_append, List.filter_append, haudit, hexport]
  simp only [List.append_nil]

/-- If the engine numbers keys, the marked columns are those of the key. -/
theorem forall₂_identity {columns : List Column} (hderives : Derives engine graph c table columns)
    (hgenerated : generatesKey graph c = true) (hengine : engine.keyGeneration = .identity) :
    List.Forall₂ (fun entry column => column.name = entry.2) (keyColumns c)
      (table.columns.filter (·.isIdentity)) := by
  rw [isIdentity_of_technical hderives, keyColumns]
  refine (List.rel_filter ?_ hderives.properties).imp fun entry column hderived =>
    (columnOf_eq_ok hderived).1
  intro entry column hderived
  show entry.1.isPrimaryKey = true ↔ column.isIdentity = true
  rw [(columnOf_marks hderived).1, hgenerated, hengine]
  simp

/-- A column is marked only for a generated key and an engine that numbers rows. -/
theorem isIdentity_eq_false (h : ofClass engine storage graph c = .ok table)
    (hno : engine.keyGeneration = .sequence ∨ table.hasGeneratedKey = false) {column : Column}
    (hcolumn : column ∈ table.columns) : column.isIdentity = false := by
  rcases exists_property_of_column h hcolumn with ⟨property, -, hderived⟩ | ⟨hplain, -⟩
  · rw [(columnOf_marks hderived).1, ← hasGeneratedKey_ofClass h]
    rcases hno with hengine | hgenerated
    · simp [hengine]
    · simp [hgenerated]
  · exact hplain

/-- A history has the rows of a table several times over, so it does not number them again. -/
theorem isIdentity_history {column : Column} (h : column ∈ (table.history engine).columns) :
    column.isIdentity = false := by
  rw [history, List.mem_append] at h
  rcases h with hcopied | hadded
  · obtain ⟨_, -, rfl⟩ := List.mem_map.mp hcopied
    rfl
  · simp only [List.mem_cons, List.not_mem_nil, or_false] at hadded
    rcases hadded with rfl | rfl <;> rfl

end Table

/-! ## Statements -/

variable {engine : Engine} {settings : Settings} {graph : Graph}

/-- Besides the table itself, `createStatements` creates its history if there is one. -/
theorem created_createStatements (c : Graph.Class) (table : Table) :
    (Schema.createStatements engine c table).filterMap Statement.created? =
      table :: if c.isHistorized then [table.history engine] else [] := by
  rw [Schema.createStatements, Schema.sequenceStatements_eq]
  split <;> split <;> rfl

/-- What `Schema.sequenceStatements` writes reads as the sequence of the table; what stands around
it creates none. -/
theorem sequences_createStatements (c : Graph.Class) (table : Table) :
    (Schema.createStatements engine c table).filterMap (Statement.sequence? engine) =
      if engine = .oracle ∧ table.hasGeneratedKey = true then [Engine.sequenceName table.name]
      else [] := by
  simp only [Statement.sequence?_eq]
  cases engine with
  | sqlServer => exact (List.filterMap_eq_nil_iff.mpr fun _ _ => rfl).trans (if_neg (by simp)).symm
  | oracle =>
      rw [Schema.createStatements, Schema.sequenceStatements_eq, Table.usesSequence]
      cases table.hasGeneratedKey <;> cases c.isHistorized <;> rfl

/-- If the engine numbers keys, the one column that is declared so is the primary key. -/
theorem exists_numbered {id : ClassId} {table : Table}
    (h : Schema.table .sqlServer settings graph id = .ok table)
    (hkey : Table.generatesKey graph (graph.classAt id) = true) :
    ∃ column, table.numbered .sqlServer = [column] ∧ table.primaryKey = [column.name] := by
  obtain ⟨columns, hderives⟩ := Table.exists_columns h
  obtain ⟨-, key, name, honly, -⟩ := Table.generatesKey_iff.mp hkey
  have hmarked := Table.forall₂_identity hderives hkey rfl
  rw [honly, List.forall₂_cons_left_iff] at hmarked
  obtain ⟨found, _, hname, hnone, hcolumns⟩ := hmarked
  rw [List.forall₂_nil_left_iff] at hnone
  refine ⟨found, ?_, ?_⟩
  · rw [hnone] at hcolumns
    rw [← hcolumns, Table.numbered]
    refine List.filter_congr fun column _ => ?_
    rw [Column.clause?_eq]
    cases column.isIdentity <;> decide
  · rw [Table.primaryKey_ofClass h, honly, hname]
    rfl

/-- The five fields for the statements of one class. The history is looked at too, as it has a copy
of each column. -/
theorem keysAgree_createStatements {id : ClassId} {table : Table}
    (h : Schema.table engine settings graph id = .ok table) :
    KeysAgree engine graph (graph.classAt id) table
      (Schema.createStatements engine (graph.classAt id) table) := by
  have hgenerated := Table.hasGeneratedKey_ofClass h
  refine ⟨created_createStatements .., ?_, ?_, ?_, sequences_createStatements ..⟩
  · rw [hgenerated]
    exact Table.generatesKey_iff
  · rintro rfl hkey
    exact exists_numbered h (hgenerated ▸ hkey)
  · intro other hother hno column hcolumn
    suffices hplain : column.isIdentity = false by
      refine ⟨hplain, ?_⟩
      rw [Column.clause?_eq, hplain, Bool.false_and, if_neg Bool.false_ne_true]
    rw [created_createStatements, List.mem_cons] at hother
    rcases hother with rfl | hhistory
    · refine Table.isIdentity_eq_false h (hno.imp_left ?_) hcolumn
      rintro rfl
      rfl
    · split at hhistory
      · exact Table.isIdentity_history (List.mem_singleton.mp hhistory ▸ hcolumn)
      · exact absurd hhistory List.not_mem_nil

/-! ## Scripts -/

/-- For all classes, by their parts of the script. -/
theorem Derived.exists_parts {ids : List ClassId} {entries : List (Graph.Class × Table)}
    (h : Derived engine settings graph ids entries) :
    List.Forall₂ (fun id part => ∃ table, Schema.table engine settings graph id = .ok table ∧
        KeysAgree engine graph (graph.classAt id) table part)
      ids (entries.map fun entry => Schema.createStatements engine entry.1 entry.2) := by
  rw [List.forall₂_map_right_iff]
  refine h.imp fun id entry hentry => ⟨entry.2, hentry.2, ?_⟩
  rw [hentry.1]
  exact keysAgree_createStatements hentry.2

/-- The script that creates tables is cut into the parts of the classes. -/
theorem statements_create (tables lists : List (Graph.Class × Table)) :
    (Scripts.complete engine settings tables lists).create.statements =
      (tables.map fun entry => Schema.createStatements engine entry.1 entry.2).flatten := by
  rw [← List.flatMap_def]
  simp only [Scripts.complete, Script.statements, List.filterMap_flatMap]
  refine List.flatMap_congr fun entry _ => ?_
  rw [Schema.heading, List.filterMap_cons_none rfl]
  exact Schema.statements_map _

/-- Unique keys, indexes with foreign keys and types are added to tables that exist. -/
theorem not_created_uniqueStatements {table : Table} {statement : Statement}
    (h : statement ∈ Schema.uniqueStatements table) :
    statement.created? = none ∧ statement.sequenceTable? = none := by
  rcases List.mem_append.mp h with hsingle | hmultiple
  · obtain ⟨_, -, rfl⟩ := List.mem_map.mp hsingle
    exact ⟨rfl, rfl⟩
  · split at hmultiple
    · rw [List.mem_singleton.mp hmultiple]
      exact ⟨rfl, rfl⟩
    · exact absurd hmultiple List.not_mem_nil

theorem not_created_indexStatements {table : Table} {statement : Statement}
    (h : statement ∈ Schema.indexStatements settings table) :
    statement.created? = none ∧ statement.sequenceTable? = none := by
  rcases List.mem_append.mp h with h | h <;> obtain ⟨_, -, rfl⟩ := List.mem_map.mp h <;>
    exact ⟨rfl, rfl⟩

theorem not_created_typeStatements {table : Table} {statement : Statement}
    (h : statement ∈ Schema.typeStatements engine table) :
    statement.created? = none ∧ statement.sequenceTable? = none := by
  cases engine <;>
    simp only [Schema.typeStatements, List.mem_cons, List.not_mem_nil, or_false] at h
  · rw [h]
    exact ⟨rfl, rfl⟩
  · rcases h with rfl | rfl <;> exact ⟨rfl, rfl⟩

/-- Tables and sequences are created by one script only. -/
theorem not_created_rest (tables lists : List (Graph.Class × Table)) {script : Script}
    (h : script ∈ (Scripts.complete engine settings tables lists).toList.tail)
    {statement : Statement} (hstatement : statement ∈ script.statements) :
    statement.created? = none ∧ statement.sequence? engine = none := by
  suffices h : statement.created? = none ∧ statement.sequenceTable? = none by
    rw [Statement.sequence?_eq, h.2]
    exact ⟨h.1, by cases engine <;> rfl⟩
  obtain ⟨entry, hentry, hsame⟩ := List.mem_filterMap.mp hstatement
  cases entry <;> cases hsame
  simp only [Scripts.toList, Scripts.complete, List.tail_cons, List.mem_cons, List.not_mem_nil,
    or_false] at h
  rcases h with rfl | rfl | rfl | rfl | rfl <;>
    obtain ⟨⟨c, table⟩, -, hmem⟩ := List.mem_flatMap.mp hentry
  · obtain ⟨_, hunique, heq⟩ := List.mem_map.mp hmem
    cases heq
    exact not_created_uniqueStatements hunique
  · obtain ⟨_, hindex, heq⟩ := List.mem_map.mp hmem
    cases heq
    exact not_created_indexStatements hindex
  · obtain ⟨_, htype, heq⟩ := List.mem_map.mp hmem
    cases heq
    exact not_created_typeStatements htype
  · rcases List.mem_cons.mp hmem with heq | hrow
    · cases heq
    · obtain ⟨_, hrow, heq⟩ := List.mem_map.mp hrow
      cases heq
      rcases Seeding.mem_rowStatements hrow with ⟨_, rfl⟩ | ⟨_, -, rfl⟩ <;> exact ⟨rfl, rfl⟩
  · obtain ⟨_, _, _, _, _, _, _, _, _, _, _, _, heq⟩ := Seeding.mem_translations hmem
    cases heq
    exact ⟨rfl, rfl⟩

/-- Rows ask the sequence of their table, and only if the table has one. -/
theorem mem_asked_row {c : Graph.Class} {table : Table} {on : Bool} {items : List Seed.Item}
    {statement : Statement}
    (h : statement ∈ Seeding.rowStatements engine c table on items) {name : String}
    (hname : name ∈ statement.asked engine) :
    table.usesSequence engine = true ∧ name = Engine.sequenceName table.name := by
  rcases Seeding.mem_rowStatements h with ⟨_, rfl⟩ | ⟨item, -, rfl⟩
  · exact absurd hname List.not_mem_nil
  · obtain ⟨cell, hcell, hasked⟩ := List.mem_filterMap.mp hname
    rw [sequenceAsked?_cellText] at hasked
    split at hasked
    · next hnext =>
      cases hasked
      -- The next key stands only where `Seeding.cells` has found that the table uses a sequence.
      obtain ⟨⟨property, column⟩, -, hsome⟩ := List.mem_filterMap.mp hcell
      dsimp only at hsome
      split at hsome
      · cases hsome
        cases hnext.1
      · split at hsome
        · next hkey =>
          rw [Bool.and_assoc, Table.usesSequence_and_isSome_nextValue?] at hkey
          exact ⟨(Bool.and_eq_true_iff.mp hkey).2, rfl⟩
        · cases hsome
    · cases hasked

/-- Whatever asks a sequence is a row of a list. -/
theorem Written.exists_list {tables lists : List (Graph.Class × Table)} {statement : Statement}
    (h : Written engine settings tables lists (.statement statement)) {name : String}
    (hname : name ∈ statement.asked engine) :
    ∃ entry ∈ lists, entry.2.usesSequence engine = true ∧
      name = Engine.sequenceName entry.2.name := by
  cases statement with
  | insertRow table cells =>
      cases h with
      | create _ hmem =>
          simp [Schema.createStatements, Schema.sequenceStatements,
            Schema.historyStatements] at hmem
      | uniqueKey _ hmem => simp [Schema.uniqueStatements] at hmem
      | index _ hmem => simp [Schema.indexStatements] at hmem
      | type _ hmem => cases engine <;> simp [Schema.typeStatements] at hmem
      | row hlisted hmem => exact ⟨_, hlisted, mem_asked_row hmem hname⟩
      | translation _ hmem =>
          obtain ⟨_, _, _, _, _, _, _, _, _, _, _, _, heq⟩ := Seeding.mem_translations hmem
          cases heq
  | _ => exact absurd hname List.not_mem_nil

/-- A table that asks a sequence has had one created: `sequenceStatements` and `cells` ask the same
question, `Table.usesSequence`. -/
theorem mem_sequences_create {ids : List ClassId} {tables : List (Graph.Class × Table)}
    (htables : Derived engine settings graph ids tables) (lists : List (Graph.Class × Table))
    {id : ClassId} (hid : id ∈ ids) {table : Table}
    (htable : Schema.table engine settings graph id = .ok table)
    (huses : table.usesSequence engine = true) :
    Engine.sequenceName table.name ∈
      (Scripts.complete engine settings tables lists).create.sequences engine := by
  obtain ⟨⟨c, found⟩, hlisted, rfl, hfound⟩ := exists_of_forall₂ htables.flip id hid
  rw [htable, Except.ok.injEq] at hfound
  subst hfound
  rw [Script.sequences, statements_create, List.mem_filterMap]
  refine ⟨.createSequence table.name, List.mem_flatten_of_mem (List.mem_map_of_mem hlisted) ?_, ?_⟩
  · simp [Schema.createStatements, Schema.sequenceStatements_eq, huses]
  · rw [Statement.sequence?_eq]
    cases engine with
    | sqlServer => simp [Table.usesSequence, Engine.keyGeneration] at huses
    | oracle => rfl

/-- In complete scripts every persistent class has its own statements in the script that creates
tables, and they agree on its key. No other script creates a table or a sequence. A value asks a
sequence only where the engine has sequences, and every sequence that is asked has been created. All
of this is about the texts that are written. -/
theorem keys_agree (engine : Engine) (settings : Settings) (graph : Graph)
    (h : (generate engine settings graph).error = none) :
    (∃ parts, (generate engine settings graph).scripts.create.statements = parts.flatten ∧
      List.Forall₂ (fun id part => ∃ table, Schema.table engine settings graph id = .ok table ∧
        KeysAgree engine graph (graph.classAt id) table part) graph.persistentIds parts) ∧
    (∀ script ∈ (generate engine settings graph).scripts.toList.tail,
      script.created = [] ∧ script.sequences engine = []) ∧
    (engine = .sqlServer →
      ∀ script ∈ (generate engine settings graph).scripts.toList, script.sequences engine = []) ∧
    ∀ script ∈ (generate engine settings graph).scripts.toList, ∀ statement ∈ script.statements,
      ∀ name ∈ statement.asked engine, engine = .oracle ∧
        name ∈ (generate engine settings graph).scripts.create.sequences engine := by
  obtain ⟨tables, lists, ids, htables, hids, hlists, hscripts⟩ := exists_complete h
  rw [hscripts]
  refine ⟨⟨_, statements_create tables lists, htables.exists_parts⟩, fun script hscript => ?_,
    ?_, ?_⟩
  · rw [Script.created, Script.sequences, List.filterMap_eq_nil_iff, List.filterMap_eq_nil_iff]
    exact ⟨fun _ hmem => (not_created_rest tables lists hscript hmem).1,
      fun _ hmem => (not_created_rest tables lists hscript hmem).2⟩
  · rintro rfl script -
    exact List.filterMap_eq_nil_iff.mpr fun statement _ => statement.sequence?_eq
  intro script hscript statement hstatement name hname
  obtain ⟨entry, hentry, hsame⟩ := List.mem_filterMap.mp hstatement
  cases entry <;> cases hsame
  obtain ⟨⟨c, table⟩, hlisted, huses, rfl⟩ := (written_of_mem hscript hentry).exists_list hname
  -- A list is a persistent class, so its table has been created before.
  obtain ⟨id, hid, -, htable⟩ := hlists.exists_id hlisted
  have hpersistent : id ∈ graph.persistentIds := List.mem_of_mem_filter (hids.mem_iff.mp hid)
  refine ⟨?_, mem_sequences_create htables lists hpersistent htable huses⟩
  cases engine with
  | sqlServer => simp [Table.usesSequence, Engine.keyGeneration] at huses
  | oracle => rfl

theorem keys_agree_sampleLists :
    (generate .oracle Seeding.sampleSettings Seeding.sampleLists).error = none ∧
    (generate .oracle Seeding.sampleSettings Seeding.sampleLists).scripts.create.sequences .oracle =
      ["SEQ_SHADE", "SEQ_COLOR"] ∧
    (generate .oracle Seeding.sampleSettings Seeding.sampleLists).scripts.data.statements.flatMap
      (Statement.asked .oracle) = ["SEQ_SHADE", "SEQ_SHADE"] ∧
    (∃ parts, (generate .oracle Seeding.sampleSettings
        Seeding.sampleLists).scripts.create.statements = parts.flatten ∧
      List.Forall₂ (fun id part => ∃ table,
          Schema.table .oracle Seeding.sampleSettings Seeding.sampleLists id = .ok table ∧
          KeysAgree .oracle Seeding.sampleLists (Seeding.sampleLists.classAt id) table part)
        Seeding.sampleLists.persistentIds parts) ∧
    (∀ script ∈ (generate .oracle Seeding.sampleSettings Seeding.sampleLists).scripts.toList.tail,
      script.created = [] ∧ script.sequences .oracle = []) ∧
    ∀ script ∈ (generate .oracle Seeding.sampleSettings Seeding.sampleLists).scripts.toList,
      ∀ statement ∈ script.statements, ∀ name ∈ statement.asked .oracle, name ∈
        (generate .oracle Seeding.sampleSettings
          Seeding.sampleLists).scripts.create.sequences .oracle := by
  have hcomplete : (generate .oracle Seeding.sampleSettings Seeding.sampleLists).error = none := by
    decide +kernel
  obtain ⟨hparts, hrest, -, hasked⟩ :=
    keys_agree .oracle Seeding.sampleSettings Seeding.sampleLists hcomplete
  exact ⟨hcomplete, by decide +kernel, by decide +kernel, hparts, hrest,
    fun script hscript statement hstatement name hname =>
      (hasked script hscript statement hstatement name hname).2⟩

end ModelSchema.Sql
