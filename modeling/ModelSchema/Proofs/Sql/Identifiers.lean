import ModelSchema.Proofs.Sql.Overflow
import ModelSchema.Proofs.Sql.Tables

/-!
# Identifiers

The names that a table gives rise to are derived in two places: `Table.identifiers` lists them, so
that their length can be checked beforehand, and the statements of the scripts give them to what
they create. The two must not drift apart: a name that the list misses escapes the limit of the
engine, and one that no statement gives is a false alarm.

* `Statement.creates` says which names a statement gives, and to what; the text of the statement
  spells them so (`Statement.spells_of_creates`).
* For every class, the names that its statements give are those in the list
  (`Schema.mem_identifiers_iff`).
* The schema scripts hold the statements of the persistent classes and no others
  (`Schema.mem_written_iff`), so complete scripts keep to the limit (`Schema.identifiers_cover`).
-/

namespace ModelSchema.Sql

/-! ## Names in texts -/

/-- A text has another one somewhere in it. Enough to say that a name is not only computed but
written, with the words around it that give it its meaning. -/
def Spells (text part : String) : Prop :=
  ∃ before after, text = before ++ part ++ after

theorem Spells.refl (text : String) : Spells text text :=
  ⟨"", "", by simp⟩

/-- What a part spells, the whole spells. -/
theorem Spells.trans {text part piece : String} (h : Spells text part) (hpart : Spells part piece) :
    Spells text piece := by
  obtain ⟨before, after, rfl⟩ := h
  obtain ⟨first, last, rfl⟩ := hpart
  exact ⟨before ++ first, last ++ after, by simp only [String.append_assoc]⟩

theorem Spells.append_right {text part : String} (h : Spells text part) (more : String) :
    Spells (text ++ more) part :=
  Spells.trans ⟨"", more, by rw [String.empty_append]⟩ h

/-- What follows a text does not change what it spells. -/
theorem Spells.followed {text part : String} (h : Spells text part) (pieces : List String) :
    Spells (pieces.foldl (· ++ ·) text) part := by
  induction pieces generalizing text with
  | nil => exact h
  | cons piece rest ih => exact ih (h.append_right piece)

theorem Spells.append_left {text part : String} (h : Spells text part) (more : String) :
    Spells (more ++ text) part :=
  Spells.trans ⟨more, "", by rw [String.append_empty]⟩ h

/-- The shape of most statements: a name between two phrases, with something before. -/
theorem spells_last (text before name after : String) :
    Spells (text ++ before ++ name ++ after) (before ++ name ++ after) :=
  ⟨text, "", by simp only [String.append_assoc, String.append_empty]⟩

/-- Every part of a joined text stands in it. -/
theorem spells_join {separator part : String} {parts : List String} (h : part ∈ parts) :
    Spells (Text.join separator parts) part := by
  induction parts with
  | nil => exact absurd h List.not_mem_nil
  | cons first rest ih =>
      cases rest with
      | nil =>
          cases List.mem_singleton.mp h
          exact .refl part
      | cons second rest =>
          show Spells (first ++ separator ++ Text.join separator (second :: rest)) part
          rcases List.mem_cons.mp h with rfl | h
          · exact ((Spells.refl part).append_right _).append_right _
          · exact (ih h).append_left _

/-- What a name is given to. -/
inductive Named where
  | table
  | column
  | primaryKey
  | unique
  | foreignKey
  | index
  | trigger
  | sequence
  | tableType
  | objectType
  | collectionType
deriving DecidableEq, Repr

namespace Named

def before (engine : Engine) : Named → String
  | table => "create table "
  | column => "\t"
  | primaryKey => "\tconstraint "
  | unique => " add constraint "
  | foreignKey => " add constraint "
  | index => "create index "
  | trigger =>
    match engine with
    | .sqlServer => "create trigger "
    | .oracle => "create or replace trigger "
  | sequence => "create sequence "
  | tableType => "create type "
  | objectType => "create or replace type "
  | collectionType => "create or replace type "

/-- The words after a name. -/
def after (engine : Engine) : Named → String
  | table => " (\n"
  | column => " "
  | primaryKey => " primary key"
  | unique => " unique ("
  | foreignKey => " foreign key ("
  | index => " on "
  | trigger =>
    match engine with
    | .sqlServer => " on "
    | .oracle => " after "
  | sequence => " start with 1000 cache 20"
  | tableType => " as table (\n"
  | objectType => " as object (\n"
  | collectionType => " as table of "

/-- How a statement spells the name of what it creates. -/
def phrase (engine : Engine) (named : Named) (name : String) : String :=
  named.before engine ++ engine.quote name ++ named.after engine

end Named

namespace Statement

def columnNames (columns : List Column) : List (Named × String) :=
  columns.map fun column => (.column, column.name)

/-- The names that a statement gives to what it creates. Statements that fill tables give none, and
neither does one that the engine does not have. -/
def creates (engine : Engine) : Statement → List (Named × String)
  | createTable table =>
    (.table, table.name) :: columnNames table.columns
      ++ if table.primaryKey.isEmpty then [] else [(.primaryKey, Table.primaryKeyName table.name)]
  | createSequence table =>
    if (engine.sequenceStatement? table).isSome then [(.sequence, Engine.sequenceName table)]
    else []
  | createTrigger table _ event => [(.trigger, Table.triggerName table.name event.short)]
  | addUnique _ name _ => [(.unique, name)]
  | createTableType name columns => (.tableType, name) :: columnNames columns
  | createObjectType name columns => (.objectType, name) :: columnNames columns
  | createCollectionType name _ => [(.collectionType, name)]
  | createIndex _ name _ _ => [(.index, name)]
  | addForeignKey table key => [(.foreignKey, Table.foreignKeyName table key.column)]
  | identityInsert _ _ => []
  | insertRow _ _ => []
  | insertTranslation _ => []

variable {engine : Engine}

/-- A declaration begins with the name of its column. -/
theorem spells_columnDeclaration (column : Column) :
    Spells (columnDeclaration engine column) (Named.column.phrase engine column.name) := by
  exact (Spells.refl _).followed [_, _, _, _]

theorem spells_typeColumns {columns : List Column} {named : Named} {name : String}
    (h : (named, name) ∈ columnNames columns) :
    Spells (typeColumns engine columns) (named.phrase engine name) := by
  obtain ⟨column, hcolumn, heq⟩ := List.mem_map.mp h
  cases heq
  refine (spells_join (List.mem_map_of_mem hcolumn)).trans ?_
  exact (Spells.refl _).append_right _

/-- A new table names its columns and its primary key on lines of their own. -/
theorem spells_tableText {table : Table} {line part : String}
    (hline : line ∈ tableLines engine table) (h : Spells line part) :
    Spells (tableText engine table) part :=
  ((((spells_join hline).trans h).append_left _).append_right _).append_right _

/-- The table, its columns and its primary key. -/
theorem spells_createTable {table : Table} {named : Named} {name : String}
    (h : (named, name) ∈ (createTable table).creates engine) :
    Spells (tableText engine table) (named.phrase engine name) := by
  rcases List.mem_append.mp h with h | h
  · rcases List.mem_cons.mp h with heq | h
    · cases heq
      exact (Spells.refl _).followed [_, _, _]
    · obtain ⟨column, hcolumn, heq⟩ := List.mem_map.mp h
      cases heq
      exact spells_tableText (List.mem_append_left _ (List.mem_map_of_mem hcolumn))
        (spells_columnDeclaration column)
  · split at h
    · exact absurd h List.not_mem_nil
    · next hkey =>
      cases List.mem_singleton.mp h
      obtain ⟨line, hline, hspells⟩ : ∃ line ∈ tableLines engine table,
          Spells line (Named.primaryKey.phrase engine (Table.primaryKeyName table.name)) := by
        rw [tableLines, if_neg hkey]
        exact ⟨_, List.mem_append_right _ List.mem_cons_self,
          (Spells.refl _).followed [_, _, _, _]⟩
      exact spells_tableText hline hspells

/-- The text of a statement spells the names that it gives. One case for each kind of statement. -/
theorem spells_of_creates {statement : Statement} {named : Named} {name : String}
    (h : (named, name) ∈ statement.creates engine) :
    Spells (statement.text engine) (named.phrase engine name) := by
  cases statement with
  | createTable table => exact spells_createTable h
  | createSequence table =>
      cases engine with
      | sqlServer => exact absurd h List.not_mem_nil
      | oracle =>
          cases List.mem_singleton.mp h
          exact .refl _
  | createTrigger table history event =>
      cases List.mem_singleton.mp h
      cases engine with
      | sqlServer => exact (Spells.refl _).followed [_, _, _, _, _, _, _, _, _, _]
      | oracle => exact (Spells.refl _).followed [_, _, _, _, _, _, _, _, _, _]
  | addUnique table label columns =>
      cases List.mem_singleton.mp h
      exact (spells_last _ _ _ _).followed [_, _]
  | createTableType label columns =>
      rcases List.mem_cons.mp h with heq | h
      · cases heq
        exact (Spells.refl _).followed [_, _]
      · exact ((spells_typeColumns h).append_left _).append_right _
  | createObjectType label columns =>
      rcases List.mem_cons.mp h with heq | h
      · cases heq
        exact (Spells.refl _).followed [_, _]
      · exact ((spells_typeColumns h).append_left _).append_right _
  | createCollectionType label element =>
      cases List.mem_singleton.mp h
      exact (Spells.refl _).append_right _
  | createIndex table label column storage =>
      cases List.mem_singleton.mp h
      exact (Spells.refl _).followed [_, _, _, _, _]
  | addForeignKey table key =>
      cases List.mem_singleton.mp h
      exact (spells_last _ _ _ _).followed [_, _, _, _, _, _]
  | identityInsert table on => exact absurd h List.not_mem_nil
  | insertRow table cells => exact absurd h List.not_mem_nil
  | insertTranslation translation => exact absurd h List.not_mem_nil

end Statement

/-! ## Names of a class

Group by group, in the order of `Table.identifiers`: the table, its sequence and history, unique
keys, types and indexes. -/

namespace Schema

variable {engine : Engine} {settings : Settings}

def createdNames (engine : Engine) (statements : List Statement) : List String :=
  statements.flatMap fun statement => (statement.creates engine).map (·.2)

/-- The names of statements come statement by statement, so `createdNames` is computed from the
lists that scripts are made of. -/
theorem createdNames_append (statements others : List Statement) :
    createdNames engine (statements ++ others) =
      createdNames engine statements ++ createdNames engine others :=
  List.flatMap_append

theorem mem_createdNames {statements : List Statement} {name : String} :
    name ∈ createdNames engine statements ↔
      ∃ statement ∈ statements, ∃ named, (named, name) ∈ statement.creates engine := by
  simp [createdNames]

/-- Statements that give one name each. -/
theorem createdNames_map {α : Type} {f : α → Statement} {g : α → String} (parts : List α)
    (h : ∀ part, ((f part).creates engine).map (·.2) = [g part]) :
    createdNames engine (parts.map f) = parts.map g := by
  rw [createdNames, List.flatMap_map, List.map_eq_flatMap]
  exact List.flatMap_congr fun part _ => h part

theorem map_snd_columnNames (columns : List Column) :
    (Statement.columnNames columns).map (·.2) = columns.map (·.name) := by
  simp [Statement.columnNames]

/-- The statements of the schema scripts that belong to a class. -/
def classStatements (engine : Engine) (settings : Settings) (c : Graph.Class) (table : Table) :
    List Statement :=
  createStatements engine c table ++ uniqueStatements table ++ typeStatements engine table
    ++ indexStatements settings table

/-- A table without key columns has no constraint for them. -/
theorem createdNames_createTable (table : Table) :
    createdNames engine [.createTable table] =
      table.name :: table.columns.map (·.name)
        ++ if table.primaryKey.isEmpty then [] else [Table.primaryKeyName table.name] := by
  simp only [createdNames, List.flatMap_singleton, Statement.creates, List.map_append,
    List.map_cons, map_snd_columnNames]
  split <;> rfl

/-- The engine without sequences writes nothing, and gives no name. -/
theorem createdNames_sequence (table : Table) :
    createdNames engine (sequenceStatements engine table) =
      if table.usesSequence engine then [Engine.sequenceName table.name] else [] := by
  rw [sequenceStatements_eq]
  split
  · next hsequence =>
    cases engine with
    | sqlServer => simp [Table.usesSequence, Engine.keyGeneration] at hsequence
    | oracle => rfl
  · rfl

/-- A history repeats the columns of its table, so only those it adds bring new names. -/
theorem mem_createdNames_history {table : Table} {name : String} :
    name ∈ createdNames engine (historyStatements engine table) ↔
      name ∈ table.columns.map (·.name) ∨ name ∈ table.historyIdentifiers engine := by
  have hadded : ((table.history engine).columns.drop table.columns.length).map (·.name) =
      [Table.technicalColumn table.trigram "HISTO_DATE",
        Table.technicalColumn table.trigram "HISTO_IS_CREATION"] := by
    simp [Table.history]
  have hcolumns : (table.history engine).columns.map (·.name) =
      table.columns.map (·.name) ++ [Table.technicalColumn table.trigram "HISTO_DATE",
        Table.technicalColumn table.trigram "HISTO_IS_CREATION"] := by
    simp [Table.history, Function.comp_def]
  have hkey : (table.history engine).primaryKey.isEmpty = true := rfl
  rw [historyStatements, ← List.singleton_append, createdNames_append, createdNames_createTable,
    hkey, if_pos rfl, hcolumns, Table.historyIdentifiers, hadded]
  simp only [createdNames, List.flatMap_cons, List.flatMap_nil, Statement.creates, List.map_cons,
    List.map_nil, List.mem_append, List.mem_cons, List.not_mem_nil, or_false, Event.short]
  tauto

theorem createdNames_create (c : Graph.Class) (table : Table) :
    createdNames engine (createStatements engine c table) =
      createdNames engine [.createTable table] ++
        (if table.usesSequence engine then [Engine.sequenceName table.name] else []) ++
        if c.isHistorized then createdNames engine (historyStatements engine table) else [] := by
  rw [createStatements, ← List.singleton_append, createdNames_append, createdNames_append,
    createdNames_sequence, List.append_assoc, List.append_assoc]
  cases c.isHistorized <;> rfl

theorem createdNames_unique (table : Table) :
    createdNames engine (uniqueStatements table) =
      table.uniqueColumns.map (Table.uniqueName table.name) ++
        if table.hasCompositeUnique then [Table.compositeUniqueName table.name] else [] := by
  rw [uniqueStatements, createdNames_append]
  congr 1
  · exact createdNames_map _ fun _ => rfl
  · split <;> rfl

/-- The columns of types are those of the table. -/
theorem mem_createdNames_types {table : Table} {name : String} :
    name ∈ createdNames engine (typeStatements engine table) ↔
      name ∈ engine.typeNames table.name ∨ name ∈ table.columns.map (·.name) := by
  cases engine with
  | sqlServer =>
      simp [createdNames, typeStatements, Statement.creates, Statement.columnNames,
        Engine.typeNames]
  | oracle =>
      simp only [createdNames, typeStatements, List.flatMap_cons, List.flatMap_nil,
        Statement.creates, List.map_cons, List.map_nil, map_snd_columnNames, Engine.typeNames,
        List.mem_append, List.mem_cons, List.not_mem_nil, or_false]
      tauto

/-- A foreign key has an index and a constraint. Columns that are indexed for other reasons have the
former only. -/
theorem mem_createdNames_indexes {table : Table} {name : String} :
    name ∈ createdNames engine (indexStatements settings table) ↔
      name ∈ (table.foreignKeys.flatMap fun key =>
        [Table.indexName table.name key.column, Table.foreignKeyName table.name key.column]) ∨
      name ∈ table.indexedColumns.map (Table.indexName table.name) := by
  have hindexes : createdNames engine ((indexedColumns table).map fun column =>
      .createIndex table.name (Table.indexName table.name column) column settings.indexStorage) =
        (indexedColumns table).map (Table.indexName table.name) :=
    createdNames_map _ fun _ => rfl
  have hkeys : createdNames engine (table.foreignKeys.map (.addForeignKey table.name)) =
      table.foreignKeys.map fun key => Table.foreignKeyName table.name key.column :=
    createdNames_map _ fun _ => rfl
  rw [indexStatements, createdNames_append, hindexes, hkeys]
  simp only [List.mem_append, List.mem_map, mem_indexedColumns, List.mem_flatMap, List.mem_cons,
    List.not_mem_nil, or_false]
  constructor
  · rintro (⟨column, ⟨key, hkey, rfl⟩ | hcolumn, rfl⟩ | ⟨key, hkey, rfl⟩)
    · exact .inl ⟨key, hkey, .inl rfl⟩
    · exact .inr ⟨column, hcolumn, rfl⟩
    · exact .inl ⟨key, hkey, .inr rfl⟩
  · rintro (⟨key, hkey, rfl | rfl⟩ | ⟨column, hcolumn, rfl⟩)
    · exact .inl ⟨key.column, .inl ⟨key, hkey, rfl⟩, rfl⟩
    · exact .inr ⟨key, hkey, rfl⟩
    · exact .inl ⟨column, .inr hcolumn, rfl⟩

/-- The identifiers of a table are the names that the statements of its class give. A name may be
given by several statements, as those of columns are by tables and types, so this is about
membership. -/
theorem mem_identifiers_iff {c : Graph.Class} {table : Table} {name : String} :
    name ∈ table.identifiers engine c.isHistorized ↔
      name ∈ createdNames engine (classStatements engine settings c table) := by
  have hhistory : name ∈ (if c.isHistorized then
        createdNames engine (historyStatements engine table) else []) ↔
      c.isHistorized = true ∧ (name ∈ table.columns.map (·.name) ∨
        name ∈ table.historyIdentifiers engine) := by
    rw [← mem_createdNames_history]
    split <;> simp [*]
  have hlisted : name ∈ (if c.isHistorized then table.historyIdentifiers engine else []) ↔
      c.isHistorized = true ∧ name ∈ table.historyIdentifiers engine := by
    split <;> simp [*]
  simp only [classStatements, createdNames_append, createdNames_create, createdNames_createTable,
    createdNames_unique, Table.identifiers, List.mem_append, mem_createdNames_types,
    mem_createdNames_indexes, hhistory, hlisted]
  grind

/-! ## Names in scripts -/

end Schema

def Scripts.statements (scripts : Scripts) : List Statement :=
  scripts.toList.flatMap Script.statements

namespace Schema

variable {engine : Engine} {settings : Settings} {graph : Graph}

/-- Complete schema scripts hold the statements of the persistent classes. -/
theorem mem_written_iff (h : (generate engine settings graph).error = none)
    {statement : Statement} :
    statement ∈ (generate engine settings graph).scripts.statements ↔
      ∃ entry ∈ entries engine settings graph,
        statement ∈ classStatements engine settings entry.1 entry.2 := by
  have hdata : (generate engine settings graph).scripts.data.statements = [] :=
    (statements_tables (·.data) fun _ => rfl).trans (List.flatMap_eq_nil_iff.mpr fun _ _ => rfl)
  have htranslations : (generate engine settings graph).scripts.translations.statements = [] :=
    (statements_tables (·.translations) fun _ => rfl).trans
      (List.flatMap_eq_nil_iff.mpr fun _ _ => rfl)
  simp only [Scripts.statements, Scripts.toList, List.flatMap_cons, List.flatMap_nil,
    create_statements, unique_statements, type_statements, index_statements h, hdata, htranslations,
    classStatements, List.mem_append, List.mem_flatMap, List.not_mem_nil, or_false]
  constructor
  · rintro (⟨entry, hentry, hmem⟩ | ⟨entry, hentry, hmem⟩ | ⟨entry, hentry, hmem⟩ |
      ⟨entry, hentry, hmem⟩) <;> exact ⟨entry, hentry, by tauto⟩
  · rintro ⟨entry, hentry, ((hmem | hmem) | hmem) | hmem⟩
    · exact .inl ⟨entry, hentry, hmem⟩
    · exact .inr (.inl ⟨entry, hentry, hmem⟩)
    · exact .inr (.inr (.inr ⟨entry, hentry, hmem⟩))
    · exact .inr (.inr (.inl ⟨entry, hentry, hmem⟩))

/-- The entries of complete scripts by class, instead of by place. -/
theorem mem_entries_iff (h : (generate engine settings graph).error = none)
    {entry : Graph.Class × Table} :
    entry ∈ entries engine settings graph ↔
      ∃ id ∈ graph.persistentIds, entry.1 = graph.classAt id ∧
        table engine settings graph id = .ok entry.2 := by
  constructor
  · exact exists_of_forall₂ (forall₂_entries h) entry
  · rintro ⟨id, hid, hclass, htable⟩
    obtain ⟨found, hfound, hsame, hderived⟩ := exists_of_forall₂ (forall₂_entries h).flip id hid
    rw [htable] at hderived
    have hentry : found = entry := Prod.ext (hsame.trans hclass.symm) (Except.ok.inj hderived).symm
    exact hentry ▸ hfound

/-- `fittingTable` gives a table only if none of its identifiers is too long. -/
theorem length_le_of_fittingTable {id : ClassId} {found : Table}
    (h : fittingTable engine settings graph id = .ok found) {name : String}
    (hname : name ∈ found.identifiers engine (graph.classAt id).isHistorized) :
    name.length ≤ engine.identifierLimit := by
  obtain ⟨derived, -, h⟩ := bind_eq_ok_iff.mp h
  split at h <;> cases h
  next hshort =>
  have hfits := List.filter_eq_nil_iff.mp hshort name hname
  simpa using hfits

/-- The list of identifiers covers exactly what is created. For every persistent class with a table,
the names that its statements give, and spell, are the identifiers of the table. Complete schema
scripts hold the statements of those classes, so no name in them exceeds the limit. -/
theorem identifiers_cover (engine : Engine) (settings : Settings) (graph : Graph) :
    (∀ id ∈ graph.persistentIds, ∀ found, table engine settings graph id = .ok found →
      (∀ name, name ∈ createdNames engine
            (classStatements engine settings (graph.classAt id) found) ↔
          name ∈ found.identifiers engine (graph.classAt id).isHistorized) ∧
        ∀ statement ∈ classStatements engine settings (graph.classAt id) found,
          ∀ named name, (named, name) ∈ statement.creates engine →
            Spells (statement.text engine) (named.phrase engine name)) ∧
      ((generate engine settings graph).error = none →
        (∀ statement, statement ∈ (generate engine settings graph).scripts.statements ↔
          ∃ id ∈ graph.persistentIds, ∃ found, table engine settings graph id = .ok found ∧
            statement ∈ classStatements engine settings (graph.classAt id) found) ∧
        ∀ name ∈ createdNames engine (generate engine settings graph).scripts.statements,
          name.length ≤ engine.identifierLimit) := by
  refine ⟨fun id _ found _ => ⟨fun name => mem_identifiers_iff.symm, ?_⟩, fun hcomplete => ⟨?_, ?_⟩⟩
  · intro statement _ named name hcreates
    exact Statement.spells_of_creates hcreates
  · intro statement
    rw [mem_written_iff hcomplete]
    constructor
    · rintro ⟨⟨c, found⟩, hentry, hstatement⟩
      obtain ⟨id, hid, rfl, htable⟩ := (mem_entries_iff hcomplete).mp hentry
      exact ⟨id, hid, found, htable, hstatement⟩
    · rintro ⟨id, hid, found, htable, hstatement⟩
      exact ⟨(graph.classAt id, found), (mem_entries_iff hcomplete).mpr ⟨id, hid, rfl, htable⟩,
        hstatement⟩
  · intro name hname
    obtain ⟨statement, hstatement, hcreates⟩ := mem_createdNames.mp hname
    obtain ⟨entry, hentry, hstatement⟩ := (mem_written_iff hcomplete).mp hstatement
    obtain ⟨id, -, hclass, hfits⟩ := exists_of_forall₂ (forall₂_tables hcomplete) entry hentry
    refine length_le_of_fittingTable hfits ?_
    rw [← hclass, mem_identifiers_iff, mem_createdNames]
    exact ⟨statement, hstatement, hcreates⟩

/-- The first list of `Seeding.sampleLists` gives rise to nine names. The names of its columns are
given twice, by the table and by a type. -/
theorem identifiers_cover_sample :
    (∃ found, table .oracle Seeding.sampleSettings Seeding.sampleLists 0 = .ok found ∧
      found.identifiers .oracle (Seeding.sampleLists.classAt 0).isHistorized =
        ["SHADE", "SHADE_ID", "COLOR_ID", "PK_SHADE", "IDX_SHADE_COLOR_ID", "FK_SHADE_COLOR_ID",
          "SEQ_SHADE", "SHADE_OBJ", "SHADE_TAB"] ∧
      ∀ name, name ∈ createdNames .oracle (classStatements .oracle Seeding.sampleSettings
          (Seeding.sampleLists.classAt 0) found) ↔
        name ∈ ["SHADE", "SHADE_ID", "COLOR_ID", "PK_SHADE", "IDX_SHADE_COLOR_ID",
          "FK_SHADE_COLOR_ID", "SEQ_SHADE", "SHADE_OBJ", "SHADE_TAB"]) ∧
    (generate .sqlServer Seeding.sampleSettings (sampleGraph (some "int"))).error = none ∧
      ∀ name ∈ createdNames .sqlServer
          (generate .sqlServer Seeding.sampleSettings (sampleGraph (some "int"))).scripts.statements,
        name.length ≤ Engine.sqlServer.identifierLimit := by
  have hcomplete :
      (generate .sqlServer Seeding.sampleSettings (sampleGraph (some "int"))).error = none := by
    decide +kernel
  obtain ⟨found, htable⟩ :
      ∃ found, table .oracle Seeding.sampleSettings Seeding.sampleLists 0 = .ok found :=
    ⟨_, rfl⟩
  have hnames : found.identifiers .oracle (Seeding.sampleLists.classAt 0).isHistorized =
      ["SHADE", "SHADE_ID", "COLOR_ID", "PK_SHADE", "IDX_SHADE_COLOR_ID", "FK_SHADE_COLOR_ID",
        "SEQ_SHADE", "SHADE_OBJ", "SHADE_TAB"] := by
    cases htable
    decide +kernel
  refine ⟨⟨found, htable, hnames, ?_⟩, hcomplete,
    ((identifiers_cover .sqlServer Seeding.sampleSettings _).2 hcomplete).2⟩
  rw [← hnames]
  exact ((identifiers_cover .oracle Seeding.sampleSettings Seeding.sampleLists).1 0
    (by decide +kernel) found htable).1

end Schema

end ModelSchema.Sql
