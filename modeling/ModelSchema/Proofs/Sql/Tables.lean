import ModelSchema.Proofs.Steps
import ModelSchema.Sql.Seeding

/-!
# What schema scripts hold

How an engine generates keys is asked of it five times over, by the tables, the schema scripts and
the seed scripts. `Engine.keyGeneration` decides, and the spellings that an engine has or lacks
agree with it (`Engine.isSome_identityClause?` and its companions).

A table that can be derived has a column for each property that becomes one, followed by the
technical columns (`Table.exists_columns`). Complete scripts create the tables of all persistent
classes, with their histories, unique keys and types (`Schema.create_statements`,
`Schema.unique_statements`, `Schema.type_statements`), and then index them
(`Schema.index_statements`).
-/

namespace ModelSchema.Sql

open ModelSchema.Graph (Property)

/-! ## Engines

An engine has a spelling for one of two ways to generate keys. That the spellings agree is checked
here once, for both engines. -/

namespace Engine

variable (engine : Engine) (table : String)

/-- Columns can be declared as numbered exactly if the engine numbers keys. -/
theorem isSome_identityClause? :
    engine.identityClause?.isSome = (engine.keyGeneration == .identity) := by
  cases engine <;> rfl

/-- There is something to switch exactly if the engine numbers keys. -/
theorem isSome_identityInsert? (on : Bool) :
    (engine.identityInsert? table on).isSome = (engine.keyGeneration == .identity) := by
  cases engine <;> rfl

/-- Sequences can be made exactly if the engine takes keys from them. -/
theorem isSome_sequenceStatement? :
    (engine.sequenceStatement? table).isSome = (engine.keyGeneration == .sequence) := by
  cases engine <;> rfl

/-- Sequences can be asked exactly if the engine takes keys from them. -/
theorem isSome_nextValue? :
    (engine.nextValue? table).isSome = (engine.keyGeneration == .sequence) := by
  cases engine <;> rfl

end Engine

/-- Where keys come from a sequence, the engine can ask it: `Seeding.cells` never leaves out a key
because it cannot. -/
theorem Table.usesSequence_and_isSome_nextValue? (engine : Engine) (table : Table)
    (name : String) :
    (table.usesSequence engine && (engine.nextValue? name).isSome) =
      table.usesSequence engine := by
  rw [Engine.isSome_nextValue?, usesSequence, Bool.and_assoc, Bool.and_self]

namespace Table

variable {engine : Engine} {storage : Option String} {graph : Graph} {c : Graph.Class}

/-- A property becomes a column if `isColumn` says so and it has a column name. In a graph that is
read the two agree (`Reading.Shaped`). -/
theorem mem_columnProperties {property : Property} {name : String} :
    (property, name) ∈ columnProperties c ↔
      property ∈ c.properties ∧ property.isColumn = true ∧ property.column = some name := by
  simp only [columnProperties, List.mem_filterMap, List.mem_filter, Option.map_eq_some_iff,
    Prod.mk.injEq]
  constructor
  · rintro ⟨_, ⟨hmem, hcolumn⟩, _, hname, rfl, rfl⟩
    exact ⟨hmem, hcolumn, hname⟩
  · rintro ⟨hmem, hcolumn, hname⟩
    exact ⟨property, ⟨hmem, hcolumn⟩, name, hname, rfl, rfl⟩

/-- A column has the name it is asked to have. Its type is the only part that can fail. -/
theorem columnOf_eq_ok {property : Property} {name : String} {column : Column}
    (h : columnOf engine graph c property name = .ok column) :
    column.name = name ∧ columnType engine graph c property = .ok column.type := by
  obtain ⟨type, htype, h⟩ := bind_eq_ok_iff.mp h
  cases h
  exact ⟨rfl, htype⟩

/-- The parts of a derived table: `columns` are the columns of the properties. -/
structure Derives (engine : Engine) (graph : Graph) (c : Graph.Class) (table : Table)
    (columns : List Column) : Prop where
  properties : List.Forall₂
    (fun entry column => columnOf engine graph c entry.1 entry.2 = .ok column)
    (columnProperties c) columns
  columns : table.columns =
    columns ++ auditColumns engine c ++ (exportColumn? c).toList.map (technical engine)
  name : table.name = c.table
  trigram : table.trigram = c.trigram
  primaryKey : table.primaryKey = columnsWhere c (·.isPrimaryKey)
  foreignKeys : table.foreignKeys =
    (columnProperties c).filterMap fun entry => foreignKey? graph entry.1 entry.2

/-- `ofClass` in parts: this is what most proofs about tables use of it. -/
theorem exists_columns {table : Table} (h : ofClass engine storage graph c = .ok table) :
    ∃ columns, Derives engine graph c table columns := by
  obtain ⟨columns, hcolumns, h⟩ := bind_eq_ok_iff.mp h
  cases h
  exact ⟨columns, forall₂_of_mapM hcolumns, rfl, rfl, rfl, rfl, rfl⟩

/-- Whether the key is generated is decided by the class, and not by the engine. -/
theorem hasGeneratedKey_ofClass {table : Table} (h : ofClass engine storage graph c = .ok table) :
    table.hasGeneratedKey = generatesKey graph c := by
  obtain ⟨columns, -, h⟩ := bind_eq_ok_iff.mp h
  cases h
  rfl

theorem uniqueColumns_ofClass {table : Table} (h : ofClass engine storage graph c = .ok table) :
    table.uniqueColumns = columnsWhere c (fun property =>
        property.isUnique && !property.isPrimaryKey) ∧
      table.compositeUnique = columnsWhere c (·.isUniqueMany) := by
  obtain ⟨columns, -, h⟩ := bind_eq_ok_iff.mp h
  cases h
  exact ⟨rfl, rfl⟩

/-- A property that becomes a column has one in the table. -/
theorem exists_column {table : Table} (h : ofClass engine storage graph c = .ok table)
    {property : Property} {name : String} (hproperty : (property, name) ∈ columnProperties c) :
    ∃ column ∈ table.columns, columnOf engine graph c property name = .ok column := by
  obtain ⟨columns, hderives⟩ := exists_columns h
  obtain ⟨column, hcolumn, heq⟩ := exists_of_forall₂ hderives.properties.flip _ hproperty
  refine ⟨column, ?_, heq⟩
  rw [hderives.columns]
  exact List.mem_append_left _ (List.mem_append_left _ hcolumn)

/-- What a column of a property is marked with. It never has a default. -/
theorem columnOf_marks {property : Property} {name : String} {column : Column}
    (h : columnOf engine graph c property name = .ok column) :
    column.isIdentity =
        (generatesKey graph c && property.isPrimaryKey && engine.keyGeneration == .identity) ∧
      column.isRequired = (property.isPrimaryKey || property.isRequired) ∧
      column.default = none := by
  obtain ⟨type, -, h⟩ := bind_eq_ok_iff.mp h
  cases h
  exact ⟨rfl, rfl, rfl⟩

/-- A column belongs to a property, or is a technical one, which rows need not mention. -/
theorem exists_property_of_column {table : Table} (h : ofClass engine storage graph c = .ok table)
    {column : Column} (hcolumn : column ∈ table.columns) :
    (∃ property, (property, column.name) ∈ columnProperties c ∧
        columnOf engine graph c property column.name = .ok column) ∨
      column.isIdentity = false ∧ (column.isRequired = true → column.default.isSome = true) := by
  obtain ⟨columns, hderives⟩ := exists_columns h
  rw [hderives.columns, List.mem_append, List.mem_append] at hcolumn
  rcases hcolumn with (hdeclared | haudit) | hexport
  · obtain ⟨⟨property, name⟩, hproperty, hderived⟩ :=
      exists_of_forall₂ hderives.properties column hdeclared
    obtain ⟨rfl, -⟩ := columnOf_eq_ok hderived
    exact .inl ⟨property, hproperty, hderived⟩
  · right
    unfold auditColumns at haudit
    split at haudit
    · simp only [List.mem_cons, List.not_mem_nil, or_false] at haudit
      rcases haudit with rfl | rfl <;> simp [technical]
    · exact absurd haudit List.not_mem_nil
  · obtain ⟨name, -, rfl⟩ := List.mem_map.mp hexport
    exact .inr ⟨rfl, fun hrequired => by cases hrequired⟩

end Table

namespace Schema

variable {engine : Engine} {settings : Settings} {graph : Graph}

/-- Short identifiers are a condition for a table, and do not change it. -/
theorem table_of_fittingTable {id : ClassId} {found : Table}
    (h : fittingTable engine settings graph id = .ok found) :
    table engine settings graph id = .ok found := by
  obtain ⟨derived, hderived, h⟩ := bind_eq_ok_iff.mp h
  split at h <;> cases h
  exact hderived

/-- Without an error every class has got its table. -/
theorem forall₂_tables {tableOf : ClassId → Except Error Table} {ids : List ClassId}
    (h : (tables graph tableOf ids).2 = none) :
    List.Forall₂ (fun id entry => entry.1 = graph.classAt id ∧ tableOf id = .ok entry.2) ids
      (tables graph tableOf ids).1 := by
  induction ids with
  | nil => exact .nil
  | cons id rest ih =>
      rw [tables] at h ⊢
      cases hid : tableOf id with
      | error error =>
          rw [hid] at h
          cases h
      | ok found =>
          rw [hid] at h
          exact .cons ⟨rfl, hid⟩ (ih h)

/-- In any case the classes before the first without a table have got theirs. -/
theorem exists_forall₂_tables (graph : Graph) (tableOf : ClassId → Except Error Table)
    (ids : List ClassId) :
    ∃ done, done <+: ids ∧
      List.Forall₂ (fun id entry => entry.1 = graph.classAt id ∧ tableOf id = .ok entry.2) done
        (tables graph tableOf ids).1 := by
  induction ids with
  | nil => exact ⟨[], List.prefix_rfl, .nil⟩
  | cons id rest ih =>
      rw [tables]
      cases hid : tableOf id with
      | error error => exact ⟨[], List.nil_prefix, .nil⟩
      | ok found =>
          obtain ⟨done, hdone, htables⟩ := ih
          exact ⟨id :: done, List.cons_prefix_cons.mpr ⟨rfl, hdone⟩, .cons ⟨rfl, hid⟩ htables⟩

variable (engine settings graph) in
/-- The persistent classes with their tables, up to the first class that gets none. -/
def entries : List (Graph.Class × Table) :=
  (tables graph (fittingTable engine settings graph) graph.persistentIds).1

/-- In complete scripts the entries are all persistent classes, in order. -/
theorem forall₂_entries (h : (generate engine settings graph).error = none) :
    List.Forall₂ (fun id entry => entry.1 = graph.classAt id ∧
        table engine settings graph id = .ok entry.2)
      graph.persistentIds (entries engine settings graph) := by
  refine (forall₂_tables h).imp fun id entry hentry => ?_
  exact ⟨hentry.1, table_of_fittingTable hentry.2⟩

/-- Entries made from statements give them back. -/
theorem statements_map (statements : List Statement) :
    Script.statements (statements.map .statement) = statements := by
  simp [Script.statements, Function.comp_def, Entry.statement?]

/-- What a part of the scripts holds, round by round. There is one round for the table of each
class, and after all of them one for its indexes; the latter are left out if a class has got no
table. -/
theorem statements_rounds (part : Scripts → Script) :
    Script.statements ((generate engine settings graph).rounds.flatMap part) =
      ((entries engine settings graph).flatMap fun entry =>
          Script.statements (part (tableRound engine entry.1 entry.2))) ++
        if (generate engine settings graph).error.isNone then
          (entries engine settings graph).flatMap fun entry =>
            Script.statements (part (indexRound settings entry.2))
        else [] := by
  have hrounds : (generate engine settings graph).rounds =
      (entries engine settings graph).map (fun entry => tableRound engine entry.1 entry.2) ++
        if (generate engine settings graph).error.isNone then
          (entries engine settings graph).map fun entry => indexRound settings entry.2
        else [] := rfl
  rw [hrounds, List.flatMap_append, Script.statements, List.filterMap_append, List.flatMap_map,
    List.filterMap_flatMap]
  congr 1
  split
  · rw [List.flatMap_map, List.filterMap_flatMap]
    rfl
  · rfl

/-- A part without indexes holds what belongs to the tables, one after the other. -/
theorem statements_tables (part : Scripts → Script)
    (hpart : ∀ found, part (indexRound settings found) = []) :
    Script.statements ((generate engine settings graph).rounds.flatMap part) =
      (entries engine settings graph).flatMap fun entry =>
        Script.statements (part (tableRound engine entry.1 entry.2)) := by
  have hindex : ((entries engine settings graph).flatMap fun entry =>
      Script.statements (part (indexRound settings entry.2))) = [] := by
    refine List.flatMap_eq_nil_iff.mpr fun entry _ => ?_
    rw [hpart]
    rfl
  rw [statements_rounds, hindex, ite_self, List.append_nil]

/-- `sequenceStatements` looks for a statement, and finds one exactly for a table whose rows ask for
their keys. -/
theorem sequenceStatements_eq (engine : Engine) (found : Table) :
    sequenceStatements engine found =
      if found.usesSequence engine then [.createSequence found.name] else [] := by
  rw [sequenceStatements, Engine.isSome_sequenceStatement?, Table.usesSequence]

/-- Part by part of the scripts, what its rounds amount to. Headings are no statements. -/
theorem create_statements :
    (generate engine settings graph).scripts.create.statements =
      (entries engine settings graph).flatMap fun entry =>
        createStatements engine entry.1 entry.2 := by
  have htable (entry : Graph.Class × Table) :
      Script.statements (tableRound engine entry.1 entry.2).create =
        createStatements engine entry.1 entry.2 := by
    show Script.statements (heading entry.1 entry.2 ::
      (createStatements engine entry.1 entry.2).map .statement) = _
    rw [Script.statements, List.filterMap_cons_none rfl]
    exact statements_map _
  refine (statements_tables (·.create) fun _ => rfl).trans ?_
  simp only [htable]

theorem unique_statements :
    (generate engine settings graph).scripts.uniqueKeys.statements =
      (entries engine settings graph).flatMap fun entry => uniqueStatements entry.2 := by
  have htable (entry : Graph.Class × Table) :
      Script.statements (tableRound engine entry.1 entry.2).uniqueKeys =
        uniqueStatements entry.2 :=
    statements_map _
  refine (statements_tables (·.uniqueKeys) fun _ => rfl).trans ?_
  simp only [htable]

theorem type_statements :
    (generate engine settings graph).scripts.types.statements =
      (entries engine settings graph).flatMap fun entry => typeStatements engine entry.2 := by
  have htable (entry : Graph.Class × Table) :
      Script.statements (tableRound engine entry.1 entry.2).types =
        typeStatements engine entry.2 :=
    statements_map _
  refine (statements_tables (·.types) fun _ => rfl).trans ?_
  simp only [htable]

/-- Every column with an index is there once, whatever it has the index for. The fold in
`indexedColumns` leaves out repetitions; as far as membership goes, nothing is left out. -/
theorem mem_indexedColumns {found : Table} {column : String} :
    column ∈ indexedColumns found ↔
      column ∈ found.foreignKeys.map (·.column) ++ found.indexedColumns := by
  have hfold (kept listed : List String) :
      column ∈ listed.foldl (fun columns column =>
          if column ∈ columns then columns else columns ++ [column]) kept ↔
        column ∈ kept ∨ column ∈ listed := by
    induction listed generalizing kept with
    | nil => simp
    | cons first rest ih =>
        rw [List.foldl_cons, ih, List.mem_cons, ← or_assoc]
        refine or_congr_left ?_
        split
        · next hfirst =>
          rw [iff_self_or]
          rintro rfl
          exact hfirst
        · rw [List.mem_append, List.mem_singleton]
  rw [indexedColumns, hfold]
  simp

/-- The index script of complete scripts holds the indexes and foreign keys of all tables. -/
theorem index_statements (h : (generate engine settings graph).error = none) :
    (generate engine settings graph).scripts.indexes.statements =
      (entries engine settings graph).flatMap fun entry => indexStatements settings entry.2 := by
  have htable : ((entries engine settings graph).flatMap fun entry =>
      Script.statements (tableRound engine entry.1 entry.2).indexes) = [] :=
    List.flatMap_eq_nil_iff.mpr fun _ _ => rfl
  have hindex (entry : Graph.Class × Table) :
      Script.statements (indexRound settings entry.2).indexes =
        indexStatements settings entry.2 :=
    statements_map _
  show Script.statements ((generate engine settings graph).rounds.flatMap (·.indexes)) = _
  rw [statements_rounds, htable, h]
  simp only [Option.isNone_none, if_true, List.nil_append, hindex]

end Schema

end ModelSchema.Sql
