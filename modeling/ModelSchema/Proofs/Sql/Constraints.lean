import ModelSchema.Proofs.Sql.KeyReferences

/-!
# Names of constraints

The name of a constraint is made of its kind, the name of its table and a label: a column, or a word
for several columns. Underscores stand between these parts, and inside them too, so that some names
can be read in two ways: `ITEM` with the label `TAG_CODE`, and `ITEM_TAG` with the label `CODE`.

* Two ways to read a name differ in where the table ends (`joined_cases`). Names are therefore
  distinct if no label goes on with what makes another table longer (`nodup_joined_iff`).
* Complete scripts add the constraints of all persistent classes (`constraints_generate`).
* For a clean model, `ConstraintsDiffer` says exactly when their names are distinct
  (`nodup_constraints_iff`). Checks do not ask for that (`exists_constraint_clash`).
-/

namespace ModelSchema.Sql

open ModelSchema.Graph (Property)
open Reading (read)

/-- The constraint that a statement adds. -/
def Statement.constraint? : Statement → Option String
  | createTable table =>
    if table.primaryKey.isEmpty then none else some (Table.primaryKeyName table.name)
  | addUnique _ name _ => some name
  | addForeignKey table key => some (Table.foreignKeyName table key.column)
  | _ => none

def Script.constraints (script : Script) : List String :=
  script.statements.filterMap Statement.constraint?

def Scripts.constraints (scripts : Scripts) : List String :=
  scripts.toList.flatMap Script.constraints

/-! ## Joined names

Texts only. Everything that can go wrong is in `joined_cases`. -/

def joined (kind table label : String) : String :=
  kind ++ table ++ "_" ++ label

/-- Within one table, labels tell names apart. -/
theorem joined_injective (kind table : String) : Function.Injective (joined kind table) :=
  fun _ _ h => (String.append_right_inj _).mp h

/-- Names of different kinds differ. -/
theorem ne_of_kinds {kind other a b : String} (hlength : kind.toList.length = other.toList.length)
    (hne : kind ≠ other) : kind ++ a ≠ other ++ b := by
  intro h
  have hlists := congrArg String.toList h
  rw [String.toList_append, String.toList_append] at hlists
  exact hne (String.toList_inj.mp (List.append_inj_left hlists hlength))

/-- The longer of two tables goes on with an underscore and a text, and the label of the shorter one
begins with that text. -/
theorem exists_text {a b l m : String} (rest : List Char) (hname : b.toList = a.toList ++ rest)
    (hlabel : '_' :: l.toList = rest ++ '_' :: m.toList) :
    a = b ∧ l = m ∨ ∃ text, b = a ++ "_" ++ text ∧ l = text ++ "_" ++ m := by
  cases rest with
  | nil =>
      refine .inl ⟨String.toList_inj.mp ?_, String.toList_inj.mp ?_⟩
      · simpa using hname.symm
      · simpa using hlabel
  | cons first text =>
      rw [List.cons_append, List.cons.injEq] at hlabel
      obtain ⟨rfl, hlabel⟩ := hlabel
      refine .inr ⟨String.ofList text, String.toList_inj.mp ?_, String.toList_inj.mp ?_⟩
      · simp [hname]
      · simp [hlabel]

theorem joined_cases {kind a b l m : String} (h : joined kind a l = joined kind b m) :
    a = b ∧ l = m ∨ (∃ text, b = a ++ "_" ++ text ∧ l = text ++ "_" ++ m) ∨
      ∃ text, a = b ++ "_" ++ text ∧ m = text ++ "_" ++ l := by
  simp only [joined, String.append_assoc] at h
  have hlists := congrArg String.toList ((String.append_right_inj kind).mp h)
  simp only [String.toList_append] at hlists
  -- One of the tables is the beginning of the other one.
  rcases List.append_eq_append_iff.mp hlists with ⟨rest, hname, hlabel⟩ | ⟨rest, hname, hlabel⟩
  · rcases exists_text rest hname hlabel with hsame | htext
    · exact .inl hsame
    · exact .inr (.inl htext)
  · rcases exists_text rest hname hlabel with ⟨rfl, rfl⟩ | htext
    · exact .inl ⟨rfl, rfl⟩
    · exact .inr (.inr htext)

/-- Names are distinct if labels are, and no label goes on with what makes another table longer. -/
theorem nodup_joined_iff {α : Type} {as : List α} {table : α → String} {labels : α → List String}
    (htables : (as.map table).Nodup) (kind : String) :
    (as.flatMap fun a => (labels a).map (joined kind (table a))).Nodup ↔
      (∀ a ∈ as, (labels a).Nodup) ∧
        ∀ a ∈ as, ∀ b ∈ as, ∀ text, table b = table a ++ "_" ++ text →
          ∀ label ∈ labels b, text ++ "_" ++ label ∉ labels a := by
  rw [List.nodup_flatMap]
  simp only [List.nodup_map_iff (joined_injective kind _)]
  refine and_congr_right fun _ => ⟨?_, ?_⟩
  · intro hpairs a ha b hb text htext label hlabel hlonger
    have hne : a ≠ b := by
      rintro rfl
      have hlength := congrArg String.length htext
      rw [String.length_append, String.length_append, show "_".length = 1 from rfl] at hlength
      omega
    have hsymm : Std.Symm (Function.onFun List.Disjoint
        fun a => (labels a).map (joined kind (table a))) := ⟨fun _ _ h => h.symm⟩
    refine List.disjoint_left.mp (hpairs.forall ha hb hne) (List.mem_map_of_mem hlonger) ?_
    rw [show joined kind (table a) (text ++ "_" ++ label) = joined kind (table b) label by
      simp [joined, htext, String.append_assoc]]
    exact List.mem_map_of_mem hlabel
  · intro hlonger
    refine htables.of_map.pairwise_of_forall_ne fun a ha b hb hne name hfirst hsecond => ?_
    obtain ⟨l, hl, rfl⟩ := List.mem_map.mp hfirst
    obtain ⟨m, hm, hsame⟩ := List.mem_map.mp hsecond
    rcases joined_cases hsame with ⟨htable, -⟩ | ⟨text, htable, rfl⟩ | ⟨text, htable, rfl⟩
    · exact hne (List.inj_on_of_nodup_map htables ha hb htable.symm)
    · exact hlonger b hb a ha text htable l hl hm
    · exact hlonger a ha b hb text htable m hm hl

/-! ## Constraints of a class

Which constraints the statements of a class add: a primary key, unique keys and foreign keys, each
kind with its labels. -/

namespace Table

/-- The constraint of the primary key of a class, if there is one. -/
def primaryNames (c : Graph.Class) : List String :=
  if (columnsWhere c (·.isPrimaryKey)).isEmpty then [] else [primaryKeyName c.table]

/-- A table has one primary key at most. -/
theorem eq_of_mem_primaryNames {c : Graph.Class} {name : String} (h : name ∈ primaryNames c) :
    name = primaryKeyName c.table := by
  unfold primaryNames at h
  split at h
  · exact absurd h List.not_mem_nil
  · exact List.mem_singleton.mp h

def uniqueColumnsOf (c : Graph.Class) : List String :=
  columnsWhere c fun property => property.isUnique && !property.isPrimaryKey

/-- The labels of the unique keys of a class. -/
def uniqueLabels (c : Graph.Class) : List String :=
  uniqueColumnsOf c ++ if 1 < (columnsWhere c (·.isUniqueMany)).length then ["MULTIPLE"] else []

def foreignLabels (graph : Graph) (c : Graph.Class) : List String :=
  ((columnProperties c).filterMap fun entry => foreignKey? graph entry.1 entry.2).map (·.column)

/-- Foreign keys are labelled by columns, each of which has one at most. -/
theorem foreignLabels_sublist (graph : Graph) (c : Graph.Class) :
    (foreignLabels graph c).Sublist ((columnProperties c).map (·.2)) := by
  unfold foreignLabels
  induction columnProperties c with
  | nil => exact List.Sublist.slnil
  | cons entry rest ih =>
      cases hkey : foreignKey? graph entry.1 entry.2 with
      | none =>
          simp only [List.filterMap_cons, hkey, List.map_cons]
          exact ih.cons _
      | some key =>
          obtain ⟨_, _, -, -, -, hcolumn, -⟩ := Schema.foreignKey?_eq_some hkey
          simp only [List.filterMap_cons, hkey, List.map_cons, hcolumn]
          exact ih.cons_cons _

/-- Labels of unique keys are columns and one word. They are distinct unless a column is that word.
-/
theorem nodup_uniqueLabels_iff {c : Graph.Class} (h : ((columnProperties c).map (·.2)).Nodup) :
    (uniqueLabels c).Nodup ↔
      (1 < (columnsWhere c (·.isUniqueMany)).length → "MULTIPLE" ∉ uniqueColumnsOf c) := by
  have hcolumns : (uniqueColumnsOf c).Nodup := (List.filter_sublist.map _).nodup h
  unfold uniqueLabels
  split
  · next hseveral =>
    rw [List.nodup_append_comm]
    simp [hcolumns, hseveral]
  · next hfew => simp [hcolumns, hfew]

/-- A unique column starts with a trigram, so it is not the word for several columns. -/
theorem multiple_not_mem {graph : Graph} {id : ClassId} {trigram : String}
    (harises : ∀ property ∈ (graph.classAt id).properties,
      Reading.Assembly.Arises graph id property)
    (htabular : Check.Tabular (graph.classAt id) trigram) :
    "MULTIPLE" ∉ uniqueColumnsOf (graph.classAt id) := by
  intro hmem
  obtain ⟨⟨property, _⟩, hentry, rfl⟩ := List.mem_map.mp hmem
  obtain ⟨hentry, hmarks⟩ := List.mem_filter.mp hentry
  obtain ⟨hproperty, hcolumn, hname⟩ := mem_columnProperties.mp hentry
  have hunique : property.isUnique = true := (Bool.and_eq_true_iff.mp hmarks).1
  have hprimitive : property.isPrimitive = true := by
    cases harises property hproperty with
    | declared scope property => rfl
    | reference role isRequired _ _ => cases hunique
    | referenceList target role isPersistent => cases hunique
    | child target role isCollection => cases hunique
  have hstart := htabular.columns property hproperty _ hprimitive hcolumn hname
  have hletters := (Bool.and_eq_true_iff.mp htabular.letters).1
  rw [Text.startsWith, String.toList_append] at hstart
  -- The fourth letter of the word is no underscore.
  obtain ⟨a, b, c, hthree⟩ := List.length_eq_three.mp (beq_iff_eq.mp hletters)
  rw [hthree] at hstart
  simp [List.isPrefixOf] at hstart

end Table

namespace Schema

variable {engine : Engine} {settings : Settings} {graph : Graph}

/-- The constraints that the statements of one class add, script by script. -/
theorem constraints_createStatements {id : ClassId} {found : Table}
    (htable : table engine settings graph id = .ok found) :
    (createStatements engine (graph.classAt id) found).filterMap Statement.constraint? =
      Table.primaryNames (graph.classAt id) := by
  obtain ⟨_, hderives⟩ := Table.exists_columns htable
  have hothers : (sequenceStatements engine found
      ++ if (graph.classAt id).isHistorized then historyStatements engine found else []).filterMap
        Statement.constraint? = [] := by
    rw [sequenceStatements_eq]
    cases (graph.classAt id).isHistorized <;> cases found.usesSequence engine <;> rfl
  rw [createStatements, List.cons_append, List.filterMap_cons, hothers, Statement.constraint?,
    Table.primaryNames, ← hderives.primaryKey, ← hderives.name]
  cases found.primaryKey.isEmpty <;> rfl

theorem constraints_uniqueStatements {id : ClassId} {found : Table}
    (htable : table engine settings graph id = .ok found) :
    (uniqueStatements found).filterMap Statement.constraint? =
      (Table.uniqueLabels (graph.classAt id)).map (joined "UK_" (graph.classAt id).table) := by
  obtain ⟨_, hderives⟩ := Table.exists_columns htable
  obtain ⟨hunique, hcomposite⟩ := Table.uniqueColumns_ofClass htable
  have hmultiple : Table.compositeUniqueName found.name = joined "UK_" found.name "MULTIPLE" := by
    simp [Table.compositeUniqueName, joined, String.append_assoc]
  have hsingle : Statement.constraint? ∘ (fun column =>
      .addUnique found.name (Table.uniqueName found.name column) [column]) =
        some ∘ joined "UK_" found.name := rfl
  rw [Table.uniqueLabels, Table.uniqueColumnsOf, ← hunique, ← hcomposite, ← hderives.name,
    uniqueStatements, List.filterMap_append, List.map_append, List.filterMap_map, hsingle,
    List.filterMap_eq_map]
  congr 1
  by_cases hseveral : 1 < found.compositeUnique.length <;>
    simp [Table.hasCompositeUnique, Statement.constraint?, hseveral, hmultiple]

theorem constraints_indexStatements {id : ClassId} {found : Table}
    (htable : table engine settings graph id = .ok found) :
    (indexStatements settings found).filterMap Statement.constraint? =
      (Table.foreignLabels graph (graph.classAt id)).map
        (joined "FK_" (graph.classAt id).table) := by
  obtain ⟨_, hderives⟩ := Table.exists_columns htable
  have hindexes : ((indexedColumns found).map fun column => Statement.createIndex found.name
      (Table.indexName found.name column) column settings.indexStorage).filterMap
        Statement.constraint? = [] := by
    rw [List.filterMap_map]
    exact List.filterMap_eq_nil_iff.mpr fun _ _ => rfl
  have hkeys : Statement.constraint? ∘ Statement.addForeignKey found.name =
      some ∘ fun key => joined "FK_" found.name key.column := rfl
  rw [Table.foreignLabels, ← hderives.foreignKeys, ← hderives.name, indexStatements,
    List.filterMap_append, hindexes, List.nil_append, List.filterMap_map, hkeys,
    List.filterMap_eq_map, List.map_map]
  rfl

/-- Types and rows add no constraints. -/
theorem constraints_eq_nil (part : Scripts → Script)
    (hpart : ∀ found, part (indexRound settings found) = [])
    (h : ∀ c found, (part (tableRound engine c found)).constraints = []) :
    Script.constraints ((generate engine settings graph).rounds.flatMap part) = [] := by
  rw [Script.constraints, statements_tables part hpart, List.filterMap_flatMap]
  exact List.flatMap_eq_nil_iff.mpr fun entry _ => h entry.1 entry.2

/-! ## Constraints of a model -/

variable (graph) in
def primaryKeyNames : List String :=
  graph.persistentIds.flatMap fun id => Table.primaryNames (graph.classAt id)

variable (graph) in
/-- The names of a kind of constraints, for the labels that each class has. -/
def namesOf (kind : String) (labels : Graph.Class → List String) : List String :=
  graph.persistentIds.flatMap fun id =>
    (labels (graph.classAt id)).map (joined kind (graph.classAt id).table)

/-- Complete scripts add the constraints of all persistent classes. -/
theorem constraints_generate (hcomplete : (generate engine settings graph).error = none) :
    (generate engine settings graph).scripts.constraints =
      primaryKeyNames graph ++ (namesOf graph "UK_" Table.uniqueLabels ++
        namesOf graph "FK_" (Table.foreignLabels graph)) := by
  have hentries := forall₂_entries hcomplete
  have hcreate : (generate engine settings graph).scripts.create.constraints =
      primaryKeyNames graph := by
    rw [Script.constraints, create_statements, List.filterMap_flatMap]
    refine (flatMap_eq_of_forall₂ hentries ?_).symm
    rintro id ⟨_, found⟩ ⟨rfl, htable⟩
    exact (constraints_createStatements htable).symm
  have hunique : (generate engine settings graph).scripts.uniqueKeys.constraints =
      namesOf graph "UK_" Table.uniqueLabels := by
    rw [Script.constraints, unique_statements, List.filterMap_flatMap]
    exact (flatMap_eq_of_forall₂ hentries fun _ _ h =>
      (constraints_uniqueStatements h.2).symm).symm
  have hindexes : (generate engine settings graph).scripts.indexes.constraints =
      namesOf graph "FK_" (Table.foreignLabels graph) := by
    rw [Script.constraints, index_statements hcomplete, List.filterMap_flatMap]
    exact (flatMap_eq_of_forall₂ hentries fun _ _ h =>
      (constraints_indexStatements h.2).symm).symm
  have htypes : (generate engine settings graph).scripts.types.constraints = [] := by
    refine constraints_eq_nil (·.types) (fun _ => rfl) fun c found => ?_
    cases engine <;> rfl
  have hdata : (generate engine settings graph).scripts.data.constraints = [] :=
    constraints_eq_nil (·.data) (fun _ => rfl) fun _ _ => rfl
  have htranslations : (generate engine settings graph).scripts.translations.constraints = [] :=
    constraints_eq_nil (·.translations) (fun _ => rfl) fun _ _ => rfl
  rw [Scripts.constraints, Scripts.toList]
  simp only [List.flatMap_cons, List.flatMap_nil, hcreate, hunique, hindexes, htypes, hdata,
    htranslations, List.append_nil]

theorem exists_of_mem_primaryKeyNames {name : String} (h : name ∈ primaryKeyNames graph) :
    ∃ text, name = "PK_" ++ text := by
  obtain ⟨id, -, h⟩ := List.mem_flatMap.mp h
  exact ⟨_, Table.eq_of_mem_primaryNames h⟩

/-- A name begins with its kind, so names of different kinds differ (`ne_of_kinds`). -/
theorem exists_of_mem_namesOf {kind name : String} {labels : Graph.Class → List String}
    (h : name ∈ namesOf graph kind labels) : ∃ text, name = kind ++ text := by
  obtain ⟨id, -, h⟩ := List.mem_flatMap.mp h
  obtain ⟨label, -, rfl⟩ := List.mem_map.mp h
  exact ⟨(graph.classAt id).table ++ "_" ++ label, by simp [joined, String.append_assoc]⟩

section Tables

variable (htables : (graph.persistentIds.map fun id => (graph.classAt id).table).Nodup)

include htables

/-- The names of primary keys have no labels, and tables differ. -/
theorem nodup_primaryKeyNames : (primaryKeyNames graph).Nodup := by
  rw [primaryKeyNames, List.nodup_flatMap]
  constructor
  · intro id _
    unfold Table.primaryNames
    split <;> simp
  · refine htables.of_map.pairwise_of_forall_ne fun a ha b hb hne name hfirst hsecond => ?_
    have hsame := (Table.eq_of_mem_primaryNames hfirst).symm.trans
      (Table.eq_of_mem_primaryNames hsecond)
    exact hne (List.inj_on_of_nodup_map htables ha hb ((String.append_right_inj "PK_").mp hsame))

/-- The names of constraints are distinct if those of unique keys are, and those of foreign keys. -/
theorem nodup_constraints (hcomplete : (generate engine settings graph).error = none) :
    (generate engine settings graph).scripts.constraints.Nodup ↔
      (namesOf graph "UK_" Table.uniqueLabels).Nodup ∧
        (namesOf graph "FK_" (Table.foreignLabels graph)).Nodup := by
  rw [constraints_generate hcomplete, List.nodup_append, List.nodup_append]
  constructor
  · rintro ⟨-, ⟨hunique, hforeign, -⟩, -⟩
    exact ⟨hunique, hforeign⟩
  · rintro ⟨hunique, hforeign⟩
    refine ⟨nodup_primaryKeyNames htables, ⟨hunique, hforeign, fun a ha b hb => ?_⟩,
      fun a ha b hb => ?_⟩
    · obtain ⟨_, rfl⟩ := exists_of_mem_namesOf ha
      obtain ⟨_, rfl⟩ := exists_of_mem_namesOf hb
      exact ne_of_kinds (by simp) (by decide)
    · obtain ⟨_, rfl⟩ := exists_of_mem_primaryKeyNames ha
      rcases List.mem_append.mp hb with hb | hb
      all_goals
        obtain ⟨_, rfl⟩ := exists_of_mem_namesOf hb
        exact ne_of_kinds (by simp) (by decide)

end Tables

/-! ## Clean models -/

/-- No label of a class goes on with what makes the table of another one longer. This is the second
half of `nodup_joined_iff`. -/
def Unambiguous (graph : Graph) (labels : Graph.Class → List String) : Prop :=
  ∀ a ∈ graph.persistentIds, ∀ b ∈ graph.persistentIds, ∀ text,
    (graph.classAt b).table = (graph.classAt a).table ++ "_" ++ text →
      ∀ label ∈ labels (graph.classAt b), text ++ "_" ++ label ∉ labels (graph.classAt a)

/-- The constraints of a model have names of their own. -/
structure ConstraintsDiffer (allowlist : Allowlist) (graph : Graph) : Prop where
  unique : Unambiguous graph Table.uniqueLabels
  foreign : Unambiguous graph (Table.foreignLabels graph)
  /-- A class that is not checked has no unique column named like several columns together. -/
  multiple : ∀ id ∈ graph.persistentIds, allowlist.skips (graph.classAt id).name = true →
    1 < (Table.columnsWhere (graph.classAt id) (·.isUniqueMany)).length →
      "MULTIPLE" ∉ Table.uniqueColumnsOf (graph.classAt id)

/-- If the tables of a clean model have different names, and the columns of each table, then the
names of all constraints are distinct exactly if they can be read in one way only. For classes that
are checked, the trigram keeps unique columns from being `MULTIPLE`. -/
theorem nodup_constraints_iff {suffixes : Naming.Suffixes} {shared : List Graph.Domain}
    {sources : List Reading.Source} {found : List Diagnostic}
    (hread : read suffixes shared sources = .ok (graph, found)) (options : Check.Options)
    (hclean : (Check.run options graph).1 = [])
    (htables : (graph.persistentIds.map fun id => (graph.classAt id).table).Nodup)
    (hcolumns : ∀ id ∈ graph.persistentIds,
      ((Table.columnProperties (graph.classAt id)).map (·.2)).Nodup)
    (engine : Engine) (settings : Settings)
    (hcomplete : (generate engine settings graph).error = none) :
    (generate engine settings graph).scripts.constraints.Nodup ↔
      ConstraintsDiffer options.allowlist graph := by
  rw [nodup_constraints htables hcomplete, namesOf, namesOf, nodup_joined_iff htables,
    nodup_joined_iff htables]
  constructor
  · rintro ⟨⟨hlabels, hunique⟩, -, hforeign⟩
    refine ⟨hunique, hforeign, fun id hid _ => ?_⟩
    exact (Table.nodup_uniqueLabels_iff (hcolumns id hid)).mp (hlabels id hid)
  · intro h
    refine ⟨⟨fun id hid => ?_, h.unique⟩, fun id hid => ?_, h.foreign⟩
    · rw [Table.nodup_uniqueLabels_iff (hcolumns id hid)]
      intro hseveral
      cases hskip : options.allowlist.skips (graph.classAt id).name with
      | true => exact h.multiple id hid hskip hseveral
      | false =>
          obtain ⟨_, htabular⟩ :=
            Check.tabular_of_checked (Reading.wellFormed_of_read hread) hclean hid hskip
          exact Table.multiple_not_mem
            (fun _ hproperty => Reading.arises_of_read hread hproperty) htabular
    · exact (Table.foreignLabels_sublist graph _).nodup (hcolumns id hid)

theorem nodup_constraints_offers :
    ∃ graph found, read .standard [] [offers] = .ok (graph, found) ∧
      (Check.run strict graph).1 = [] ∧
      (graph.persistentIds.map fun id => (graph.classAt id).table).Nodup ∧
      (∀ id ∈ graph.persistentIds,
        ((Table.columnProperties (graph.classAt id)).map (·.2)).Nodup) ∧
      (generate .oracle Seeding.sampleSettings graph).error = none ∧
      (generate .oracle Seeding.sampleSettings graph).scripts.constraints =
        ["PK_PRODUCT", "PK_OFFER", "FK_OFFER_PRD_ID_MAIN", "FK_OFFER_PRD_ID_EXTRA"] ∧
      ConstraintsDiffer strict.allowlist graph := by
  obtain ⟨graph, found, hread, hchecked⟩ := Reading.exists_read .standard []
    (.cons document_offers .nil)
    (P := fun graph _ =>
      (Check.run strict graph).1 == [] &&
        decide (graph.persistentIds.map fun id => (graph.classAt id).table).Nodup &&
        graph.persistentIds.all (fun id =>
          decide ((Table.columnProperties (graph.classAt id)).map Prod.snd).Nodup) &&
        (generate .oracle Seeding.sampleSettings graph).error == none &&
        (generate .oracle Seeding.sampleSettings graph).scripts.constraints ==
          ["PK_PRODUCT", "PK_OFFER", "FK_OFFER_PRD_ID_MAIN", "FK_OFFER_PRD_ID_EXTRA"])
    (by decide +kernel)
  simp only [Bool.and_eq_true, List.all_eq_true, beq_iff_eq, decide_eq_true_eq] at hchecked
  obtain ⟨⟨⟨⟨hclean, htables⟩, hcolumns⟩, hcomplete⟩, hnames⟩ := hchecked
  refine ⟨graph, found, hread, hclean, htables, hcolumns, hcomplete, hnames, ?_⟩
  rw [← nodup_constraints_iff hread strict hclean htables hcolumns .oracle Seeding.sampleSettings
    hcomplete, hnames]
  decide

/-- Checks without findings do not keep two constraints from having one name. -/
theorem exists_constraint_clash :
    ∃ graph found, read .standard [] [tags] = .ok (graph, found) ∧
      (∀ c ∈ graph.classes, strict.allowlist.skips c.name = false) ∧
      (Check.run strict graph).1 = [] ∧
      (graph.persistentIds.map fun id => (graph.classAt id).table).Nodup ∧
      (∀ id ∈ graph.persistentIds,
        ((Table.columnProperties (graph.classAt id)).map (·.2)).Nodup) ∧
      (generate .sqlServer Seeding.sampleSettings graph).error = none ∧
      (generate .sqlServer Seeding.sampleSettings graph).scripts.create.Distinct ∧
      ¬ (generate .sqlServer Seeding.sampleSettings graph).scripts.constraints.Nodup := by
  obtain ⟨graph, found, hread, hchecked⟩ := Reading.exists_read .standard []
    (.cons document_tags .nil)
    (P := fun graph _ =>
      graph.classes.all (fun c => !strict.allowlist.skips c.name) &&
        (Check.run strict graph).1 == [] &&
        decide (graph.persistentIds.map fun id => (graph.classAt id).table).Nodup &&
        graph.persistentIds.all (fun id =>
          decide ((Table.columnProperties (graph.classAt id)).map Prod.snd).Nodup) &&
        (generate .sqlServer Seeding.sampleSettings graph).error == none &&
        decide (generate .sqlServer Seeding.sampleSettings graph).scripts.create.Distinct &&
        !decide (generate .sqlServer Seeding.sampleSettings graph).scripts.constraints.Nodup)
    (by decide +kernel)
  simp only [Bool.and_eq_true, List.all_eq_true, Bool.not_eq_true', beq_iff_eq,
    decide_eq_true_eq, decide_eq_false_iff_not] at hchecked
  obtain ⟨⟨⟨⟨⟨⟨hskip, hclean⟩, htables⟩, hcolumns⟩, hcomplete⟩, hdistinct⟩, hclash⟩ := hchecked
  exact ⟨graph, found, hread, hskip, hclean, htables, hcolumns, hcomplete, hdistinct, hclash⟩

end Schema

end ModelSchema.Sql
