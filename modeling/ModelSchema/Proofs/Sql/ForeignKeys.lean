import ModelSchema.Proofs.Reading.Keys
import ModelSchema.Proofs.Reading.Origin
import ModelSchema.Proofs.Seeding.Rows
import ModelSchema.Proofs.Sql.Tables

/-!
# Foreign keys

A foreign key is put together at three moments: an association gives a class a reference that is
like the key of another class, a table is derived from the references of its class, and columns get
their types from the domains of the properties. In a graph that is read these fit together. Both
columns of a foreign key are there and have one type (`columns_of_foreignKey`), since

* foreign keys lead to persistent classes (`foreignKey?_eq_some`), whose tables are all created;
* a key with a column name is a column (`isColumn_of_key`);
* the type of a column depends only on what a reference takes from the key (`columnType_congr`).
-/

namespace ModelSchema.Sql.Schema

open ModelSchema.Graph (Property)
open Reading (read sample)

variable {engine : Engine} {settings : Settings} {graph : Graph}

/-! ## Keys and references -/

/-- Properties with the same domain and the same type of their own have columns of one type.
References are made with both taken from the key (`Reading.KeysMatch`). -/
theorem columnType_congr {c other : Graph.Class} {a b : Property} {type keyType : String}
    (hdomain : a.domain = b.domain) (hown : a.persistentType = b.persistentType)
    (ha : Table.columnType engine graph c a = .ok type)
    (hb : Table.columnType engine graph other b = .ok keyType) : type = keyType := by
  have hdomains : graph.domainOf? a = graph.domainOf? b := by
    rw [Graph.domainOf?, Graph.domainOf?, hdomain]
  have htypes : Table.persistentType? graph a = Table.persistentType? graph b := by
    rw [Table.persistentType?, Table.persistentType?, hown, hdomains]
  simp only [Table.columnType, htypes, hown, hdomains] at ha hb
  cases hfound : Table.persistentType? graph b with
  | none =>
      rw [hfound] at ha
      cases ha
  | some found =>
      rw [hfound] at ha hb
      exact Except.ok.inj (ha.symm.trans hb)

/-- A key with a column name becomes a column. By the cases of `Arises`: only declared properties
are keys. -/
theorem isColumn_of_key {id : ClassId} {key : Property} {name : String}
    (harises : Reading.Assembly.Arises graph id key) (hprimary : key.isPrimaryKey = true)
    (hname : key.column = some name) : key.isColumn = true := by
  cases harises with
  | declared scope property =>
      -- Only persistent properties have a column name.
      simp only [Reading.Assembly.propertyOf, Option.ite_none_right_eq_some] at hname
      simp [Property.isColumn, Reading.Assembly.propertyOf, Property.plain, hname.1]
  | reference role isRequired _ _ => cases hprimary
  | referenceList target role isPersistent => cases hprimary
  | child target role isCollection => cases hprimary

/-- A persistent key has a column name, and becomes a column. -/
theorem column_of_key {id : ClassId} {key : Property}
    (harises : Reading.Assembly.Arises graph id key) (hprimary : key.isPrimaryKey = true)
    (hpersistent : key.isPersistent = true) :
    key.isColumn = true ∧ ∃ name, key.column = some name := by
  obtain ⟨name, hname⟩ : ∃ name, key.column = some name := by
    cases harises with
    | declared scope property => exact ⟨_, if_pos hpersistent⟩
    | reference role isRequired _ _ => cases hprimary
    | referenceList target role isPersistent => cases hprimary
    | child target role isCollection => cases hprimary
  exact ⟨isColumn_of_key harises hprimary hname, name, hname⟩

/-- A foreign key belongs to a reference, and leads to the first key column of the class referred
to. -/
theorem foreignKey?_eq_some {property : Property} {column : String} {key : ForeignKey}
    (h : Table.foreignKey? graph property column = some key) :
    ∃ target keyProperty, property.kind = .reference target ∧
      (graph.classAt target).primaryKey? = some keyProperty ∧
      (graph.classAt target).isPersistent = true ∧
      key.column = column ∧ key.targetTable = (graph.classAt target).table ∧
      keyProperty.column = some key.targetColumn := by
  simp only [Table.foreignKey?, Option.bind_eq_bind, Option.bind_eq_some_iff] at h
  obtain ⟨target, htarget, keyProperty, hkey, h⟩ := h
  split at h
  · next hpersistent =>
    obtain ⟨targetColumn, hcolumn, h⟩ := Option.bind_eq_some_iff.mp h
    cases h
    refine ⟨target, keyProperty, ?_, hkey, hpersistent, rfl, rfl, hcolumn⟩
    rw [Property.target?] at htarget
    split at htarget <;> cases htarget
    assumption
  · cases h

/-! ## Columns -/

/-- A column of a table that is created, with the class and the property it is derived from. -/
structure ColumnAt (engine : Engine) (settings : Settings) (graph : Graph) (id : ClassId)
    (property : Property) (found : Table) (column : Column) : Prop where
  table : table engine settings graph id = .ok found
  created : .createTable found ∈ (generate engine settings graph).scripts.create.statements
  declared : property ∈ (graph.classAt id).properties
  listed : column ∈ found.columns
  derived : Table.columnOf engine graph (graph.classAt id) property column.name = .ok column

/-- Complete scripts create the column of every property of a persistent class that becomes one. -/
theorem exists_columnAt (hcomplete : (generate engine settings graph).error = none) {id : ClassId}
    (hid : id ∈ graph.persistentIds) {property : Property} {name : String}
    (hproperty : (property, name) ∈ Table.columnProperties (graph.classAt id)) :
    ∃ found column, ColumnAt engine settings graph id property found column ∧
      column.name = name := by
  obtain ⟨⟨c, found⟩, hentry, rfl, htable⟩ :=
    exists_of_forall₂ (forall₂_entries hcomplete).flip id hid
  obtain ⟨column, hcolumn, hderived⟩ := Table.exists_column htable hproperty
  obtain ⟨rfl, -⟩ := Table.columnOf_eq_ok hderived
  refine ⟨found, column, ⟨htable, ?_, (Table.mem_columnProperties.mp hproperty).1, hcolumn,
    hderived⟩, rfl⟩
  rw [create_statements]
  exact List.mem_flatMap.mpr ⟨_, hentry, List.mem_cons_self⟩

/-- A foreign key is added to the table of a persistent class. -/
theorem exists_holder (hcomplete : (generate engine settings graph).error = none) {name : String}
    {key : ForeignKey}
    (h : .addForeignKey name key ∈ (generate engine settings graph).scripts.indexes.statements) :
    ∃ id ∈ graph.persistentIds, ∃ found, table engine settings graph id = .ok found ∧
      found.name = name ∧ key ∈ found.foreignKeys := by
  rw [index_statements hcomplete] at h
  obtain ⟨⟨c, found⟩, hentry, hstatement⟩ := List.mem_flatMap.mp h
  obtain ⟨id, hid, -, htable⟩ := exists_of_forall₂ (forall₂_entries hcomplete) _ hentry
  refine ⟨id, hid, found, htable, ?_⟩
  rcases List.mem_append.mp hstatement with hindex | hkey
  · obtain ⟨_, -, heq⟩ := List.mem_map.mp hindex
    cases heq
  · obtain ⟨_, hmem, heq⟩ := List.mem_map.mp hkey
    cases heq
    exact ⟨rfl, hmem⟩

/-! ## Foreign keys -/

/-- A foreign key in the scripts of a graph that is read belongs to a column of the table that it is
added to. It refers to a column of the primary key of another table, which the scripts create too,
and both columns have the same type. -/
theorem columns_of_foreignKey {suffixes : Naming.Suffixes} {shared : List Graph.Domain}
    {sources : List Reading.Source} {found : List Diagnostic}
    (hread : read suffixes shared sources = .ok (graph, found)) (engine : Engine)
    (settings : Settings) (hcomplete : (generate engine settings graph).error = none)
    {name : String} {key : ForeignKey}
    (h : .addForeignKey name key ∈ (generate engine settings graph).scripts.indexes.statements) :
    ∃ source ∈ graph.persistentIds, ∃ target ∈ graph.persistentIds,
      ∃ reference keyProperty holder referred column keyColumn,
        ColumnAt engine settings graph source reference holder column ∧
        ColumnAt engine settings graph target keyProperty referred keyColumn ∧
        reference.kind = .reference target ∧
        (graph.classAt target).primaryKey? = some keyProperty ∧
        holder.name = name ∧ column.name = key.column ∧
        referred.name = key.targetTable ∧ keyColumn.name = key.targetColumn ∧
        key.targetColumn ∈ referred.primaryKey ∧ column.type = keyColumn.type := by
  obtain ⟨source, hsource, holder, htable, rfl, hkey⟩ := exists_holder hcomplete h
  obtain ⟨_, hderives⟩ := Table.exists_columns htable
  rw [hderives.foreignKeys] at hkey
  obtain ⟨⟨reference, name⟩, hreference, hsome⟩ := List.mem_filterMap.mp hkey
  obtain ⟨target, keyProperty, hkind, hprimary, hpersistent, hname, htarget, hcolumn⟩ :=
    foreignKey?_eq_some hsome
  -- The key of the class referred to is one of its columns.
  have hkeyMem : keyProperty ∈ (graph.classAt target).properties :=
    List.mem_of_find?_eq_some hprimary
  have hkeyPrimary : keyProperty.isPrimaryKey = true := by
    simpa using List.find?_some hprimary
  have hkeyColumn : (keyProperty, key.targetColumn) ∈
      Table.columnProperties (graph.classAt target) :=
    Table.mem_columnProperties.mpr ⟨hkeyMem,
      isColumn_of_key (Reading.arises_of_read hread hkeyMem) hkeyPrimary hcolumn, hcolumn⟩
  have hids : target ∈ graph.persistentIds :=
    List.mem_filter.mpr ⟨List.mem_range.mpr (Graph.lt_of_mem_properties hkeyMem), hpersistent⟩
  obtain ⟨_, column, hcolumnAt, hcolumnName⟩ := exists_columnAt hcomplete hsource hreference
  obtain ⟨referred, keyColumn, hkeyAt, hkeyName⟩ := exists_columnAt hcomplete hids hkeyColumn
  obtain ⟨_, hreferred⟩ := Table.exists_columns hkeyAt.table
  obtain rfl : _ = holder := Except.ok.inj (hcolumnAt.table.symm.trans htable)
  refine ⟨source, hsource, target, hids, reference, keyProperty, _, referred, column, keyColumn,
    hcolumnAt, hkeyAt, hkind, hprimary, rfl, hcolumnName.trans hname.symm,
    hreferred.name.trans htarget.symm, hkeyName, ?_, ?_⟩
  · rw [hreferred.primaryKey]
    exact List.mem_map.mpr ⟨_, List.mem_filter.mpr ⟨hkeyColumn, hkeyPrimary⟩, rfl⟩
  · obtain ⟨likeKey, hlikeKey, hdomain, htype⟩ :=
      (Reading.keysMatch_of_read hread).reference source reference hcolumnAt.declared target hkind
    obtain rfl : likeKey = keyProperty := Option.some.inj (hlikeKey.symm.trans hprimary)
    exact columnType_congr hdomain htype (Table.columnOf_eq_ok hcolumnAt.derived).2
      (Table.columnOf_eq_ok hkeyAt.derived).2

theorem columns_of_sample_foreignKey :
    ∃ graph found, read .standard [] [sample] = .ok (graph, found) ∧
      (generate .oracle Seeding.sampleSettings graph).error = none ∧
      .addForeignKey "SHADE" ⟨"COLOR_ID", "COLOR", "COLOR_ID"⟩ ∈
        (generate .oracle Seeding.sampleSettings graph).scripts.indexes.statements ∧
      ∃ source ∈ graph.persistentIds, ∃ target ∈ graph.persistentIds,
        ∃ reference keyProperty holder referred column keyColumn,
          ColumnAt .oracle Seeding.sampleSettings graph source reference holder column ∧
          ColumnAt .oracle Seeding.sampleSettings graph target keyProperty referred keyColumn ∧
          reference.kind = .reference target ∧
          (graph.classAt target).primaryKey? = some keyProperty ∧
          holder.name = "SHADE" ∧ column.name = "COLOR_ID" ∧
          referred.name = "COLOR" ∧ keyColumn.name = "COLOR_ID" ∧
          "COLOR_ID" ∈ referred.primaryKey ∧ column.type = keyColumn.type := by
  obtain ⟨graph, found, hread, hscripts⟩ := Reading.exists_read_sample
    (P := fun graph _ =>
      (generate .oracle Seeding.sampleSettings graph).error == none &&
        (generate .oracle Seeding.sampleSettings graph).scripts.indexes.statements.contains
          (.addForeignKey "SHADE" ⟨"COLOR_ID", "COLOR", "COLOR_ID"⟩))
    (by
      conv => lhs; arg 2; cbv
      decide +kernel)
  simp only [Bool.and_eq_true, beq_iff_eq, List.contains_iff_mem] at hscripts
  exact ⟨graph, found, hread, hscripts.1, hscripts.2,
    columns_of_foreignKey hread .oracle Seeding.sampleSettings hscripts.1 hscripts.2⟩

end ModelSchema.Sql.Schema
