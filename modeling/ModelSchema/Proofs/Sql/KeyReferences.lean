import ModelSchema.Proofs.Sql.Clashes

/-!
# References to keys

A foreign key refers to one column, but a class may have a key of several properties. Its table then
has a primary key of several columns, of which foreign keys use the first, and that one is not
unique by itself. Checks do not mind (`exists_partial_reference`), so what a clean model says is
that a foreign key refers to a key exactly if the class referred to has a key of one property
(`referencesKey_of_clean`).
-/

namespace ModelSchema.Sql

open ModelSchema.Graph (Property)
open Reading (read)

def Statement.uniqueKey? : Statement → Option (String × List String)
  | addUnique table _ columns => some (table, columns)
  | _ => none

/-- The column that a foreign key refers to is the whole primary key of its table, or it has a
unique key of its own. -/
def Scripts.ReferencesKey (scripts : Scripts) (key : ForeignKey) : Prop :=
  (∃ table ∈ scripts.create.created, table.name = key.targetTable ∧
      table.primaryKey = [key.targetColumn]) ∨
    ∃ statement ∈ scripts.uniqueKeys.statements,
      statement.uniqueKey? = some (key.targetTable, [key.targetColumn])

instance (scripts : Scripts) (key : ForeignKey) : Decidable (scripts.ReferencesKey key) :=
  inferInstanceAs (Decidable (_ ∨ _))

namespace Schema

/-- A foreign key comes from a reference of one persistent class to another one. -/
structure ComesFrom (graph : Graph) (tableName : String) (key : ForeignKey) (source : ClassId)
    (reference : Property) (target : ClassId) : Prop where
  isPersistent : source ∈ graph.persistentIds
  isTargetPersistent : target ∈ graph.persistentIds
  table : (graph.classAt source).table = tableName
  column : (reference, key.column) ∈ Table.columnProperties (graph.classAt source)
  kind : reference.kind = .reference target
  targetTable : (graph.classAt target).table = key.targetTable

variable {engine : Engine} {settings : Settings} {graph : Graph}

/-! ## Keys and their columns -/

/-- If all keys are columns, the key of a class and the primary key of its table are the same list.
-/
theorem map_column_primaryKeys {c : Graph.Class}
    (h : ∀ key ∈ c.primaryKeys, key.isColumn = true ∧ ∃ name, key.column = some name) :
    c.primaryKeys.map (·.column) = (Table.columnsWhere c (·.isPrimaryKey)).map some := by
  unfold Graph.Class.primaryKeys at h ⊢
  unfold Table.columnsWhere Table.columnProperties
  generalize c.properties = properties at h ⊢
  induction properties with
  | nil => rfl
  | cons property rest ih =>
      have hrest := ih fun key hkey => h key (((List.sublist_cons_self ..).filter _).subset hkey)
      by_cases hkey : property.isPrimaryKey = true
      · obtain ⟨hcolumn, name, hname⟩ := h property (List.mem_filter.mpr ⟨List.mem_cons_self, hkey⟩)
        simpa [List.filter_cons, hkey, hcolumn, hname] using hrest
      · -- The column of another property is not part of the key.
        cases hcolumn : property.isColumn <;> cases hname : property.column <;>
          simpa [List.filter_cons, hkey, hcolumn, hname] using hrest

/-- A foreign key in the scripts has a reference behind it, and a key property before it.
`exists_holder` gives the one and `foreignKey?_eq_some` the other. -/
theorem exists_reference {suffixes : Naming.Suffixes} {shared : List Graph.Domain}
    {sources : List Reading.Source} {found : List Diagnostic}
    (hread : read suffixes shared sources = .ok (graph, found))
    (hcomplete : (generate engine settings graph).error = none) {name : String} {key : ForeignKey}
    (h : .addForeignKey name key ∈ (generate engine settings graph).scripts.indexes.statements) :
    ∃ source reference target keyProperty, ComesFrom graph name key source reference target ∧
      (graph.classAt target).primaryKey? = some keyProperty ∧
      (keyProperty, key.targetColumn) ∈ Table.columnProperties (graph.classAt target) := by
  obtain ⟨source, hsource, holder, htable, rfl, hkey⟩ := exists_holder hcomplete h
  obtain ⟨_, hderives⟩ := Table.exists_columns htable
  rw [hderives.foreignKeys] at hkey
  obtain ⟨⟨reference, column⟩, hreference, hsome⟩ := List.mem_filterMap.mp hkey
  obtain ⟨target, keyProperty, hkind, hprimary, hpersistent, rfl, htarget, hcolumn⟩ :=
    foreignKey?_eq_some hsome
  have hmem : keyProperty ∈ (graph.classAt target).properties :=
    List.mem_of_find?_eq_some hprimary
  have hisKey : keyProperty.isPrimaryKey = true := by simpa using List.find?_some hprimary
  have hids : target ∈ graph.persistentIds :=
    List.mem_filter.mpr ⟨List.mem_range.mpr (Graph.lt_of_mem_properties hmem), hpersistent⟩
  refine ⟨source, reference, target, keyProperty,
    ⟨hsource, hids, hderives.name.symm, hreference, hkind, htarget.symm⟩, hprimary, ?_⟩
  exact Table.mem_columnProperties.mpr
    ⟨hmem, isColumn_of_key (Reading.arises_of_read hread hmem) hisKey hcolumn, hcolumn⟩

/-! ## Unique columns -/

/-- A unique key of one column belongs to a property that is no key. -/
theorem exists_unique_property {id : ClassId} {found : Table}
    (htable : table engine settings graph id = .ok found) {statement : Statement}
    (h : statement ∈ uniqueStatements found) {tableName column : String}
    (hunique : statement.uniqueKey? = some (tableName, [column])) :
    found.name = tableName ∧ ∃ property,
      (property, column) ∈ Table.columnProperties (graph.classAt id) ∧
        property.isPrimaryKey = false := by
  rcases List.mem_append.mp h with hsingle | hcomposite
  · obtain ⟨listed, hlisted, rfl⟩ := List.mem_map.mp hsingle
    cases hunique
    rw [(Table.uniqueColumns_ofClass htable).1] at hlisted
    obtain ⟨⟨property, _⟩, hentry, rfl⟩ := List.mem_map.mp hlisted
    obtain ⟨hproperty, hmarks⟩ := List.mem_filter.mp hentry
    refine ⟨rfl, property, hproperty, ?_⟩
    simpa using (Bool.and_eq_true_iff.mp hmarks).2
  · -- Columns that are unique together are several.
    split at hcomposite
    · next hseveral =>
      rw [List.mem_singleton.mp hcomposite] at hunique
      obtain ⟨-, hcolumns⟩ := Prod.mk.inj (Option.some.inj hunique)
      simp [Table.hasCompositeUnique, hcolumns] at hseveral
    · exact absurd hcomposite List.not_mem_nil

/-- If names are distinct, a foreign key that refers to a key refers to the whole primary key. With
clashes, `ReferencesKey` might hold by a column of another table of the same name. -/
theorem primaryKey_of_referencesKey (hcomplete : (generate engine settings graph).error = none)
    (hdistinct : (generate engine settings graph).scripts.create.Distinct) {id : ClassId}
    (hid : id ∈ graph.persistentIds) {referred : Table}
    (htable : table engine settings graph id = .ok referred)
    (hcreated : referred ∈ (generate engine settings graph).scripts.create.created)
    {key : ForeignKey} (hname : referred.name = key.targetTable) {keyProperty : Property}
    (hprimary : keyProperty.isPrimaryKey = true)
    (hcolumn : (keyProperty, key.targetColumn) ∈ Table.columnProperties (graph.classAt id))
    (h : (generate engine settings graph).scripts.ReferencesKey key) :
    referred.primaryKey = [key.targetColumn] := by
  rcases h with ⟨other, hother, hsame, hkey⟩ | ⟨statement, hstatement, hunique⟩
  · rwa [hdistinct.eq_of_name hcreated hother (hname.trans hsame.symm)]
  · -- The column has no unique key: it would belong to a property that is no key.
    rw [unique_statements] at hstatement
    obtain ⟨⟨c, other⟩, hentry, hstatement⟩ := List.mem_flatMap.mp hstatement
    obtain ⟨_, _, _, hderived⟩ := exists_of_forall₂ (forall₂_entries hcomplete) _ hentry
    have hother : other ∈ (generate engine settings graph).scripts.create.created := by
      rw [created_create]
      exact List.mem_flatMap.mpr ⟨_, hentry, List.mem_cons_self⟩
    obtain rfl : referred = other := hdistinct.eq_of_name hcreated hother
      (hname.trans (exists_unique_property hderived hstatement hunique).1.symm)
    obtain ⟨-, property, hproperty, hnoKey⟩ := exists_unique_property htable hstatement hunique
    have hcolumns := (nodup_created_iff hcomplete).mp (Script.distinct_iff.mp hdistinct).1 id hid
    have heq := List.inj_on_of_nodup_map hcolumns.of_append_left hproperty hcolumn rfl
    cases heq
    rw [hprimary] at hnoKey
    cases hnoKey

/-! ## Clean models -/

/-- A foreign key of a clean model refers to the first column of the primary key of its target,
which has a column for each property of the key. This is a key if there is only one such property,
and, as far as names are distinct, not otherwise. -/
theorem referencesKey_of_clean {suffixes : Naming.Suffixes} {shared : List Graph.Domain}
    {sources : List Reading.Source} {found : List Diagnostic}
    (hread : read suffixes shared sources = .ok (graph, found)) (options : Check.Options)
    (hskip : ∀ c ∈ graph.classes, options.allowlist.skips c.name = false)
    (hclean : (Check.run options graph).1 = []) (engine : Engine) (settings : Settings)
    (hcomplete : (generate engine settings graph).error = none) {name : String} {key : ForeignKey}
    (h : .addForeignKey name key ∈ (generate engine settings graph).scripts.indexes.statements) :
    ∃ source reference target referred, ComesFrom graph name key source reference target ∧
      table engine settings graph target = .ok referred ∧
      referred ∈ (generate engine settings graph).scripts.create.created ∧
      referred.name = key.targetTable ∧
      (graph.classAt target).primaryKeys.map (·.column) = referred.primaryKey.map some ∧
      referred.primaryKey.head? = some key.targetColumn ∧
      ((graph.classAt target).primaryKeys.length = 1 →
        (generate engine settings graph).scripts.ReferencesKey key) ∧
      ((generate engine settings graph).scripts.create.Distinct →
        (generate engine settings graph).scripts.ReferencesKey key →
          (graph.classAt target).primaryKeys.length = 1) := by
  obtain ⟨source, reference, target, keyProperty, hfrom, hprimary, hcolumn⟩ :=
    exists_reference hread hcomplete h
  have htarget := hfrom.isTargetPersistent
  obtain ⟨referred, _, hkeyAt, -⟩ := exists_columnAt hcomplete htarget hcolumn
  obtain ⟨_, hderives⟩ := Table.exists_columns hkeyAt.table
  have hname : referred.name = key.targetTable := hderives.name.trans hfrom.targetTable
  have hcreated := Script.mem_created.mpr hkeyAt.created
  have hcolumns : (graph.classAt target).primaryKeys.map (·.column) =
      referred.primaryKey.map some := by
    rw [hderives.primaryKey]
    refine map_column_primaryKeys fun key hkey => ?_
    obtain ⟨hmem, hisKey⟩ := List.mem_filter.mp hkey
    obtain ⟨_, htabular⟩ :=
      Check.tabular_of_run (Reading.wellFormed_of_read hread) hskip hclean htarget
    exact column_of_key (Reading.arises_of_read hread hmem) hisKey (htabular.keys key hmem hisKey)
  have hlength : (graph.classAt target).primaryKeys.length = referred.primaryKey.length := by
    simpa using congrArg List.length hcolumns
  have hhead : referred.primaryKey.head? = some key.targetColumn := by
    have hfirst : (graph.classAt target).primaryKeys.head? = some keyProperty := by
      rw [Graph.Class.primaryKeys, List.head?_filter]
      exact hprimary
    have hheads := congrArg List.head? hcolumns
    rw [List.head?_map, List.head?_map, hfirst] at hheads
    simpa [(Table.mem_columnProperties.mp hcolumn).2.2] using hheads.symm
  refine ⟨source, reference, target, referred, hfrom, hkeyAt.table, hcreated, hname, hcolumns,
    hhead, fun hone => ?_, fun hdistinct hkey => ?_⟩
  · rw [hlength, List.length_eq_one_iff] at hone
    obtain ⟨only, honly⟩ := hone
    rw [honly] at hhead
    refine .inl ⟨referred, hcreated, hname, ?_⟩
    rw [honly, Option.some.inj hhead]
  · have hwhole := primaryKey_of_referencesKey hcomplete hdistinct htarget hkeyAt.table
      hcreated hname (by simpa using List.find?_some hprimary) hcolumn hkey
    rw [hlength, hwhole]
    rfl

theorem referencesKey_offers :
    ∃ graph found, read .standard [] [offers] = .ok (graph, found) ∧
      (∀ c ∈ graph.classes, strict.allowlist.skips c.name = false) ∧
      (Check.run strict graph).1 = [] ∧
      (generate .oracle Seeding.sampleSettings graph).error = none ∧
      .addForeignKey "OFFER" ⟨"PRD_ID_MAIN", "PRODUCT", "PRD_ID"⟩ ∈
        (generate .oracle Seeding.sampleSettings graph).scripts.indexes.statements ∧
      ∃ source reference target referred,
        ComesFrom graph "OFFER" ⟨"PRD_ID_MAIN", "PRODUCT", "PRD_ID"⟩ source reference target ∧
        table .oracle Seeding.sampleSettings graph target = .ok referred ∧
        referred ∈ (generate .oracle Seeding.sampleSettings graph).scripts.create.created ∧
        referred.name = "PRODUCT" ∧
        (graph.classAt target).primaryKeys.map (·.column) = referred.primaryKey.map some ∧
        referred.primaryKey.head? = some "PRD_ID" ∧
        ((graph.classAt target).primaryKeys.length = 1 →
          (generate .oracle Seeding.sampleSettings graph).scripts.ReferencesKey
            ⟨"PRD_ID_MAIN", "PRODUCT", "PRD_ID"⟩) ∧
        ((generate .oracle Seeding.sampleSettings graph).scripts.create.Distinct →
          (generate .oracle Seeding.sampleSettings graph).scripts.ReferencesKey
            ⟨"PRD_ID_MAIN", "PRODUCT", "PRD_ID"⟩ →
            (graph.classAt target).primaryKeys.length = 1) := by
  obtain ⟨graph, found, hread, hchecked⟩ := Reading.exists_read .standard []
    (.cons document_offers .nil)
    (P := fun graph _ =>
      graph.classes.all (fun c => !strict.allowlist.skips c.name) &&
        (Check.run strict graph).1 == [] &&
        (generate .oracle Seeding.sampleSettings graph).error == none &&
        decide (.addForeignKey "OFFER" ⟨"PRD_ID_MAIN", "PRODUCT", "PRD_ID"⟩ ∈
          (generate .oracle Seeding.sampleSettings graph).scripts.indexes.statements))
    (by decide +kernel)
  simp only [Bool.and_eq_true, List.all_eq_true, Bool.not_eq_true', beq_iff_eq,
    decide_eq_true_eq] at hchecked
  obtain ⟨⟨⟨hskip, hclean⟩, hcomplete⟩, hkey⟩ := hchecked
  exact ⟨graph, found, hread, hskip, hclean, hcomplete, hkey,
    referencesKey_of_clean hread strict hskip hclean .oracle Seeding.sampleSettings hcomplete hkey⟩

/-- A clean model with a key of two properties, to which another class refers. -/
def tags : Reading.Source where
  path := "Shop.oom"
  format := .objectModel
  content :=
    "<Model><Code>Shop</Code><Name>Shop</Name>
      <Domains><Domain Id='d'>
        <Code>DO_ID</Code><DataType>int</DataType><PersistentDataType>int</PersistentDataType>
      </Domain></Domains>
      <Packages><Package Id='p'><Code>SalesDataContract</Code><Comment>-</Comment><Classes>
        <Class Id='x'>
          <Code>Item</Code><Name>Item</Name><Comment>-</Comment><Persistent>1</Persistent>
          <Trigram>TAG</Trigram>
          <Attributes>
            <Attribute Id='i'>
              <Code>Id</Code><Comment>-</Comment><Persistent>1</Persistent>
              <Multiplicity>1..1</Multiplicity><PrimaryIdentifier>1</PrimaryIdentifier>
              <Domain><Domain Ref='d'/></Domain>
            </Attribute>
            <Attribute Id='j'>
              <Code>PriCode</Code><Comment>-</Comment><Persistent>1</Persistent>
              <Domain><Domain Ref='d'/></Domain><Unique>1</Unique>
            </Attribute>
          </Attributes>
        </Class>
        <Class Id='y'>
          <Code>ItemTag</Code><Name>ItemTag</Name><Comment>-</Comment><Persistent>1</Persistent>
          <Trigram>PRI</Trigram>
          <Attributes>
            <Attribute Id='k'>
              <Code>Id</Code><Comment>-</Comment><Persistent>1</Persistent>
              <Multiplicity>1..1</Multiplicity><PrimaryIdentifier>1</PrimaryIdentifier>
              <Domain><Domain Ref='d'/></Domain>
            </Attribute>
            <Attribute Id='l'>
              <Code>Line</Code><Comment>-</Comment><Persistent>1</Persistent>
              <Multiplicity>1..1</Multiplicity><PrimaryIdentifier>1</PrimaryIdentifier>
              <Domain><Domain Ref='d'/></Domain>
            </Attribute>
            <Attribute Id='m'>
              <Code>Code</Code><Comment>-</Comment><Persistent>1</Persistent>
              <Domain><Domain Ref='d'/></Domain><Unique>1</Unique>
            </Attribute>
          </Attributes>
        </Class>
      </Classes></Package></Packages>
      <Associations><Association Id='s'>
        <RoleAMultiplicity>0..*</RoleAMultiplicity><RoleBMultiplicity>0..1</RoleBMultiplicity>
        <Object1><Class Ref='x'/></Object1><Object2><Class Ref='y'/></Object2>
      </Association></Associations></Model>"

def tagsOutline : Outline :=
  shopOutline
    [tableOutline "x" "Item" "TAG" false
        [fieldOutline "i" "Id" true, { fieldOutline "j" "PriCode" false with isUnique := true }],
      tableOutline "y" "ItemTag" "PRI" false
        [fieldOutline "k" "Id" true, fieldOutline "l" "Line" true,
          { fieldOutline "m" "Code" false with isUnique := true }]]
    [⟨"s", none, none, ⟨"x", "0..N", none⟩, ⟨"y", "0..1", none⟩, none⟩]

set_option maxRecDepth 20000 in
/-- Reading the text once, for the kernel. -/
theorem document_tags : tags.document = .ok ⟨"Shop.oom", tagsOutline⟩ := by
  rw [Reading.Source.document, Reading.Source.outline,
    show Xml.parse? tags.content = _ from Reading.parse?_ofList _]
  decide +kernel

/-- Checks without findings do not keep a foreign key from referring to a part of a key. -/
theorem exists_partial_reference :
    ∃ graph found, read .standard [] [tags] = .ok (graph, found) ∧
      (∀ c ∈ graph.classes, strict.allowlist.skips c.name = false) ∧
      (Check.run strict graph).1 = [] ∧
      (generate .sqlServer Seeding.sampleSettings graph).error = none ∧
      .addForeignKey "ITEM" ⟨"PRI_ID", "ITEM_TAG", "PRI_ID"⟩ ∈
        (generate .sqlServer Seeding.sampleSettings graph).scripts.indexes.statements ∧
      ¬ (generate .sqlServer Seeding.sampleSettings graph).scripts.ReferencesKey
        ⟨"PRI_ID", "ITEM_TAG", "PRI_ID"⟩ := by
  obtain ⟨graph, found, hread, hchecked⟩ := Reading.exists_read .standard []
    (.cons document_tags .nil)
    (P := fun graph _ =>
      graph.classes.all (fun c => !strict.allowlist.skips c.name) &&
        (Check.run strict graph).1 == [] &&
        (generate .sqlServer Seeding.sampleSettings graph).error == none &&
        decide (.addForeignKey "ITEM" ⟨"PRI_ID", "ITEM_TAG", "PRI_ID"⟩ ∈
          (generate .sqlServer Seeding.sampleSettings graph).scripts.indexes.statements) &&
        !decide ((generate .sqlServer Seeding.sampleSettings graph).scripts.ReferencesKey
          ⟨"PRI_ID", "ITEM_TAG", "PRI_ID"⟩))
    (by decide +kernel)
  simp only [Bool.and_eq_true, List.all_eq_true, Bool.not_eq_true', beq_iff_eq,
    decide_eq_true_eq, decide_eq_false_iff_not] at hchecked
  obtain ⟨⟨⟨⟨hskip, hclean⟩, hcomplete⟩, hkey⟩, hpartial⟩ := hchecked
  exact ⟨graph, found, hread, hskip, hclean, hcomplete, hkey, hpartial⟩

end Schema

end ModelSchema.Sql
