import ModelSchema.Proofs.Check.Trigrams
import ModelSchema.Proofs.Gate
import ModelSchema.Proofs.Sql.ForeignKeys

/-!
# Clashes of names

Checks compare the names of classes and properties, but not the names of tables and columns that are
derived from those. So a clean model can have a table with two columns of one name, and two tables
of one name (`exists_clash`).

Checks do see to it that trigrams are distinct and that columns start with them. A column starts
with the trigram of the class that it belongs to: that of its table, or the class it refers to
(`leads_owner`). Columns that belong to different classes therefore differ (`Leads.unique`), and
what remains to be compared is little: `ClashFree` says exactly when the names of a clean model are
distinct (`distinct_iff_clashFree`).
-/

namespace ModelSchema.Sql

open ModelSchema.Graph (Property)
open Reading (read)

/-! ## Created tables

What it means for names to clash, said of the scripts. -/

def Statement.created? : Statement → Option Table
  | createTable table => some table
  | _ => none

def Script.created (script : Script) : List Table :=
  script.statements.filterMap Statement.created?

theorem Script.mem_created {script : Script} {table : Table} :
    table ∈ script.created ↔ .createTable table ∈ script.statements := by
  rw [created, List.mem_filterMap]
  constructor
  · rintro ⟨statement, hmem, hcreated⟩
    cases statement <;> cases hcreated
    exact hmem
  · exact fun hmem => ⟨_, hmem, rfl⟩

/-- No table of a script has two columns of one name, and no two tables have one name. -/
structure Script.Distinct (script : Script) : Prop where
  columns : ∀ table, .createTable table ∈ script.statements → (table.columns.map (·.name)).Nodup
  tables : (script.created.map (·.name)).Nodup

theorem Script.distinct_iff {script : Script} :
    script.Distinct ↔ (∀ table ∈ script.created, (table.columns.map (·.name)).Nodup) ∧
      (script.created.map (·.name)).Nodup := by
  simp only [mem_created]
  exact ⟨fun h => ⟨h.columns, h.tables⟩, fun h => ⟨h.1, h.2⟩⟩

instance (script : Script) : Decidable script.Distinct :=
  decidable_of_iff _ Script.distinct_iff.symm

/-- Tables are told by their names. -/
theorem Script.Distinct.eq_of_name {script : Script} (h : script.Distinct) {a b : Table}
    (ha : a ∈ script.created) (hb : b ∈ script.created) (hname : a.name = b.name) : a = b :=
  List.inj_on_of_nodup_map h.tables ha hb hname

namespace Table

/-- The tables of a class: its own one, and the history of that. -/
def created (engine : Engine) (c : Graph.Class) (table : Table) : List Table :=
  table :: if c.isHistorized then [table.history engine] else []

/-- The columns of the tables of a class that no property declares. -/
def technicalColumns (c : Graph.Class) : List String :=
  ((if c.isAudited then ["CREATED_AT", "UPDATED_AT"] else [])
    ++ (if c.isExportDelta then ["LAST_EXPORT"] else [])
    ++ if c.isHistorized then ["HISTO_DATE", "HISTO_IS_CREATION"] else []).map
      (technicalColumn c.trigram)

def historyNames (c : Graph.Class) : List String :=
  if c.isHistorized then [c.table ++ "_HISTO"] else []

def names (c : Graph.Class) : List String :=
  c.table :: historyNames c

variable {engine : Engine} {graph : Graph} {c : Graph.Class} {table : Table}
  {columns : List Column}

/-- The tables of a class are named after the class, not after what is in them. -/
theorem map_name_created (h : Derives engine graph c table columns) :
    (created engine c table).map (·.name) = names c := by
  cases hhistorized : c.isHistorized <;>
    simp [created, names, historyNames, history, hhistorized, h.name]

/-- All columns of a class are in one of its tables: the history if there is one. The columns of the
table itself are among those. -/
theorem nodup_columns_iff (h : Derives engine graph c table columns) :
    (∀ found ∈ created engine c table, (found.columns.map (·.name)).Nodup) ↔
      ((columnProperties c).map (·.2) ++ technicalColumns c).Nodup := by
  have hdeclared : columns.map (·.name) = (columnProperties c).map (·.2) :=
    (map_eq_of_forall₂ h.properties fun _ _ hcolumn => (columnOf_eq_ok hcolumn).1.symm).symm
  have hcolumns : table.columns.map (·.name) = (columnProperties c).map (·.2) ++
      ((if c.isAudited then ["CREATED_AT", "UPDATED_AT"] else [])
        ++ if c.isExportDelta then ["LAST_EXPORT"] else []).map (technicalColumn c.trigram) := by
    cases haudited : c.isAudited <;> cases hexport : c.isExportDelta <;>
      simp [h.columns, hdeclared, auditColumns, exportColumn?, technical, haudited, hexport]
  cases hhistorized : c.isHistorized with
  | false => simp [created, technicalColumns, hhistorized, hcolumns]
  | true =>
      have hhistory : (table.history engine).columns.map (·.name) =
          (columnProperties c).map (·.2) ++ technicalColumns c := by
        simp [history, technicalColumns, hhistorized, h.trigram, Function.comp_def, hcolumns]
      have hsublist : (table.columns.map (·.name)).Sublist
          ((table.history engine).columns.map (·.name)) := by
        simp [history, Function.comp_def]
      rw [← hhistory]
      simp only [created, hhistorized, if_true, List.forall_mem_cons, List.not_mem_nil,
        false_implies, implies_true, and_true]
      exact ⟨fun hboth => hboth.2, fun hnodup => ⟨hsublist.nodup hnodup, hnodup⟩⟩

/-- The technical columns of a class differ. -/
theorem nodup_technicalColumns {trigram : String} (h : c.trigram = some trigram) :
    (technicalColumns c).Nodup := by
  have hinjective : Function.Injective (technicalColumn c.trigram) := by
    intro a b heq
    simpa [technicalColumn, h] using heq
  refine List.Nodup.map hinjective ?_
  cases c.isAudited <;> cases c.isExportDelta <;> cases c.isHistorized <;> decide

end Table

namespace Schema

variable {engine : Engine} {settings : Settings} {graph : Graph}

/-- Sequences and triggers create no tables. -/
theorem created_create :
    (generate engine settings graph).scripts.create.created =
      (entries engine settings graph).flatMap fun entry =>
        Table.created engine entry.1 entry.2 := by
  rw [Script.created, create_statements, List.filterMap_flatMap]
  congr 1
  funext entry
  rw [createStatements, sequenceStatements_eq, Table.created]
  cases entry.1.isHistorized <;> cases entry.2.usesSequence engine <;> rfl

section Complete

variable (hcomplete : (generate engine settings graph).error = none)

include hcomplete

/-- For complete scripts, the names of tables are a function of the classes. -/
theorem map_name_created_create :
    ((generate engine settings graph).scripts.create.created).map (·.name) =
      graph.persistentIds.flatMap fun id => Table.names (graph.classAt id) := by
  rw [created_create, List.map_flatMap]
  refine (flatMap_eq_of_forall₂ (forall₂_entries hcomplete) ?_).symm
  rintro id ⟨c, found⟩ ⟨rfl, htable⟩
  obtain ⟨_, hderives⟩ := Table.exists_columns htable
  exact (Table.map_name_created hderives).symm

/-- And so are the names of columns. -/
theorem nodup_created_iff :
    (∀ table ∈ (generate engine settings graph).scripts.create.created,
        (table.columns.map (·.name)).Nodup) ↔
      ∀ id ∈ graph.persistentIds, ((Table.columnProperties (graph.classAt id)).map (·.2) ++
        Table.technicalColumns (graph.classAt id)).Nodup := by
  have hentries := forall₂_entries hcomplete
  rw [created_create, List.forall_mem_flatMap]
  constructor
  · intro h id hid
    obtain ⟨⟨c, found⟩, hentry, rfl, htable⟩ := exists_of_forall₂ hentries.flip id hid
    obtain ⟨_, hderives⟩ := Table.exists_columns htable
    exact (Table.nodup_columns_iff hderives).mp (h _ hentry)
  · intro h entry hentry
    obtain ⟨id, hid, heq, htable⟩ := exists_of_forall₂ hentries entry hentry
    obtain ⟨_, hderives⟩ := Table.exists_columns htable
    rw [heq]
    exact (Table.nodup_columns_iff hderives).mpr (h id hid)

end Complete

/-- Names of histories, with the suffix taken out. -/
theorem flatMap_historyNames (graph : Graph) (ids : List ClassId) :
    (ids.flatMap fun id => Table.historyNames (graph.classAt id)) =
      ((ids.filter fun id => (graph.classAt id).isHistorized).map
        fun id => (graph.classAt id).table).map (· ++ "_HISTO") := by
  induction ids with
  | nil => rfl
  | cons id rest ih =>
      rw [List.flatMap_cons, ih]
      cases hid : (graph.classAt id).isHistorized <;> simp [Table.historyNames, hid]

/-- The names of tables and histories differ if tables do, and no table is named like a history. -/
theorem nodup_names_iff (graph : Graph) (ids : List ClassId) :
    (ids.flatMap fun id => Table.names (graph.classAt id)).Nodup ↔
      (ids.map fun id => (graph.classAt id).table).Nodup ∧
        ∀ id ∈ ids, ∀ other ∈ ids, (graph.classAt other).isHistorized = true →
          (graph.classAt id).table ≠ (graph.classAt other).table ++ "_HISTO" := by
  have hperm : (ids.flatMap fun id => Table.names (graph.classAt id)).Perm
      ((ids.map fun id => (graph.classAt id).table) ++
        ids.flatMap fun id => Table.historyNames (graph.classAt id)) := by
    rw [List.map_eq_flatMap]
    exact (List.flatMap_append_perm ids (fun id => [(graph.classAt id).table]) _).symm
  rw [hperm.nodup_iff, List.nodup_append, flatMap_historyNames]
  constructor
  · rintro ⟨htables, -, hdiffer⟩
    refine ⟨htables, fun id hid other hother hhistorized => ?_⟩
    refine hdiffer _ (List.mem_map_of_mem hid) _ (List.mem_map_of_mem (List.mem_map_of_mem ?_))
    exact List.mem_filter.mpr ⟨hother, hhistorized⟩
  · rintro ⟨htables, hdiffer⟩
    refine ⟨htables, ?_, ?_⟩
    · refine List.Nodup.map (fun a b heq => ?_) ((List.filter_sublist.map _).nodup htables)
      exact (String.append_left_inj "_HISTO").mp heq
    · intro name hname history hhistory
      obtain ⟨id, hid, rfl⟩ := List.mem_map.mp hname
      simp only [List.mem_map, List.mem_filter] at hhistory
      obtain ⟨_, ⟨other, ⟨hother, hhistorized⟩, rfl⟩, rfl⟩ := hhistory
      exact hdiffer id hid other hother hhistorized

/-! ## Columns by owner

In a clean model, the beginning of a column tells its `owner`. So only columns of one owner can have
the same name. -/

/-- The class that the column of a property belongs to: the one it refers to, or else its own. -/
def owner (id : ClassId) (property : Property) : ClassId :=
  property.target?.getD id

/-- A name starts with the trigram of a class. Trigrams have three letters, so no two different ones
start one name. -/
def Leads (graph : Graph) (id : ClassId) (name : String) : Prop :=
  ∃ trigram, (graph.classAt id).trigram = some trigram ∧ trigram.toList <+: name.toList

theorem Leads.append {id : ClassId} {name : String} (h : Leads graph id name) (text : String) :
    Leads graph id (name ++ text) := by
  obtain ⟨trigram, htrigram, hstart⟩ := h
  refine ⟨trigram, htrigram, ?_⟩
  rw [String.toList_append]
  exact hstart.trans (List.prefix_append ..)

def roleSuffix : Option String → String
  | some words => "_" ++ words
  | none => ""

/-- No role is different from every role, and also from one without letters, as there would be an
underscore. -/
theorem roleSuffix_injective : Function.Injective roleSuffix := by
  intro a b h
  have hne (words : String) : "_" ++ words ≠ "" := by
    intro heq
    simpa using congrArg String.toList heq
  cases a with
  | none =>
      cases b with
      | none => rfl
      | some words => exact absurd h.symm (hne words)
  | some words =>
      cases b with
      | none => exact absurd h (hne words)
      | some others => exact congrArg some ((String.append_right_inj "_").mp h)

/-- Columns are distinct if those of each part are, and parts have no columns in common. -/
theorem nodup_map_iff_of_parts {α β γ : Type} [DecidableEq γ] {f : α → β} (part : α → γ)
    {as : List α} (h : ∀ a ∈ as, ∀ b ∈ as, f a = f b → part a = part b) :
    (as.map f).Nodup ↔ ∀ p, ((as.filter fun a => part a = p).map f).Nodup := by
  constructor
  · exact fun hall p => (List.filter_sublist.map f).nodup hall
  · intro hparts
    -- From the parts to the whole: an element can only be like one of its own part.
    induction as with
    | nil => exact List.nodup_nil
    | cons a rest ih =>
        have hown := hparts (part a)
        rw [List.filter_cons_of_pos (by simp), List.map_cons, List.nodup_cons] at hown
        rw [List.map_cons, List.nodup_cons]
        constructor
        · intro hmem
          obtain ⟨b, hb, heq⟩ := List.mem_map.mp hmem
          have hpart := h b (List.mem_cons_of_mem _ hb) a List.mem_cons_self heq
          exact hown.1 (List.mem_map.mpr ⟨b, List.mem_filter.mpr ⟨hb, by simpa using hpart⟩, heq⟩)
        · refine ih (fun b hb c hc => h b (List.mem_cons_of_mem _ hb) c
            (List.mem_cons_of_mem _ hc)) fun p => ?_
          exact (((List.sublist_cons_self a rest).filter _).map f).nodup (hparts p)

/-- The properties of a class whose columns belong to a class, with those columns. -/
def belonging (graph : Graph) (id target : ClassId) : List (Property × String) :=
  (Table.columnProperties (graph.classAt id)).filter fun entry => owner id entry.1 = target

def ownColumns (graph : Graph) (id : ClassId) : List String :=
  (belonging graph id id).map (·.2)

/-- The roles of the references of a class to another one, as they stand in columns. -/
def rolesTo (graph : Graph) (id target : ClassId) : List (Option String) :=
  (belonging graph id target).map fun entry => entry.1.role.map Naming.upperSnake

/-- The columns of a class have names of their own. -/
structure ColumnsDiffer (graph : Graph) (id : ClassId) : Prop where
  own : (ownColumns graph id).Nodup
  /-- No column that belongs to the class is named like one for audits, exports or the history. -/
  technical : ∀ column ∈ ownColumns graph id,
    column ∉ Table.technicalColumns (graph.classAt id)
  /-- Two references to another class have roles of different words. -/
  roles : ∀ target, target ≠ id → (rolesTo graph id target).Nodup

/-- The tables and columns of a model have names of their own. -/
structure ClashFree (graph : Graph) : Prop where
  columns : ∀ id ∈ graph.persistentIds, ColumnsDiffer graph id
  tables : (graph.persistentIds.map fun id => (graph.classAt id).table).Nodup
  /-- No table is named like the history of another one. -/
  histories : ∀ id ∈ graph.persistentIds, ∀ other ∈ graph.persistentIds,
    (graph.classAt other).isHistorized = true →
      (graph.classAt id).table ≠ (graph.classAt other).table ++ "_HISTO"

section Clean

variable {suffixes : Naming.Suffixes} {shared : List Graph.Domain}
  {sources : List Reading.Source} {found : List Diagnostic} {options : Check.Options}
  (hread : read suffixes shared sources = .ok (graph, found))
  (hskip : ∀ c ∈ graph.classes, options.allowlist.skips c.name = false)
  (hclean : (Check.run options graph).1 = [])

include hread hskip hclean

/-- A name starts with the trigram of one class only. -/
theorem Leads.unique {id other : ClassId} (hid : id ∈ graph.persistentIds)
    (hother : other ∈ graph.persistentIds) {name : String} (h : Leads graph id name)
    (hsame : Leads graph other name) : id = other := by
  have hwell := Reading.wellFormed_of_read hread
  have hlength {id : ClassId} (hid : id ∈ graph.persistentIds) {trigram : String}
      (htrigram : (graph.classAt id).trigram = some trigram) : trigram.toList.length = 3 := by
    obtain ⟨own, htabular⟩ := Check.tabular_of_run hwell hskip hclean hid
    obtain rfl : own = trigram := Option.some.inj (htabular.own.symm.trans htrigram)
    exact beq_iff_eq.mp (Bool.and_eq_true_iff.mp htabular.letters).1
  obtain ⟨trigram, htrigram, hstart⟩ := h
  obtain ⟨second, hsecond, hstarts⟩ := hsame
  have hlengths := (hlength hid htrigram).trans (hlength hother hsecond).symm
  have heq : trigram = second := String.toList_inj.mp
    ((List.prefix_of_prefix_length_le hstart hstarts hlengths.le).eq_of_length hlengths)
  by_contra hne
  exact Check.trigram_ne_of_run hwell hskip hclean hid hother hne htrigram (heq ▸ hsecond)

/-- By `Tabular.columns`, which the check of a property asks for. -/
theorem leads_value {id : ClassId} (hid : id ∈ graph.persistentIds) {property : Property}
    {name : String} (hproperty : (property, name) ∈ Table.columnProperties (graph.classAt id))
    (hvalue : property.kind = .primitive) : Leads graph id name := by
  obtain ⟨hmem, hcolumn, hname⟩ := Table.mem_columnProperties.mp hproperty
  obtain ⟨trigram, htabular⟩ :=
    Check.tabular_of_run (Reading.wellFormed_of_read hread) hskip hclean hid
  have hstart := htabular.columns property hmem name (by simp [Property.isPrimitive, hvalue])
    hcolumn hname
  rw [Text.startsWith, List.isPrefixOf_iff_prefix, String.toList_append] at hstart
  exact ⟨trigram, htabular.own, (List.prefix_append ..).trans hstart⟩

/-- The key of a persistent class has a column, which starts with the trigram of the class. -/
theorem leads_key {id : ClassId} (hid : id ∈ graph.persistentIds) {key : Property}
    (hkey : (graph.classAt id).primaryKey? = some key) :
    ∃ column, key.column = some column ∧ Leads graph id column := by
  have hmem : key ∈ (graph.classAt id).properties := List.mem_of_find?_eq_some hkey
  have hprimary : key.isPrimaryKey = true := by simpa using List.find?_some hkey
  obtain ⟨_, htabular⟩ :=
    Check.tabular_of_run (Reading.wellFormed_of_read hread) hskip hclean hid
  have hpersistent := htabular.keys key hmem hprimary
  obtain ⟨hisColumn, column, hcolumn⟩ :=
    column_of_key (Reading.arises_of_read hread hmem) hprimary hpersistent
  have hentry : (key, column) ∈ Table.columnProperties (graph.classAt id) :=
    Table.mem_columnProperties.mpr ⟨hmem, hisColumn, hcolumn⟩
  exact ⟨column, hcolumn, leads_value hread hskip hclean hid hentry
    ((Reading.keysMatch_of_read hread).primitive id key hmem hprimary)⟩

/-- The column of a reference is that of the key it refers to, with the role behind it. -/
theorem exists_keyColumn {id target : ClassId} (hid : id ∈ graph.persistentIds)
    {property : Property} {name : String}
    (hproperty : (property, name) ∈ Table.columnProperties (graph.classAt id))
    (htarget : property.target? = some target) :
    target ∈ graph.persistentIds ∧ ∃ key column,
      (graph.classAt target).primaryKey? = some key ∧ key.column = some column ∧
        Leads graph target column ∧
        name = column ++ roleSuffix (property.role.map Naming.upperSnake) := by
  obtain ⟨hmem, -, hname⟩ := Table.mem_columnProperties.mp hproperty
  have hholder := (List.mem_filter.mp hid).2
  cases Reading.arises_of_read hread hmem with
  | declared scope property => cases htarget
  | referenceList other role isPersistent => cases htarget
  | child other role isCollection => cases htarget
  | @reference other key role isRequired hkey hpersistent =>
      obtain rfl : other = target := Option.some.inj htarget
      have hids : other ∈ graph.persistentIds := List.mem_filter.mpr
        ⟨List.mem_range.mpr (Graph.lt_of_mem_properties (List.mem_of_find?_eq_some hkey)),
          hpersistent hholder⟩
      obtain ⟨column, hcolumn, hleads⟩ := leads_key hread hskip hclean hids hkey
      refine ⟨hids, key, column, hkey, hcolumn, hleads, ?_⟩
      simp only [Reading.Assembly.foreignKeyOf, hholder, if_true, hcolumn, Option.getD_some,
        Option.some.injEq] at hname
      rw [← hname]
      cases role <;> simp [roleSuffix, Reading.Assembly.foreignKeyOf, String.append_assoc]

/-- A column starts with the trigram of the class that it belongs to. -/
theorem leads_owner {id : ClassId} (hid : id ∈ graph.persistentIds) {property : Property}
    {name : String} (hproperty : (property, name) ∈ Table.columnProperties (graph.classAt id)) :
    owner id property ∈ graph.persistentIds ∧ Leads graph (owner id property) name := by
  cases htarget : property.target? with
  | some target =>
      obtain ⟨hids, _, column, -, -, hleads, rfl⟩ :=
        exists_keyColumn hread hskip hclean hid hproperty htarget
      rw [owner, htarget]
      exact ⟨hids, hleads.append _⟩
  | none =>
      obtain ⟨-, hcolumn, -⟩ := Table.mem_columnProperties.mp hproperty
      rw [owner, htarget]
      refine ⟨hid, leads_value hread hskip hclean hid hproperty ?_⟩
      cases hkind : property.kind <;>
        simp [Property.isColumn, Property.target?, hkind] at hcolumn htarget ⊢

/-- Columns that no property declares are named after the trigram. -/
theorem leads_technical {id : ClassId} (hid : id ∈ graph.persistentIds) {name : String}
    (h : name ∈ Table.technicalColumns (graph.classAt id)) : Leads graph id name := by
  obtain ⟨trigram, htabular⟩ :=
    Check.tabular_of_run (Reading.wellFormed_of_read hread) hskip hclean hid
  obtain ⟨text, -, rfl⟩ := List.mem_map.mp h
  refine ⟨trigram, htabular.own, ?_⟩
  simp [Table.technicalColumn, htabular.own, String.append_assoc]

/-- References to another class have columns of different names exactly if their roles differ. By
`exists_keyColumn` they have one beginning in common, the column of the key. -/
theorem nodup_references_iff {id target : ClassId} (hid : id ∈ graph.persistentIds)
    (hne : target ≠ id) :
    ((belonging graph id target).map (·.2)).Nodup ↔ (rolesTo graph id target).Nodup := by
  -- All of them are made from one column, that of the key referred to.
  obtain ⟨column, hcolumn⟩ : ∃ column, ∀ entry ∈ Table.columnProperties (graph.classAt id),
      owner id entry.1 = target →
        entry.2 = column ++ roleSuffix (entry.1.role.map Naming.upperSnake) := by
    refine ⟨((graph.classAt target).primaryKey?.bind (·.column)).getD "", ?_⟩
    rintro ⟨property, name⟩ hentry howner
    have htarget : property.target? = some target := by
      cases hsome : property.target? with
      | none =>
          rw [owner, hsome] at howner
          exact absurd howner.symm hne
      | some other =>
          rw [owner, hsome] at howner
          exact congrArg some howner
    obtain ⟨-, key, column, hkey, hkeyColumn, -, rfl⟩ :=
      exists_keyColumn hread hskip hclean hid hentry htarget
    simp [hkey, hkeyColumn]
  have hcolumns : (belonging graph id target).map (·.2) =
      (rolesTo graph id target).map fun role => column ++ roleSuffix role := by
    rw [rolesTo, List.map_map]
    refine List.map_congr_left fun entry hentry => ?_
    obtain ⟨hmem, howner⟩ := List.mem_filter.mp hentry
    exact hcolumn entry hmem (by simpa using howner)
  rw [hcolumns]
  refine List.nodup_map_iff fun a b heq => roleSuffix_injective ?_
  exact (String.append_right_inj column).mp heq

/-- The columns of a class differ if those that belong to it do, and the roles of its references to
each other class. `nodup_map_iff_of_parts` takes the columns apart by `owner`. -/
theorem nodup_columns_iff_differ {id : ClassId} (hid : id ∈ graph.persistentIds) :
    ((Table.columnProperties (graph.classAt id)).map (·.2) ++
        Table.technicalColumns (graph.classAt id)).Nodup ↔ ColumnsDiffer graph id := by
  obtain ⟨trigram, htabular⟩ :=
    Check.tabular_of_run (Reading.wellFormed_of_read hread) hskip hclean hid
  have hparts : ((Table.columnProperties (graph.classAt id)).map (·.2)).Nodup ↔
      ∀ target, ((belonging graph id target).map (·.2)).Nodup := by
    refine nodup_map_iff_of_parts (fun entry : Property × String => owner id entry.1) ?_
    rintro ⟨property, name⟩ hproperty ⟨other, _⟩ hother rfl
    obtain ⟨howner, hleads⟩ := leads_owner hread hskip hclean hid hproperty
    obtain ⟨hsecond, hsame⟩ := leads_owner hread hskip hclean hid hother
    exact Leads.unique hread hskip hclean howner hsecond hleads hsame
  rw [List.nodup_append, hparts]
  constructor
  · rintro ⟨hnodup, -, hdiffer⟩
    refine ⟨hnodup id, fun column hcolumn htechnical => ?_, fun target hne => ?_⟩
    · exact hdiffer column ((List.filter_sublist.map _).subset hcolumn) column htechnical rfl
    · exact (nodup_references_iff hread hskip hclean hid hne).mp (hnodup target)
  · intro h
    refine ⟨fun target => ?_, Table.nodup_technicalColumns htabular.own, ?_⟩
    · by_cases hne : target = id
      · exact hne ▸ h.own
      · exact (nodup_references_iff hread hskip hclean hid hne).mpr (h.roles target hne)
    · rintro column hcolumn _ htechnical rfl
      obtain ⟨⟨property, name⟩, hproperty, rfl⟩ := List.mem_map.mp hcolumn
      -- A technical column belongs to the class, so only a column that does too can be like it.
      obtain ⟨howner, hleads⟩ := leads_owner hread hskip hclean hid hproperty
      have hown := Leads.unique hread hskip hclean howner hid hleads
        (leads_technical hread hskip hclean hid htechnical)
      exact h.technical name (List.mem_map.mpr
        ⟨_, List.mem_filter.mpr ⟨hproperty, by simpa using hown⟩, rfl⟩) htechnical

/-- A clean model has tables for all classes, since every column has a type (`Check.columns_typed`).
-/
theorem exists_table_of_clean (engine : Engine) (settings : Settings) (id : ClassId) :
    ∃ table, Schema.table engine settings graph id = .ok table := by
  refine exists_table fun property hproperty hcolumn => ?_
  refine Check.columns_typed (Reading.wellFormed_of_read hread) (Reading.keysMatch_of_read hread)
    hskip (fun diagnostic hmem => ?_) hproperty hcolumn
  rw [hclean] at hmem
  exact absurd hmem List.not_mem_nil

end Clean

/-! ## Clean models -/

/-- The scripts of a clean model are complete. The names of their tables and columns are distinct
exactly if the model is free of clashes, which the checks do not ask for. -/
theorem distinct_iff_clashFree {suffixes : Naming.Suffixes} {shared : List Graph.Domain}
    {sources : List Reading.Source} {found : List Diagnostic}
    (hread : read suffixes shared sources = .ok (graph, found)) (options : Check.Options)
    (engine : Engine) (settings : Settings)
    (hskip : ∀ c ∈ graph.classes, options.allowlist.skips c.name = false)
    (hclean : (Check.run options graph).1 = [])
    (hidentifiers : checkIdentifiers engine settings graph = []) :
    (generate engine settings graph).error = none ∧
      ((generate engine settings graph).scripts.create.Distinct ↔ ClashFree graph) := by
  have hcomplete : (generate engine settings graph).error = none := by
    refine error_schema (exists_table_of_clean hread hskip hclean engine settings) ?_
    rw [hidentifiers]
    exact fun _ hmem => absurd hmem List.not_mem_nil
  have hcolumns := nodup_created_iff hcomplete
  have htables := nodup_names_iff graph graph.persistentIds
  rw [← map_name_created_create hcomplete] at htables
  rw [Script.distinct_iff]
  refine ⟨hcomplete, fun h => ?_, fun h => ?_⟩
  · refine ⟨fun id hid => ?_, (htables.mp h.2).1, (htables.mp h.2).2⟩
    exact (nodup_columns_iff_differ hread hskip hclean hid).mp (hcolumns.mp h.1 id hid)
  · refine ⟨hcolumns.mpr fun id hid => ?_, htables.mpr ⟨h.tables, h.histories⟩⟩
    exact (nodup_columns_iff_differ hread hskip hclean hid).mpr (h.columns id hid)

def fieldOutline (id code : String) (isKey : Bool) : Outline.Property where
  id := id
  code := code
  comment := some "-"
  dataType := none
  isPersistent := true
  multiplicity := if isKey then some "1..1" else none
  domain := some (.id "d")
  isPrimaryKey := isKey
  isUnique := false
  isUniqueMany := false
  isOrdered := false
  persistentCode := none
  persistentType := none

/-- A persistent class that is documented; one that is tracked is historized and audited. -/
def tableOutline (id code trigram : String) (isTracked : Bool)
    (properties : List Outline.Property) : Outline.Class where
  id := id
  code := code
  label := some code
  comment := some "-"
  stereotype := none
  isPersistent := true
  persistentCode := none
  trigram := some trigram
  storage := none
  isHistorized := isTracked
  isAudited := isTracked
  isExportDelta := false
  properties := properties

/-- A documented model with one namespace. -/
def shopOutline (classes : List Outline.Class) (associations : List Outline.Association) :
    Outline where
  name := "Shop"
  label := some "Shop"
  domains := [⟨"d", "DO_ID", none, some "int", some "int", none, none⟩]
  domainShortcuts := []
  namespaces := [⟨"p", "SalesDataContract", none, some "-", none, classes⟩]
  classShortcuts := []
  generalizations := []
  associations := associations

/-- A clean model: a class refers to another one in two roles. -/
def offers : Reading.Source where
  path := "Shop.oom"
  format := .objectModel
  content :=
    "<Model><Code>Shop</Code><Name>Shop</Name>
      <Domains><Domain Id='d'>
        <Code>DO_ID</Code><DataType>int</DataType><PersistentDataType>int</PersistentDataType>
      </Domain></Domains>
      <Packages><Package Id='p'><Code>SalesDataContract</Code><Comment>-</Comment><Classes>
        <Class Id='x'>
          <Code>Product</Code><Name>Product</Name><Comment>-</Comment><Persistent>1</Persistent>
          <Trigram>PRD</Trigram><Historized>1</Historized><Audited>1</Audited>
          <Attributes><Attribute Id='i'>
            <Code>Id</Code><Comment>-</Comment><Persistent>1</Persistent>
            <Multiplicity>1..1</Multiplicity><PrimaryIdentifier>1</PrimaryIdentifier>
            <Domain><Domain Ref='d'/></Domain>
          </Attribute></Attributes>
        </Class>
        <Class Id='y'>
          <Code>Offer</Code><Name>Offer</Name><Comment>-</Comment><Persistent>1</Persistent>
          <Trigram>OFF</Trigram>
          <Attributes><Attribute Id='j'>
            <Code>Id</Code><Comment>-</Comment><Persistent>1</Persistent>
            <Multiplicity>1..1</Multiplicity><PrimaryIdentifier>1</PrimaryIdentifier>
            <Domain><Domain Ref='d'/></Domain>
          </Attribute></Attributes>
        </Class>
      </Classes></Package></Packages>
      <Associations>
        <Association Id='s'>
          <RoleAMultiplicity>0..*</RoleAMultiplicity><RoleBMultiplicity>1..1</RoleBMultiplicity>
          <RoleBName>Main</RoleBName>
          <Object1><Class Ref='y'/></Object1><Object2><Class Ref='x'/></Object2>
        </Association>
        <Association Id='t'>
          <RoleAMultiplicity>0..*</RoleAMultiplicity><RoleBMultiplicity>0..1</RoleBMultiplicity>
          <RoleBName>Extra</RoleBName>
          <Object1><Class Ref='y'/></Object1><Object2><Class Ref='x'/></Object2>
        </Association>
      </Associations></Model>"

def offersOutline : Outline :=
  shopOutline
    [tableOutline "x" "Product" "PRD" true [fieldOutline "i" "Id" true],
      tableOutline "y" "Offer" "OFF" false [fieldOutline "j" "Id" true]]
    [⟨"s", none, none, ⟨"y", "0..N", none⟩, ⟨"x", "1..1", some "Main"⟩, none⟩,
      ⟨"t", none, none, ⟨"y", "0..N", none⟩, ⟨"x", "0..1", some "Extra"⟩, none⟩]

set_option maxRecDepth 20000 in
/-- Reading the text once, for the kernel; likewise `document_archive`. -/
theorem document_offers : offers.document = .ok ⟨"Shop.oom", offersOutline⟩ := by
  rw [Reading.Source.document, Reading.Source.outline,
    show Xml.parse? offers.content = _ from Reading.parse?_ofList _]
  decide +kernel

/-- Options that skip no class. -/
def strict : Check.Options := ⟨.standard, .sqlServer, ⟨[]⟩⟩

theorem clashFree_offers :
    ∃ graph found, read .standard [] [offers] = .ok (graph, found) ∧
      (∀ c ∈ graph.classes, strict.allowlist.skips c.name = false) ∧
      (Check.run strict graph).1 = [] ∧
      checkIdentifiers .oracle Seeding.sampleSettings graph = [] ∧
      (generate .oracle Seeding.sampleSettings graph).error = none ∧
      (generate .oracle Seeding.sampleSettings graph).scripts.create.Distinct ∧
      ClashFree graph := by
  obtain ⟨graph, found, hread, hchecked⟩ := Reading.exists_read .standard []
    (.cons document_offers .nil)
    (P := fun graph _ =>
      graph.classes.all (fun c => !strict.allowlist.skips c.name) &&
        (Check.run strict graph).1 == [] &&
        checkIdentifiers .oracle Seeding.sampleSettings graph == [] &&
        decide (generate .oracle Seeding.sampleSettings graph).scripts.create.Distinct)
    (by decide +kernel)
  simp only [Bool.and_eq_true, List.all_eq_true, Bool.not_eq_true', beq_iff_eq,
    decide_eq_true_eq] at hchecked
  obtain ⟨⟨⟨hskip, hclean⟩, hidentifiers⟩, hdistinct⟩ := hchecked
  obtain ⟨hcomplete, hiff⟩ := distinct_iff_clashFree hread strict .oracle Seeding.sampleSettings
    hskip hclean hidentifiers
  exact ⟨graph, found, hread, hskip, hclean, hidentifiers, hcomplete, hdistinct,
    hiff.mp hdistinct⟩

/-- A clean model with clashes: a property is named like an audit column, and a class like the
history of another one. -/
def archive : Reading.Source where
  path := "Shop.oom"
  format := .objectModel
  content :=
    "<Model><Code>Shop</Code><Name>Shop</Name>
      <Domains><Domain Id='d'>
        <Code>DO_ID</Code><DataType>int</DataType><PersistentDataType>int</PersistentDataType>
      </Domain></Domains>
      <Packages><Package Id='p'><Code>SalesDataContract</Code><Comment>-</Comment><Classes>
        <Class Id='x'>
          <Code>Product</Code><Name>Product</Name><Comment>-</Comment><Persistent>1</Persistent>
          <Trigram>PRD</Trigram><Historized>1</Historized><Audited>1</Audited>
          <Attributes>
            <Attribute Id='i'>
              <Code>Id</Code><Comment>-</Comment><Persistent>1</Persistent>
              <Multiplicity>1..1</Multiplicity><PrimaryIdentifier>1</PrimaryIdentifier>
              <Domain><Domain Ref='d'/></Domain>
            </Attribute>
            <Attribute Id='j'>
              <Code>CreatedAt</Code><Comment>-</Comment><Persistent>1</Persistent>
              <Domain><Domain Ref='d'/></Domain>
            </Attribute>
          </Attributes>
        </Class>
        <Class Id='y'>
          <Code>ProductHisto</Code><Name>ProductHisto</Name><Comment>-</Comment>
          <Persistent>1</Persistent><Trigram>PRH</Trigram>
          <Attributes><Attribute Id='k'>
            <Code>Id</Code><Comment>-</Comment><Persistent>1</Persistent>
            <Multiplicity>1..1</Multiplicity><PrimaryIdentifier>1</PrimaryIdentifier>
            <Domain><Domain Ref='d'/></Domain>
          </Attribute></Attributes>
        </Class>
      </Classes></Package></Packages></Model>"

def archiveOutline : Outline :=
  shopOutline
    [tableOutline "x" "Product" "PRD" true
        [fieldOutline "i" "Id" true, fieldOutline "j" "CreatedAt" false],
      tableOutline "y" "ProductHisto" "PRH" false [fieldOutline "k" "Id" true]]
    []

set_option maxRecDepth 20000 in
theorem document_archive : archive.document = .ok ⟨"Shop.oom", archiveOutline⟩ := by
  rw [Reading.Source.document, Reading.Source.outline,
    show Xml.parse? archive.content = _ from Reading.parse?_ofList _]
  decide +kernel

/-- Checks without findings do not keep names from clashing: two columns of one table have the same
name, and so have two tables. -/
theorem exists_clash :
    ∃ graph found, read .standard [] [archive] = .ok (graph, found) ∧
      (∀ c ∈ graph.classes, strict.allowlist.skips c.name = false) ∧
      (Check.run strict graph).1 = [] ∧
      checkIdentifiers .sqlServer Seeding.sampleSettings graph = [] ∧
      (generate .sqlServer Seeding.sampleSettings graph).error = none ∧
      (∃ table, .createTable table ∈
          (generate .sqlServer Seeding.sampleSettings graph).scripts.create.statements ∧
        ¬ (table.columns.map (·.name)).Nodup) ∧
      ¬ ((generate .sqlServer Seeding.sampleSettings graph).scripts.create.created.map
        (·.name)).Nodup := by
  obtain ⟨graph, found, hread, hchecked⟩ := Reading.exists_read .standard []
    (.cons document_archive .nil)
    (P := fun graph _ =>
      graph.classes.all (fun c => !strict.allowlist.skips c.name) &&
        (Check.run strict graph).1 == [] &&
        checkIdentifiers .sqlServer Seeding.sampleSettings graph == [] &&
        (generate .sqlServer Seeding.sampleSettings graph).error == none &&
        (generate .sqlServer Seeding.sampleSettings graph).scripts.create.created.any (fun table =>
          decide ¬ (table.columns.map Column.name).Nodup) &&
        decide ¬ ((generate .sqlServer Seeding.sampleSettings graph).scripts.create.created.map
          Table.name).Nodup)
    (by
      conv => lhs; arg 2; cbv
      decide +kernel)
  simp only [Bool.and_eq_true, List.all_eq_true, List.any_eq_true, Bool.not_eq_true', beq_iff_eq,
    decide_eq_true_eq] at hchecked
  obtain ⟨⟨⟨⟨⟨hskip, hclean⟩, hidentifiers⟩, hcomplete⟩, table, htable, hcolumns⟩, htables⟩ :=
    hchecked
  exact ⟨graph, found, hread, hskip, hclean, hidentifiers, hcomplete,
    ⟨table, Script.mem_created.mp htable, hcolumns⟩, htables⟩

end Schema

end ModelSchema.Sql
