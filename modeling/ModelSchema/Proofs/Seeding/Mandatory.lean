import ModelSchema.Proofs.Seeding.Sessions
import ModelSchema.Proofs.Sql.Clashes

/-!
# Mandatory columns

A row has to assign every column that is required, has no default and is not numbered by the engine.
The check of seed data asks for a value of each column that is no key (`contains_of_check`). It
leaves out keys, as if engines generated them, but they do so for some lists only: not for a static
list, and neither a key of several columns nor one of texts. So

* a row that misses a mandatory column misses a key that is not generated and for which its item has
  no value (`assigns_mandatory`);
* such rows are written without any finding (`exists_unassigned`).
-/

namespace ModelSchema

open ModelSchema.Graph (Property)
open Reading (read)
open Seed (Item)

/-- Whether every row has to assign a column. -/
def Sql.Column.isMandatory (column : Sql.Column) : Bool :=
  column.isRequired && column.default.isNone && !column.isIdentity

/-! ## Checked items

What the check of seed data says about an item, said of the values it has. -/

namespace Check.Seed

variable {graph : Graph}

/-- If nothing is found about any batch, nothing is found about any of its items. -/
theorem item_of_batches {source : Option String} {reported : List (List ClassId)}
    {entries : List (String × ModelSchema.Seed.Batch)}
    (hclean : batches graph source reported entries = [])
    {entry : String × ModelSchema.Seed.Batch} (hentry : entry ∈ entries) {id : ClassId}
    (hid : graph.classNamed? entry.1 = some id) {checked : Item}
    (hchecked : checked ∈ entry.2.items) : item (graph.classAt id) checked = [] := by
  induction entries generalizing reported with
  | nil => exact absurd hentry List.not_mem_nil
  | cons first rest ih =>
      obtain ⟨name, batch⟩ := first
      rw [batches] at hclean
      split at hclean
      · cases hclean
      · next other hother =>
        rw [List.append_eq_nil_iff, List.append_eq_nil_iff, List.flatMap_eq_nil_iff] at hclean
        obtain ⟨⟨-, hitems⟩, hlater⟩ := hclean
        rcases List.mem_cons.mp hentry with rfl | hentry
        · rw [hother] at hid
          cases hid
          exact hitems checked hchecked
        · -- A cycle would be a finding, so the batches after this one are checked in any case.
          split at hlater
          · cases hlater
          · exact ih hlater hentry

/-- `Check.Seed.item` asks for a value for every column but keys. -/
theorem contains_of_item {c : Graph.Class} {checked : Item} (h : item c checked = [])
    {property : Property} (hproperty : property ∈ c.properties) (hcolumn : property.isColumn = true)
    (hkey : property.isPrimaryKey = false) : checked.values.contains property.name = true := by
  unfold item at h
  simp only [List.append_eq_nil_iff, List.map_eq_nil_iff, List.filter_eq_nil_iff] at h
  have hvalue := h.1 property (List.mem_filter.mpr ⟨hproperty, by simp [hcolumn, hkey]⟩)
  simpa using hvalue

end Check.Seed

namespace Sql.Seeding

variable {engine : Engine} {settings : Settings} {graph : Graph}

/-- An item of a list has a value for every column that is no key. Items come from batches, by
`Graph.seeded_addSeed`, and the check goes through the same batches. -/
theorem contains_of_check {seed : Seed} (hitems : ∀ id, (graph.classAt id).items = [])
    (hclean : Check.Seed.check (graph.addSeed seed) seed = []) {id : ClassId} {item : Item}
    (hitem : item ∈ ((graph.addSeed seed).classAt id).items) {property : Property}
    (hproperty : property ∈ ((graph.addSeed seed).classAt id).properties)
    (hcolumn : property.isColumn = true) (hkey : property.isPrimaryKey = false) :
    item.values.contains property.name = true := by
  have hseeded := Graph.seeded_addSeed graph seed
  rcases hseeded.classes id with hsame | ⟨entry, hentry, hnamed, heq⟩
  · rw [hsame, hitems id] at hitem
    exact absurd hitem List.not_mem_nil
  · have hfrom : item ∈ entry.2.items := by
      rw [heq] at hitem
      exact hitem
    rw [← hseeded.classNamed? entry.1] at hnamed
    exact Check.Seed.contains_of_item
      (Check.Seed.item_of_batches hclean hentry hnamed hfrom) hproperty hcolumn hkey

/-! ## Rows -/

/-- The row of an item lists all mandatory columns of its table, except for keys that neither the
engine nor the item supplies. -/
def AssignsMandatory (engine : Engine) (c : Graph.Class) (table : Table) (item : Item) : Prop :=
  ∀ column ∈ table.columns, column.isMandatory = true →
    column.name ∈ (cells engine c table item).map (·.1) ∨
      table.hasGeneratedKey = false ∧ ∃ key ∈ c.primaryKeys,
        key.column = some column.name ∧ item.values.contains key.name = false

/-- Columns of a table come from properties, or are technical ones with a default. A column of a
property that is no key has a value, so what is left are keys; those from a sequence are listed too.
-/
theorem assignsMandatory_of_contains {id : ClassId} {table : Table} {item : Item}
    (htable : Schema.table engine settings graph id = .ok table)
    (hvalues : ∀ property ∈ (graph.classAt id).properties, property.isColumn = true →
      property.isPrimaryKey = false → item.values.contains property.name = true) :
    AssignsMandatory engine (graph.classAt id) table item := by
  intro column hcolumn hmandatory
  simp only [Column.isMandatory, Bool.and_eq_true, Option.isNone_iff_eq_none,
    Bool.not_eq_true'] at hmandatory
  obtain ⟨⟨hrequired, hdefault⟩, hidentity⟩ := hmandatory
  rcases Table.exists_property_of_column htable hcolumn with ⟨property, hproperty, hderived⟩ | htech
  · obtain ⟨hmem, hisColumn, hname⟩ := Table.mem_columnProperties.mp hproperty
    rw [mem_map_cells]
    by_cases hvalue : item.values.contains property.name = true
    · exact .inl ⟨property, hproperty, .inl hvalue⟩
    · -- What has no value is a key, and one that is generated comes from a sequence.
      have hkey : property.isPrimaryKey = true := by
        by_contra hno
        exact hvalue (hvalues property hmem hisColumn (by simpa using hno))
      have hmarks := (Table.columnOf_marks hderived).1
      rw [hidentity, hkey, ← Table.hasGeneratedKey_ofClass htable] at hmarks
      cases hgenerated : table.hasGeneratedKey with
      | false =>
          refine .inr ⟨rfl, property, List.mem_filter.mpr ⟨hmem, hkey⟩, hname, ?_⟩
          simpa using hvalue
      | true =>
          refine .inl ⟨property, hproperty, .inr ⟨hkey, ?_⟩⟩
          rw [Table.usesSequence, hgenerated]
          rw [hgenerated] at hmarks
          cases engine with
          | sqlServer => cases hmarks
          | oracle => rfl
  · -- A column that no property declares has a default if it is required.
    have hsome := htech.2 hrequired
    rw [hdefault] at hsome
    cases hsome

/-- If the check of seed data finds nothing, every row assigns all mandatory columns of its table,
except for keys that the engine does not generate and that its item has no value for. -/
theorem assigns_mandatory {suffixes : Naming.Suffixes} {shared : List Graph.Domain}
    {sources : List Reading.Source} {found : List Diagnostic}
    (hread : read suffixes shared sources = .ok (graph, found)) (seed : Seed) (engine : Engine)
    (settings : Settings) (hclean : Check.Seed.check (graph.addSeed seed) seed = []) :
    ∃ ids : List ClassId, ids.Subperm (lists (graph.addSeed seed)) ∧
      List.Forall₂
        (fun row origin => ∃ table,
          RowFor engine settings (graph.addSeed seed) row origin table ∧
          AssignsMandatory engine ((graph.addSeed seed).classAt origin.1) table origin.2)
        ((generate engine settings (graph.addSeed seed)).scripts.data.statements.filter isRow)
        (ids.flatMap (listItems engine settings (graph.addSeed seed))) := by
  obtain ⟨ids, entries, hids, hentries, hrounds, -⟩ :=
    exists_filled engine settings (graph.addSeed seed)
  refine ⟨ids, hids, ?_⟩
  rw [data_statements hrounds, List.filter_flatMap]
  simp only [rows_rowStatements]
  have hrows := forall₂_listItems (f := fun _ _ _ row => row)
    (R := fun row origin => ∃ table,
      RowFor engine settings (graph.addSeed seed) row origin table ∧
      AssignsMandatory engine ((graph.addSeed seed).classAt origin.1) table origin.2)
    hentries fun id hid item hitem table row hrow => ⟨table, hrow,
      assignsMandatory_of_contains hrow.derived fun property hproperty hisColumn hkey =>
        contains_of_check (Reading.items_of_read hread) hclean hitem hproperty hisColumn hkey⟩
  simpa only [Option.map_id'] using hrows

/-- A clean model with a static list and a list of generated keys. -/
def registers : Reading.Source where
  path := "Shop.oom"
  format := .objectModel
  content :=
    "<Model><Code>Shop</Code><Name>Shop</Name>
      <Domains><Domain Id='d'>
        <Code>DO_ID</Code><DataType>int</DataType><PersistentDataType>int</PersistentDataType>
      </Domain></Domains>
      <Packages><Package Id='p'><Code>SalesDataContract</Code><Comment>-</Comment><Classes>
        <Class Id='x'>
          <Code>Status</Code><Name>Status</Name><Comment>-</Comment>
          <Stereotype>Static</Stereotype><Persistent>1</Persistent><Trigram>STA</Trigram>
          <Attributes>
            <Attribute Id='i'>
              <Code>Id</Code><Comment>-</Comment><Persistent>1</Persistent>
              <Multiplicity>1..1</Multiplicity><PrimaryIdentifier>1</PrimaryIdentifier>
              <Domain><Domain Ref='d'/></Domain>
            </Attribute>
            <Attribute Id='j'>
              <Code>Rank</Code><Comment>-</Comment><Persistent>1</Persistent>
              <Domain><Domain Ref='d'/></Domain>
            </Attribute>
          </Attributes>
        </Class>
        <Class Id='y'>
          <Code>Country</Code><Name>Country</Name><Comment>-</Comment>
          <Stereotype>Reference</Stereotype><Persistent>1</Persistent><Trigram>COU</Trigram>
          <Attributes>
            <Attribute Id='k'>
              <Code>Id</Code><Comment>-</Comment><Persistent>1</Persistent>
              <Multiplicity>1..1</Multiplicity><PrimaryIdentifier>1</PrimaryIdentifier>
              <Domain><Domain Ref='d'/></Domain>
            </Attribute>
            <Attribute Id='l'>
              <Code>Rank</Code><Comment>-</Comment><Persistent>1</Persistent>
              <Domain><Domain Ref='d'/></Domain>
            </Attribute>
          </Attributes>
        </Class>
      </Classes></Package></Packages></Model>"

def registersOutline : Outline :=
  Schema.shopOutline
    [{ Schema.tableOutline "x" "Status" "STA" false
        [Schema.fieldOutline "i" "Id" true, Schema.fieldOutline "j" "Rank" false] with
        stereotype := some "Static" },
      { Schema.tableOutline "y" "Country" "COU" false
        [Schema.fieldOutline "k" "Id" true, Schema.fieldOutline "l" "Rank" false] with
        stereotype := some "Reference" }]
    []

set_option maxRecDepth 20000 in
/-- Reading the text once, for the kernel. -/
theorem document_registers : registers.document = .ok ⟨"Shop.oom", registersOutline⟩ := by
  rw [Reading.Source.document, Reading.Source.outline,
    show Xml.parse? registers.content = _ from Reading.parse?_ofList _]
  decide +kernel

def keyless : Seed :=
  (Seed.empty.insert "Status" ⟨"Statuses", .static, [sampleItem "Open" "Rank" 1]⟩).insert
    "Country" ⟨"Countries", .reference, [sampleItem "France" "Rank" 2]⟩

theorem assigns_mandatory_registers :
    ∃ graph found, read .standard [] [registers] = .ok (graph, found) ∧
      Check.Seed.check (graph.addSeed keyless) keyless = [] ∧
      (generate .oracle sampleSettings (graph.addSeed keyless)).scripts.data.statements =
        [.insertRow "STATUS" [("STA_RANK", .literal (.integer 1))],
          .insertRow "COUNTRY" [("COU_ID", .nextKey), ("COU_RANK", .literal (.integer 2))]] ∧
      ∃ ids : List ClassId, ids.Subperm (lists (graph.addSeed keyless)) ∧
        List.Forall₂
          (fun row origin => ∃ table,
            RowFor .oracle sampleSettings (graph.addSeed keyless) row origin table ∧
            AssignsMandatory .oracle ((graph.addSeed keyless).classAt origin.1) table origin.2)
          ((generate .oracle sampleSettings (graph.addSeed keyless)).scripts.data.statements.filter
            isRow)
          (ids.flatMap (listItems .oracle sampleSettings (graph.addSeed keyless))) := by
  obtain ⟨graph, found, hread, hchecked⟩ := Reading.exists_read .standard []
    (.cons document_registers .nil)
    (P := fun graph _ =>
      Check.Seed.check (graph.addSeed keyless) keyless == [] &&
        (generate .oracle sampleSettings (graph.addSeed keyless)).scripts.data.statements ==
          [.insertRow "STATUS" [("STA_RANK", .literal (.integer 1))],
            .insertRow "COUNTRY" [("COU_ID", .nextKey), ("COU_RANK", .literal (.integer 2))]])
    (by decide +kernel)
  simp only [Bool.and_eq_true, beq_iff_eq] at hchecked
  exact ⟨graph, found, hread, hchecked.1, hchecked.2,
    assigns_mandatory hread keyless .oracle sampleSettings hchecked.1⟩

/-- Checks without findings do not keep a row from leaving out a mandatory column: the key of a
static list. -/
theorem exists_unassigned :
    ∃ graph found, read .standard [] [registers] = .ok (graph, found) ∧
      (∀ c ∈ (graph.addSeed keyless).classes,
        Schema.strict.allowlist.skips c.name = false) ∧
      (Check.run Schema.strict (graph.addSeed keyless)).1 = [] ∧
      Check.Seed.check (graph.addSeed keyless) keyless = [] ∧
      .insertRow "STATUS" [("STA_RANK", .literal (.integer 1))] ∈
        (generate .sqlServer sampleSettings (graph.addSeed keyless)).scripts.data.statements ∧
      ∃ id ∈ lists (graph.addSeed keyless), ∃ table,
        Schema.table .sqlServer sampleSettings (graph.addSeed keyless) id = .ok table ∧
        table.name = "STATUS" ∧
        ∃ column ∈ table.columns, column.name = "STA_ID" ∧ column.isMandatory = true := by
  obtain ⟨graph, found, hread, hchecked⟩ := Reading.exists_read .standard []
    (.cons document_registers .nil)
    (P := fun graph _ =>
      (graph.addSeed keyless).classes.all (fun c => !Schema.strict.allowlist.skips c.name) &&
        (Check.run Schema.strict (graph.addSeed keyless)).1 == [] &&
        Check.Seed.check (graph.addSeed keyless) keyless == [] &&
        decide (.insertRow "STATUS" [("STA_RANK", .literal (.integer 1))] ∈
          (generate .sqlServer sampleSettings
            (graph.addSeed keyless)).scripts.data.statements) &&
        (lists (graph.addSeed keyless)).any fun id =>
          (Schema.table .sqlServer sampleSettings (graph.addSeed keyless) id).toOption.any
            fun table => table.name == "STATUS" &&
              table.columns.any fun column => column.name == "STA_ID" && column.isMandatory)
    (by decide +kernel)
  simp only [Bool.and_eq_true, List.all_eq_true, List.any_eq_true, Option.any_eq_true,
    Bool.not_eq_true', beq_iff_eq, decide_eq_true_eq] at hchecked
  obtain ⟨⟨⟨⟨hskip, hclean⟩, hseed⟩, hrow⟩, id, hid, table, htable, hname, hcolumn⟩ := hchecked
  refine ⟨graph, found, hread, hskip, hclean, hseed, hrow, id, hid, table, ?_, hname, hcolumn⟩
  cases hresult : Schema.table .sqlServer sampleSettings (graph.addSeed keyless) id with
  | error error => simp [hresult, Except.toOption] at htable
  | ok other => simpa [hresult, Except.toOption] using htable

end Sql.Seeding

end ModelSchema
