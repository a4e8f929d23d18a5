import Mathlib
import ModelSchema.Proofs.Catalog
import ModelSchema.Proofs.Toml.Lines

/-!
# TOML documents read back

A document of strings and lists of strings, with sections for tables of such values, is read back
from its text (`parse?_render_arranged`); entries with sections of their own come last then.

* The text of every section writes its lines (`Section.writes`).
* Reading keeps what it has: closed after the lines of a section, the document has one entry more
  (`Progress.Holds`, `Progress.run_section`).
-/

namespace ModelSchema.Toml

/-! ## Sections

The documents that are written have tables, lists of tables, and tables in a table of their own, and
no deeper nesting. `Section` has one constructor for each. -/

def pairLine (entry : String × Value) : Line :=
  .pair [entry.1] entry.2

/-- A table of inline values, each with a name of its own. A name that comes twice is an error for
the reader. -/
structure Sheet (entries : Entries) : Prop where
  inline : ∀ entry ∈ entries, IsInline entry.2
  nodup : (entries.map Prod.fst).Nodup

/-- The lines of a value with a name, if it is written as sections: a table, several tables, or a
table that holds one table and needs no header. -/
inductive Section (name : String) : Value → List Line → Prop
  | table {entries : Entries} (h : Sheet entries) :
      Section name (.table entries) (.header [name] :: entries.map pairLine)
  | tables {elements : List Entries} (hsome : elements ≠ [])
      (h : ∀ entries ∈ elements, Sheet entries) :
      Section name (.array (elements.map .table))
        (elements.flatMap fun entries => .arrayHeader [name] :: entries.map pairLine)
  | group {inner : String} {entries : Entries} (h : Sheet entries) :
      Section name (.table [(inner, .table entries)])
        (.header [name, inner] :: entries.map pairLine)

/-- `Value.isSection` tells inline values from sections, which is how the printer tells them apart.
-/
theorem IsInline.isSection {value : Value} (h : IsInline value) : value.isSection = false := by
  cases h with
  | string s => rfl
  | strings items =>
      cases items with
      | nil => rfl
      | cons s items => simp [Value.isSection, Value.isTable]

theorem Section.isSection {name : String} {value : Value} {lines : List Line}
    (h : Section name value lines) : value.isSection = true := by
  cases h with
  | table _ => rfl
  | tables hsome _ => simp [Value.isSection, Value.isTable, hsome]
  | group _ => rfl

/-! ## The text of a document

`render` writes plain values first and sections after them, so the lines of a document are those of
the two parts. -/

theorem writes_pairs {entries : Entries} (h : ∀ entry ∈ entries, IsInline entry.2) :
    Writes (String.join (entries.map fun entry =>
      keyText entry.1 ++ " = " ++ entry.2.text ++ "\n")) (entries.map pairLine) := by
  induction entries with
  | nil => exact writes_nothing
  | cons entry entries ih =>
      rw [List.map_cons, String.join_cons]
      exact (writes_pair (h entry List.mem_cons_self) entry.1).append
        (ih fun other hother => h other (List.mem_cons_of_mem entry hother))

/-- Sections are left out by `plainLines`, so only what it keeps needs to be inline. -/
theorem writes_plainLines {entries : Entries}
    (h : ∀ entry ∈ entries, entry.2.isSection = false → IsInline entry.2) :
    Writes (plainLines entries) ((entries.filter (!·.2.isSection)).map pairLine) := by
  apply writes_pairs
  intro entry hentry
  obtain ⟨hmem, hsection⟩ := List.mem_filter.mp hentry
  exact h entry hmem (by simpa using hsection)

/-- A table without plain values has no plain lines. -/
theorem isEmpty_plainLines (entries : Entries) :
    (plainLines entries).isEmpty = (entries.filter (!·.2.isSection)).isEmpty := by
  unfold plainLines
  cases entries.filter (!·.2.isSection) with
  | nil => rfl
  | cons entry rest =>
      rw [List.map_cons, String.join_cons, List.isEmpty_cons, Bool.eq_false_iff]
      simp

/-- A sheet has no sections, so nothing is left out. -/
theorem Sheet.filter_eq {entries : Entries} (h : Sheet entries) :
    entries.filter (!·.2.isSection) = entries := by
  apply List.filter_eq_self.mpr
  intro entry hentry
  simp [(h.inline entry hentry).isSection]

theorem Sheet.writes {entries : Entries} (h : Sheet entries) :
    Writes (plainLines entries) (entries.map pairLine) := by
  have hwrites := writes_plainLines fun entry hentry _ => h.inline entry hentry
  rwa [h.filter_eq] at hwrites

/-- An inline value has no sections to write, and neither has a table of them inside
(`innerSections_of_inline`). -/
theorem IsInline.sections {value : Value} (h : IsInline value) (path : List String) :
    value.sections path = [] := by
  have hsection := h.isSection
  cases h with
  | string s => simp [Value.sections]
  | strings items =>
      rw [Value.isSection] at hsection
      rw [Value.sections, hsection]
      rfl

theorem innerSections_of_inline {entries : Entries} (h : ∀ entry ∈ entries, IsInline entry.2)
    (path : List String) : innerSections path entries = [] := by
  induction entries with
  | nil => rw [innerSections]
  | cons entry entries ih =>
      rw [innerSections, (h entry List.mem_cons_self).sections,
        ih fun other hother => h other (List.mem_cons_of_mem entry hother)]
      rfl

/-- A table is written under its header. -/
theorem Sheet.sections {entries : Entries} (h : Sheet entries) (path : List String) :
    (Value.table entries).sections path =
      ["[" ++ pathText path ++ "]\n" ++ plainLines entries] := by
  rw [Value.sections, innerSections_of_inline h.inline]
  simp only [isEmpty_plainLines, h.filter_eq, Bool.and_not_self, Bool.false_eq_true, if_false,
    List.append_nil]

/-- Tables of one name are written under a header each. -/
theorem elementSections_of_sheets {elements : List Entries}
    (h : ∀ entries ∈ elements, Sheet entries) (path : List String) :
    elementSections path (elements.map .table) =
      elements.map fun entries => "[[" ++ pathText path ++ "]]\n" ++ plainLines entries := by
  induction elements with
  | nil => rw [List.map_nil, elementSections, List.map_nil]
  | cons entries elements ih =>
      rw [List.map_cons, elementSections,
        innerSections_of_inline (h entries List.mem_cons_self).inline,
        ih fun other hother => h other (List.mem_cons_of_mem entries hother)]
      rfl

theorem writesAll_map {elements : List Entries} {text : Entries → String}
    {lines : Entries → List Line}
    (h : ∀ entries ∈ elements, Writes (text entries) (lines entries)) :
    WritesAll (elements.map text) (elements.flatMap lines) := by
  induction elements with
  | nil => exact .nil
  | cons entries elements ih =>
      exact .cons (h entries List.mem_cons_self)
        (ih fun other hother => h other (List.mem_cons_of_mem entries hother))

/-- The text of a section writes its lines. One case for each shape, with an induction on elements
in `elementSections_of_sheets`. -/
theorem Section.writes {name : String} {value : Value} {lines : List Line}
    (h : Section name value lines) : WritesAll (value.sections [name]) lines := by
  have hsection := h.isSection
  cases h with
  | table h =>
      rw [h.sections]
      exact ((writes_header (by simp) (by simp [depthLimit])).append h.writes).all
  | tables hsome h =>
      rw [Value.isSection] at hsection
      rw [Value.sections, hsection, if_pos rfl, elementSections_of_sheets h]
      apply writesAll_map
      intro entries hentries
      exact (writes_arrayHeader (by simp) (by simp [depthLimit])).append (h entries hentries).writes
  | @group inner entries h =>
      -- Without plain lines of its own, the outer table leaves no text.
      have hsections : (Value.table [(inner, .table entries)]).sections [name] =
          (Value.table entries).sections [name, inner] := by
        rw [Value.sections, innerSections, innerSections]
        simp [isEmpty_plainLines, Value.isSection]
      rw [hsections, h.sections]
      exact ((writes_header (by simp) (by simp [depthLimit])).append h.writes).all

/-- The sections of a document, one after the other. -/
inductive Sections : Entries → List Line → Prop
  | nil : Sections [] []
  | cons {entry : String × Value} {rest : Entries} {lines more : List Line}
      (h : Section entry.1 entry.2 lines) (hrest : Sections rest more) :
      Sections (entry :: rest) (lines ++ more)

/-- If every entry is a section, their lines can be put together. -/
theorem exists_sections {entries : Entries}
    (h : ∀ entry ∈ entries, ∃ lines, Section entry.1 entry.2 lines) :
    ∃ lines, Sections entries lines := by
  induction entries with
  | nil => exact ⟨[], .nil⟩
  | cons entry entries ih =>
      obtain ⟨lines, hlines⟩ := h entry List.mem_cons_self
      obtain ⟨more, hmore⟩ := ih fun other hother => h other (List.mem_cons_of_mem entry hother)
      exact ⟨lines ++ more, .cons hlines hmore⟩

theorem Sections.writes {entries : Entries} {lines : List Line} (h : Sections entries lines) :
    WritesAll (innerSections [] entries) lines := by
  induction h with
  | nil =>
      rw [innerSections]
      exact .nil
  | cons hentry _ ih =>
      rw [innerSections]
      exact hentry.writes.append ih

/-- `innerSections` goes through all entries, the inline ones among them, and these add nothing. -/
theorem innerSections_filter {entries : Entries}
    (h : ∀ entry ∈ entries, entry.2.isSection = false → IsInline entry.2) (path : List String) :
    innerSections path (entries.filter (·.2.isSection)) = innerSections path entries := by
  induction entries with
  | nil => rfl
  | cons entry entries ih =>
      have hrest := ih fun other hother => h other (List.mem_cons_of_mem entry hother)
      rw [innerSections]
      cases hsection : entry.2.isSection with
      | true => rw [List.filter_cons_of_pos (by exact hsection), innerSections, hrest]
      | false =>
          rw [List.filter_cons_of_neg (by simp [hsection]), hrest,
            (h entry List.mem_cons_self hsection).sections]
          rfl

/-- The text of a document writes its plain lines and then its sections. -/
theorem writes_render {entries : Entries} {lines : List Line}
    (h : ∀ entry ∈ entries, entry.2.isSection = false → IsInline entry.2)
    (hlines : Sections (entries.filter (·.2.isSection)) lines) :
    Writes (render entries) ((entries.filter (!·.2.isSection)).map pairLine ++ lines) := by
  have hsections := hlines.writes
  rw [innerSections_filter h] at hsections
  unfold render
  simp only [isEmpty_plainLines]
  split
  · next hempty =>
    rw [List.isEmpty_iff.mp hempty]
    exact hsections.join
  · exact ((writes_plainLines h).all.append hsections).join

/-! ## Tables in the making

While a document is read, its tables are kept as a `Tree`. Names are new whenever a section begins,
so no table is ever extended. -/

namespace Tree

@[simp] theorem entries_declared (items : List (String × Item)) :
    (declared items).entries = items :=
  rfl

@[simp] theorem item_mk (isImplicit isDotted : Bool) (items : List (String × Item)) :
    item ⟨isImplicit, isDotted, items⟩ = .table isImplicit isDotted items :=
  rfl

theorem set_nothing (isImplicit isDotted : Bool) (name : String) (item : Item) :
    set ⟨isImplicit, isDotted, []⟩ name item = ⟨isImplicit, isDotted, [(name, item)]⟩ :=
  rfl

@[simp] theorem item_declared (items : List (String × Item)) :
    (declared items).item = .table false false items :=
  rfl

variable {items : List (String × Item)} {name : String} (h : name ∉ items.map Prod.fst)

include h

theorem ne_of_absent : ∀ entry ∈ items, entry.1 ≠ name := by
  intro entry hentry heq
  exact h (heq ▸ List.mem_map_of_mem hentry)

/-- What `Tree` does with a name that is new. -/
theorem lookup_absent : items.lookup name = none := by
  apply List.lookup_eq_none_iff.mpr
  intro entry hentry
  exact bne_iff_ne.mpr (ne_of_absent h entry hentry).symm

theorem lookup_last (item : Item) : (items ++ [(name, item)]).lookup name = some item := by
  simp [List.lookup_append, lookup_absent h]

theorem any_absent : items.any (·.1 == name) = false := by
  simpa [List.any_eq_false] using ne_of_absent h

/-- A new name goes to the end. -/
theorem set_absent (item : Item) :
    (declared items).set name item = declared (items ++ [(name, item)]) := by
  simp [set, declared, any_absent h]

/-- The last name keeps its place. -/
theorem set_last (old item : Item) :
    (declared (items ++ [(name, old)])).set name item = declared (items ++ [(name, item)]) := by
  have hmap : items.map (fun entry => if entry.1 = name then (name, item) else entry) = items := by
    calc
      _ = items.map id := List.map_congr_left fun entry hentry =>
        if_neg (ne_of_absent h entry hentry)
      _ = items := List.map_id items
  simp [set, declared, hmap]

/-- A new name may be given a value. -/
theorem insertAt?_absent (value : Value) :
    (declared items).insertAt? [name] value =
      some (declared (items ++ [(name, .value value)])) := by
  show (if items.any (·.1 == name) then none
    else some ((declared items).set name (.value value))) = _
  rw [any_absent h, set_absent h]
  rfl

/-- A header clears what was implied for its name. For a new name there is nothing to clear. -/
theorem erase_absent : (declared items).erase name = declared items := by
  have hfilter : items.filter (fun entry => entry.1 != name) = items := by
    apply List.filter_eq_self.mpr
    intro entry hentry
    exact bne_iff_ne.mpr (ne_of_absent h entry hentry)
  rw [erase, declared, hfilter]

end Tree

def valueItem (entry : String × Value) : String × Item :=
  (entry.1, .value entry.2)

/-- `entriesOf` and `tablesOf` recurse together with `Item.toValue`; seen from outside they are
maps. -/
theorem entriesOf_eq_map (items : List (String × Item)) :
    entriesOf items = items.map fun entry => (entry.1, entry.2.toValue) := by
  induction items with
  | nil => rw [entriesOf, List.map_nil]
  | cons entry items ih => rw [entriesOf, ih, List.map_cons]

theorem tablesOf_eq_map (elements : List (List (String × Item))) :
    tablesOf elements = elements.map fun items => .table (entriesOf items) := by
  induction elements with
  | nil => rw [tablesOf, List.map_nil]
  | cons items elements ih => rw [tablesOf, ih, List.map_cons]

/-- Values go through the tree unchanged. -/
theorem entriesOf_valueItems (entries : Entries) : entriesOf (entries.map valueItem) = entries := by
  have hid : (fun entry : String × Item => (entry.1, entry.2.toValue)) ∘ valueItem = id := by
    funext entry
    simp [valueItem, Item.toValue]
  rw [entriesOf_eq_map, List.map_map, hid, List.map_id]

namespace Progress

/-- Closed now, the document has these entries. This is the invariant of reading: it does not
mention the table that is open, or how the tree marks tables. -/
def Holds (progress : Progress) (entries : Entries) : Prop :=
  ∃ items, progress.close? = some (.declared items) ∧ entriesOf items = entries

/-- Pairs with new names go to the current table. -/
theorem foldlM_pairs {items : List (String × Item)} {entries : Entries}
    (h : (items.map Prod.fst ++ entries.map Prod.fst).Nodup) (root : Tree) (path : List String)
    (isArray : Bool) :
    (entries.map pairLine).foldlM step? ⟨root, .declared items, path, isArray⟩ =
      some ⟨root, .declared (items ++ entries.map valueItem), path, isArray⟩ := by
  induction entries generalizing items with
  | nil => simp
  | cons entry entries ih =>
      have hnew : entry.1 ∉ items.map Prod.fst := by
        intro hmem
        exact (List.nodup_append.mp h).2.2 _ hmem _ List.mem_cons_self rfl
      have hstep : step? ⟨root, .declared items, path, isArray⟩ (pairLine entry) =
          some ⟨root, .declared (items ++ [valueItem entry]), path, isArray⟩ := by
        rw [pairLine, step?, Tree.insertAt?_absent hnew]
        rfl
      rw [List.map_cons, List.foldlM_cons, hstep]
      show (entries.map pairLine).foldlM step? _ = _
      rw [ih (by simpa [valueItem] using h)]
      simp

/-- The plain lines of a table make it. -/
theorem foldlM_sheet {entries : Entries} (h : Sheet entries) (root : Tree) (path : List String)
    (isArray : Bool) :
    (entries.map pairLine).foldlM step? ⟨root, .declared [], path, isArray⟩ =
      some ⟨root, .declared (entries.map valueItem), path, isArray⟩ :=
  foldlM_pairs (by simpa using h.nodup) root path isArray

section

variable {progress : Progress} {items : List (String × Item)} {name : String}
  (hclose : progress.close? = some (.declared items)) (h : name ∉ items.map Prod.fst)

include hclose h

/-- A header closes the table before it and opens an empty one. -/
theorem step?_header :
    progress.step? (.header [name]) = some ⟨.declared items, .declared [], [name], false⟩ := by
  rw [step?, hclose]
  simp [openTable?, splitKey?, Tree.modifyAt, openTable?.lookup, Tree.lookup_absent h,
    Tree.erase_absent h]

/-- The header of a table inside another makes the outer one. -/
theorem step?_innerHeader (inner : String) :
    progress.step? (.header [name, inner]) =
      some ⟨.declared (items ++ [(name, .table true false [])]), .declared [], [name, inner],
        false⟩ := by
  rw [step?, hclose]
  simp [openTable?, splitKey?, Tree.modifyAt, openTable?.lookup, Tree.lookup_absent h,
    Tree.lookup_last h, Tree.set_absent h, Tree.set_last h, Tree.erase]

end

/-- Closing puts the current table where its path says. -/
theorem close?_table {items inner : List (String × Item)} {name : String}
    (h : name ∉ items.map Prod.fst) :
    close? ⟨.declared items, .declared inner, [name], false⟩ =
      some (.declared (items ++ [(name, .table false false inner)])) := by
  simp [close?, splitKey?, Tree.modifyAt, Tree.lookup_absent h, Tree.set_absent h]

/-- The outer table has been made by the header, with nothing in it. -/
theorem close?_inner {items inner : List (String × Item)} {name : String}
    (h : name ∉ items.map Prod.fst) (group : String) :
    close? ⟨.declared (items ++ [(name, .table true false [])]), .declared inner, [name, group],
      false⟩ = some (.declared
        (items ++ [(name, .table true false [(group, .table false false inner)])])) := by
  simp [close?, splitKey?, Tree.modifyAt, Tree.lookup_last h, Tree.set_last h, Tree.set_nothing]

/-! ### Several tables of one name -/

/-- Entries with the tables of one name read so far, the last one first. -/
def withTables (items : List (String × Item)) (name : String) :
    List (List (String × Item)) → List (String × Item)
  | [] => items
  | read => items ++ [(name, .tables read)]

/-- As soon as one element is read, the name is there. -/
theorem withTables_of_ne_nil {read : List (List (String × Item))} (h : read ≠ [])
    (items : List (String × Item)) (name : String) :
    withTables items name read = items ++ [(name, .tables read)] := by
  cases read with
  | nil => exact absurd rfl h
  | cons element read => rfl

section

variable {items : List (String × Item)} {name : String} (h : name ∉ items.map Prod.fst)
  (read : List (List (String × Item)))

include h

/-- Every header after the first finds the name, with the elements read before. -/
theorem step?_arrayHeader {progress : Progress}
    (hclose : progress.close? = some (.declared (withTables items name read))) :
    progress.step? (.arrayHeader [name]) =
      some ⟨.declared (withTables items name read), .declared [], [name], true⟩ := by
  rw [step?, hclose]
  cases read <;>
    simp [openArray?, splitKey?, Tree.modifyAt, withTables, Tree.lookup_absent h,
      Tree.lookup_last h]

/-- A closed element goes in front, or makes the name if it is the first. -/
theorem close?_tables (element : List (String × Item)) :
    close? ⟨.declared (withTables items name read), .declared element, [name], true⟩ =
      some (.declared (withTables items name (element :: read))) := by
  cases read <;>
    simp [close?, splitKey?, Tree.modifyAt, withTables, Tree.lookup_absent h, Tree.lookup_last h,
      Tree.set_absent h, Tree.set_last h]

/-- Each element is put in front of those read before. -/
theorem run_elements {elements : List Entries} (helements : ∀ entries ∈ elements, Sheet entries)
    {progress : Progress}
    (hclose : progress.close? = some (.declared (withTables items name read))) :
    ∃ next, (elements.flatMap fun entries =>
        .arrayHeader [name] :: entries.map pairLine).foldlM step? progress = some next ∧
      next.close? = some (.declared (withTables items name
        ((elements.map fun entries => entries.map valueItem).reverse ++ read))) := by
  -- The header of an element closes the one before it, so what is read grows by one at a time.
  induction elements generalizing progress read with
  | nil => exact ⟨progress, rfl, hclose⟩
  | cons entries elements ih =>
      obtain ⟨next, hrun, hnext⟩ := ih _ (fun other hother =>
        helements other (List.mem_cons_of_mem entries hother)) (close?_tables h read _)
      refine ⟨next, ?_, by simpa using hnext⟩
      rw [List.flatMap_cons, List.foldlM_append, List.foldlM_cons,
        step?_arrayHeader h read hclose]
      show ((entries.map pairLine).foldlM step? _).bind _ = _
      rw [foldlM_sheet (helements entries List.mem_cons_self)]
      exact hrun

end

/-! ### Sections -/

/-- Names in the tree are those in the document, so `Holds` is enough to see that a name is new. -/
theorem map_fst_entriesOf (items : List (String × Item)) :
    (entriesOf items).map Prod.fst = items.map Prod.fst := by
  rw [entriesOf_eq_map, List.map_map]
  rfl

/-- After the lines of a section, the document has one entry more. -/
theorem run_section {progress : Progress} {entries : Entries} (hholds : progress.Holds entries)
    {name : String} (hname : name ∉ entries.map Prod.fst) {value : Value} {lines : List Line}
    (h : Section name value lines) :
    ∃ next, lines.foldlM step? progress = some next ∧ next.Holds (entries ++ [(name, value)]) := by
  obtain ⟨items, hclose, rfl⟩ := hholds
  rw [map_fst_entriesOf] at hname
  -- Whatever item the section leaves, only its value counts.
  have hshown {item : Item} (hitem : item.toValue = value) :
      entriesOf (items ++ [(name, item)]) = entriesOf items ++ [(name, value)] := by
    rw [entriesOf_eq_map, entriesOf_eq_map, List.map_append, List.map_singleton, hitem]
  cases h with
  | @table inner h =>
      have hrun : (Line.header [name] :: inner.map pairLine).foldlM step? progress =
          some ⟨.declared items, .declared (inner.map valueItem), [name], false⟩ := by
        rw [List.foldlM_cons, step?_header hclose hname]
        exact foldlM_sheet h _ _ _
      have hvalue : (Item.table false false (inner.map valueItem)).toValue = .table inner := by
        rw [Item.toValue, entriesOf_valueItems]
      exact ⟨_, hrun, _, close?_table hname, hshown hvalue⟩
  | @tables elements hsome h =>
      obtain ⟨next, hrun, hnext⟩ := run_elements hname [] h hclose
      have hvalue : (Item.tables
          (elements.map fun entries => entries.map valueItem).reverse).toValue =
            .array (elements.map .table) := by
        rw [Item.toValue, tablesOf_eq_map, List.map_reverse, List.reverse_reverse, List.map_map]
        simp [Function.comp_def, entriesOf_valueItems]
      refine ⟨next, hrun, _, hnext, ?_⟩
      rw [List.append_nil, withTables_of_ne_nil (by simpa using hsome)]
      exact hshown hvalue
  | @group inner entries h =>
      have hrun : (Line.header [name, inner] :: entries.map pairLine).foldlM step? progress =
          some ⟨.declared (items ++ [(name, .table true false [])]),
            .declared (entries.map valueItem), [name, inner], false⟩ := by
        rw [List.foldlM_cons, step?_innerHeader hclose hname]
        exact foldlM_sheet h _ _ _
      have hvalue : (Item.table true false
          [(inner, .table false false (entries.map valueItem))]).toValue =
            .table [(inner, .table entries)] := by
        rw [Item.toValue, entriesOf_eq_map, List.map_singleton, Item.toValue, entriesOf_valueItems]
      exact ⟨_, hrun, _, close?_inner hname inner, hshown hvalue⟩

/-- After the lines of all sections, the document has all their entries. -/
theorem run_sections {sections : Entries} {lines : List Line} (h : Sections sections lines)
    {progress : Progress} {entries : Entries} (hholds : progress.Holds entries)
    (hnodup : ((entries ++ sections).map Prod.fst).Nodup) :
    ∃ next, lines.foldlM step? progress = some next ∧ next.Holds (entries ++ sections) := by
  induction h generalizing progress entries with
  | nil => exact ⟨progress, rfl, by simpa using hholds⟩
  | @cons entry sections lines more h _ ih =>
      have hname : entry.1 ∉ entries.map Prod.fst := by
        intro hmem
        rw [List.map_append, List.map_cons] at hnodup
        exact (List.nodup_append.mp hnodup).2.2 _ hmem _ List.mem_cons_self rfl
      obtain ⟨next, hrun, hnext⟩ := run_section hholds hname h
      obtain ⟨last, hmore, hlast⟩ := ih hnext (by simpa using hnodup)
      refine ⟨last, ?_, by simpa using hlast⟩
      rw [List.foldlM_append, hrun]
      exact hmore

/-- The plain lines at the start of a document give its first entries. -/
theorem run_plain {entries : Entries} (h : (entries.map Prod.fst).Nodup) :
    ∃ next, (entries.map pairLine).foldlM step? .start = some next ∧ next.Holds entries := by
  have hrun : (entries.map pairLine).foldlM step? .start =
      some ⟨.declared [], .declared ([] ++ entries.map valueItem), [], false⟩ :=
    foldlM_pairs (by simpa using h) (.declared []) [] false
  exact ⟨_, hrun, _, rfl, entriesOf_valueItems entries⟩

end Progress

/-! ## Arranged entries -/

/-- `arranged` moves sections behind the other entries, which is the order in which `render` writes
them. -/
theorem perm_arranged (entries : Entries) : (arranged entries).Perm entries :=
  List.perm_append_comm.trans (List.filter_append_perm (fun entry => entry.2.isSection) entries)

theorem nodup_arranged {entries : Entries} (h : (entries.map Prod.fst).Nodup) :
    ((arranged entries).map Prod.fst).Nodup :=
  ((perm_arranged entries).map Prod.fst).nodup_iff.mpr h

/-- What is read back can be written again and gives the same. -/
theorem arranged_arranged (entries : Entries) : arranged (arranged entries) = arranged entries := by
  simp [arranged, List.filter_append, List.filter_filter]

/-- With distinct names, looking up is membership, which does not depend on the order. -/
theorem lookup_eq_some_iff_mem {entries : Entries} (h : (entries.map Prod.fst).Nodup)
    {name : String} {value : Value} :
    entries.lookup name = some value ↔ (name, value) ∈ entries := by
  induction entries with
  | nil => simp
  | cons entry entries ih =>
      rw [List.map_cons, List.nodup_cons] at h
      rw [Catalog.lookup_cons_eq_ite, List.mem_cons, ← ih h.2]
      split
      · next heq =>
        subst heq
        have hlater : entries.lookup entry.1 ≠ some value := fun hfound =>
          h.1 (List.mem_map.mpr ⟨_, (ih h.2).mp hfound, rfl⟩)
        simp [Prod.ext_iff, hlater, eq_comm]
      · next hne => simp [Prod.ext_iff, hne]

/-- Nothing is lost and nothing changes by arranging. -/
theorem lookup_arranged {entries : Entries} (h : (entries.map Prod.fst).Nodup) (name : String) :
    (arranged entries).lookup name = entries.lookup name := by
  ext value
  rw [lookup_eq_some_iff_mem (nodup_arranged h), lookup_eq_some_iff_mem h,
    (perm_arranged entries).mem_iff]

/-! ## Whole documents -/

/-- No line starts with a byte order mark. -/
theorem Reads.head?_ne {cs : List Char} {lines : List Line} (h : Reads cs lines) :
    cs.head? ≠ some (Char.ofNat 0xfeff) := by
  intro hhead
  obtain ⟨rest, rfl⟩ := List.head?_eq_some_iff.mp hhead
  -- The mark is no part of a key, so a line that starts with it cannot be read.
  have hnone : lines? (rest.length + 2) (Char.ofNat 0xfeff :: rest) = none := rfl
  have hread := h (rest.length + 2) (by simp)
  rw [hnone] at hread
  cases hread

/-- What reading the lines gives, the text gives. -/
theorem parse?_of_reads {s : String} {lines : List Line} (h : Reads s.toList lines)
    {progress : Progress} (hrun : lines.foldlM Progress.step? .start = some progress)
    {entries : Entries} (hholds : progress.Holds entries) : parse? s = some entries := by
  obtain ⟨items, hclose, rfl⟩ := hholds
  have hmark : (s.toList.head? == some (Char.ofNat 0xfeff)) = false :=
    beq_eq_false_iff_ne.mpr h.head?_ne
  have hlines := h _ (Nat.lt_succ_self _)
  rw [parse?, hmark]
  simp [hlines, hrun, hclose]

/-- A document is read back from its text. The order of its entries changes, as inline values are
written first; the entries do not (`lookup_arranged`). -/
theorem parse?_render_arranged {entries : Entries} (hnodup : (entries.map Prod.fst).Nodup)
    (h : ∀ entry ∈ entries, IsInline entry.2 ∨ ∃ lines, Section entry.1 entry.2 lines) :
    parse? (render entries) = some (arranged entries) := by
  -- The two shapes of values are told apart by whether they have sections.
  have hinline : ∀ entry ∈ entries, entry.2.isSection = false → IsInline entry.2 := by
    intro entry hentry hsection
    rcases h entry hentry with hinline | ⟨lines, hlines⟩
    · exact hinline
    · rw [hlines.isSection] at hsection
      cases hsection
  have hsections : ∀ entry ∈ entries.filter (·.2.isSection),
      ∃ lines, Section entry.1 entry.2 lines := by
    intro entry hentry
    obtain ⟨hmem, hsection⟩ := List.mem_filter.mp hentry
    rcases h entry hmem with hinline | hlines
    · rw [hinline.isSection] at hsection
      cases hsection
    · exact hlines
  obtain ⟨lines, hlines⟩ := exists_sections hsections
  have hplains : ((entries.filter (!·.2.isSection)).map Prod.fst).Nodup :=
    hnodup.sublist (List.filter_sublist.map Prod.fst)
  obtain ⟨middle, hplain, hmiddle⟩ := Progress.run_plain hplains
  obtain ⟨last, hrun, hlast⟩ := Progress.run_sections hlines hmiddle (nodup_arranged hnodup)
  have hreads := writes_render hinline hlines [] [] reads_nil
  rw [List.append_nil, List.append_nil] at hreads
  refine parse?_of_reads hreads ?_ hlast
  rw [List.foldlM_append, hplain]
  exact hrun

end ModelSchema.Toml
