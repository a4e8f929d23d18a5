import ModelSchema.Proofs.Check.Coverage
import ModelSchema.Proofs.Check.Rules

/-!
# What clean checks say about tables

A check without findings says two things about persistent classes:

* each has a trigram of three letters, a persistent key, and values whose columns start with the
  trigram (`tabular_of_run`);
* no two of them have the same trigram (`trigram_ne_of_run`).
-/

namespace ModelSchema.Check

open ModelSchema.Graph (Property)

/-- A persistent class is ready for a table. Everything that the schema and the seed scripts ask of
it is here; the rest of the rules is about style. -/
structure Tabular (c : Graph.Class) (trigram : String) : Prop where
  own : c.trigram = some trigram
  letters : Naming.isTrigram trigram = true
  /-- The properties of the key are persistent. -/
  keys : ∀ property ∈ c.properties, property.isPrimaryKey = true → property.isPersistent = true
  /-- The columns of values start with the trigram. -/
  columns : ∀ property ∈ c.properties, ∀ column, property.isPrimitive = true →
    property.isColumn = true → property.column = some column →
      Text.startsWith (trigram ++ "_") column = true

/-- A class that is not skipped is ready for a table if there are no findings. -/
theorem tabular_of_checked {options : Options} {graph : Graph} (hgraph : graph.WellFormed)
    (h : (Check.run options graph).1 = []) {id : ClassId} (hid : id ∈ graph.persistentIds)
    (hskip : options.allowlist.skips (graph.classAt id).name = false) :
    ∃ trigram, Tabular (graph.classAt id) trigram := by
  obtain ⟨helements, hmapping⟩ := (run_eq_nil_iff hgraph).mp h
  obtain ⟨hlisted, hpersistent⟩ := List.mem_filter.mp hid
  have hchecked : id ∈ checkedIds options graph :=
    List.mem_filter.mpr ⟨hlisted, by rw [hskip]; rfl⟩
  have hproperties := hmapping.properties id hchecked
  obtain ⟨trigram, htrigram, hletters⟩ :=
    ((helements.classes id hchecked).persistent hpersistent).trigram
  refine ⟨trigram, htrigram, Naming.isTrigram_iff.mpr hletters, fun property hproperty hkey => ?_,
    fun property hproperty column hvalue hcolumn hname => ?_⟩
  · exact ((hproperties property hproperty).key hkey hpersistent).1
  · have hrules := (hproperties property hproperty).column column hname hcolumn hpersistent
    exact List.isPrefixOf_iff_prefix.mpr
      (hrules.start (isPrimitive_iff.mp hvalue) trigram htrigram)

section Run

variable {options : Options} {graph : Graph} (hgraph : graph.WellFormed)
  (hskip : ∀ c ∈ graph.classes, options.allowlist.skips c.name = false)
  (h : (Check.run options graph).1 = [])

include hgraph hskip h

/-- No two persistent classes have the same trigram. In `ElementRules` this is a list without
repetition; by symmetry its pairs can be taken in either order. -/
theorem trigram_ne_of_run {id other : ClassId} (hid : id ∈ graph.persistentIds)
    (hother : other ∈ graph.persistentIds) (hne : id ≠ other) {trigram : String}
    (htrigram : (graph.classAt id).trigram = some trigram) :
    (graph.classAt other).trigram ≠ some trigram := by
  have hchecked {id : ClassId} (hid : id ∈ graph.persistentIds) :
      id ∈ checkedIds options graph := by
    have hlisted := (List.mem_filter.mp hid).1
    refine List.mem_filter.mpr ⟨hlisted, ?_⟩
    rw [hskip _ (Graph.classAt_mem (List.mem_range.mp hlisted))]
    rfl
  have hpairs := List.pairwise_filterMap.mp ((run_eq_nil_iff hgraph).mp h).1.trigrams
  intro hsame
  have hsymm : Std.Symm fun a b => ∀ x, claimed? graph a = some x →
      ∀ y, claimed? graph b = some y → x ≠ y :=
    ⟨fun _ _ hab x hx y hy => (hab y hy x hx).symm⟩
  refine hpairs.forall (hchecked hid) (hchecked hother) hne trigram ?_ trigram ?_ rfl
  · rw [claimed?, if_pos (List.mem_filter.mp hid).2, htrigram]
  · rw [claimed?, if_pos (List.mem_filter.mp hother).2, hsame]

/-- `tabular_of_checked` where no class is skipped at all. -/
theorem tabular_of_run {id : ClassId} (hid : id ∈ graph.persistentIds) :
    ∃ trigram, Tabular (graph.classAt id) trigram :=
  tabular_of_checked hgraph h hid
    (hskip _ (Graph.classAt_mem (List.mem_range.mp (List.mem_filter.mp hid).1)))

end Run

end ModelSchema.Check
