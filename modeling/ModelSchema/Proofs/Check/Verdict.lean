import ModelSchema.Proofs.Check.Rules
import ModelSchema.Proofs.Sql.Clashes

/-!
# What a check decides

For a graph that is read, a check that skips no class has no findings exactly if the rules hold for
all elements, tables and properties (`clean_iff_rules`). The rules for the elements alone are not
enough: a property whose name is not in Pascal case is reported too
(`exists_finding_on_conforming`).
-/

namespace ModelSchema.Check

open Reading (read)
open Sql.Schema (strict)

/-- Without classes to skip, a check looks at all of them. -/
theorem checkedIds_eq {options : Options} {graph : Graph}
    (hskip : ∀ c ∈ graph.classes, options.allowlist.skips c.name = false) :
    checkedIds options graph = graph.classIds := by
  refine List.filter_eq_self.mpr fun id hid => ?_
  rw [hskip _ (Graph.classAt_mem (List.mem_range.mp hid))]
  rfl

/-- A check decides the rules: it has no findings exactly if they hold. Reading gives a well-formed
graph, which is all that `run_eq_nil_iff` asks. -/
theorem clean_iff_rules {suffixes : Naming.Suffixes} {shared : List Graph.Domain}
    {sources : List Reading.Source} {graph : Graph} {found : List Diagnostic}
    (hread : read suffixes shared sources = .ok (graph, found)) (options : Options)
    (hskip : ∀ c ∈ graph.classes, options.allowlist.skips c.name = false) :
    (run options graph).1 = [] ↔
      ElementRules options.suffixes graph graph.classIds ∧
        MappingRules options.engine graph graph.classIds := by
  rw [run_eq_nil_iff (Reading.wellFormed_of_read hread), checkedIds_eq hskip]

theorem clean_iff_rules_offers :
    ∃ graph found, read .standard [] [Sql.Schema.offers] = .ok (graph, found) ∧
      (∀ c ∈ graph.classes, strict.allowlist.skips c.name = false) ∧
      (run strict graph).1 = [] ∧ ElementRules strict.suffixes graph graph.classIds ∧
      MappingRules strict.engine graph graph.classIds := by
  obtain ⟨graph, found, hread, hchecked⟩ := Reading.exists_read .standard []
    (.cons Sql.Schema.document_offers .nil)
    (P := fun graph _ =>
      graph.classes.all (fun c => !strict.allowlist.skips c.name) && (run strict graph).1 == [])
    (by decide +kernel)
  simp only [Bool.and_eq_true, List.all_eq_true, Bool.not_eq_true', beq_iff_eq] at hchecked
  obtain ⟨hskip, hclean⟩ := hchecked
  exact ⟨graph, found, hread, hskip, hclean, (clean_iff_rules hread strict hskip).mp hclean⟩

/-- A model whose elements follow the rules, with a property in lower case. -/
def lowercase : Reading.Source where
  path := "Shop.oom"
  format := .objectModel
  content :=
    "<Model><Code>Shop</Code><Name>Shop</Name>
      <Domains><Domain Id='d'>
        <Code>DO_ID</Code><DataType>int</DataType><PersistentDataType>int</PersistentDataType>
      </Domain></Domains>
      <Packages><Package Id='p'><Code>SalesDataContract</Code><Comment>-</Comment><Classes>
        <Class Id='x'>
          <Code>Product</Code><Name>Product</Name><Comment>-</Comment><Persistent>1</Persistent>
          <Trigram>PRD</Trigram>
          <Attributes>
            <Attribute Id='i'>
              <Code>Id</Code><Comment>-</Comment><Persistent>1</Persistent>
              <Multiplicity>1..1</Multiplicity><PrimaryIdentifier>1</PrimaryIdentifier>
              <Domain><Domain Ref='d'/></Domain>
            </Attribute>
            <Attribute Id='j'>
              <Code>price</Code><Comment>-</Comment><Persistent>1</Persistent>
              <Domain><Domain Ref='d'/></Domain>
            </Attribute>
          </Attributes>
        </Class>
      </Classes></Package></Packages></Model>"

def lowercaseOutline : Outline :=
  Sql.Schema.shopOutline
    [Sql.Schema.tableOutline "x" "Product" "PRD" false
      [Sql.Schema.fieldOutline "i" "Id" true, Sql.Schema.fieldOutline "j" "price" false]]
    []

set_option maxRecDepth 20000 in
/-- Reading the text once, so that the kernel need not do it in each proof below. -/
theorem document_lowercase : lowercase.document = .ok ⟨"Shop.oom", lowercaseOutline⟩ := by
  rw [Reading.Source.document, Reading.Source.outline,
    show Xml.parse? lowercase.content = _ from Reading.parse?_ofList _]
  decide +kernel

/-- Elements that follow the rules do not keep a check from finding anything: `MappingRules` are not
implied. -/
theorem exists_finding_on_conforming :
    ∃ graph found, read .standard [] [lowercase] = .ok (graph, found) ∧
      (∀ c ∈ graph.classes, strict.allowlist.skips c.name = false) ∧
      ElementRules strict.suffixes graph graph.classIds ∧ (run strict graph).1 ≠ [] := by
  obtain ⟨graph, found, hread, hchecked⟩ := Reading.exists_read .standard []
    (.cons document_lowercase .nil)
    (P := fun graph _ =>
      graph.classes.all (fun c => !strict.allowlist.skips c.name) &&
        decide (ElementRules strict.suffixes graph graph.classIds) &&
        decide ((run strict graph).1 ≠ []))
    (by decide +kernel)
  simp only [Bool.and_eq_true, List.all_eq_true, Bool.not_eq_true', decide_eq_true_eq] at hchecked
  obtain ⟨⟨hskip, hrules⟩, hfound⟩ := hchecked
  exact ⟨graph, found, hread, hskip, hrules, hfound⟩

end ModelSchema.Check
