import ModelSchema.Proofs.Reading.Declarations
import ModelSchema.Proofs.Reading.Shapes

/-!
# Dependencies of namespaces

A namespace notes the names of the namespaces it depends on, one link at a time. In a graph that is
read these are exactly the namespaces that its classes lead to (`uses_of_read`): through their
properties, and through the generalizations of all documents, also those whose parent was replaced
by a later one. Associations that add no property add no dependency.
-/

namespace ModelSchema.Reading

open ModelSchema.Graph (Domain Property Tie)

namespace Assembly

/-- A class is led to another one: by a generalization that names it as the child and the other one
as the parent, or by a property. -/
def LeadsTo (graph : Graph) (generalizations : List (Declared Outline.Generalization))
    (user used : ClassId) : Prop :=
  (∃ declared ∈ generalizations,
      find? graph declared.scope declared.link.child = some user ∧
        find? graph declared.scope declared.link.parent = some used) ∨
    ∃ property ∈ (graph.classAt user).properties, property.kind.linked? = some used

/-- Before the links, namespaces depend on nothing. -/
theorem uses_withClasses (suffixes : Naming.Suffixes) (shared : List Domain)
    (documents : List Document) (n : NamespaceId) :
    ((withClasses suffixes shared documents).1.graph.namespaceAt n).uses = .empty := by
  have hspaces := (extends_withClasses suffixes shared documents).namespaces
  rw [(listed_withModels shared documents).namespaces, List.map_nil, List.nil_append] at hspaces
  have hspace := congrArg (·[n]?) hspaces
  simp only [List.getElem?_map] at hspace
  simp only [Graph.namespaceAt, List.getD_eq_getElem?_getD]
  cases hfound : (withClasses suffixes shared documents).1.graph.namespaces[n]? with
  | none => rfl
  | some space =>
      rw [hfound, Option.map_some] at hspace
      obtain ⟨declared, -, heq⟩ := Option.map_eq_some_iff.mp hspace.symm
      exact (congrArg Graph.Namespace.uses heq).symm

/-- A class is led to another one exactly if there is a tie between them. A parent may have been
replaced by a later generalization, hence the generalizations on the right; properties are never
replaced. -/
theorem exists_tie_iff {base : Graph} {placed : List (Document × Scope)}
    (hscopes : ∀ entry ∈ placed, entry.2.Within base.classes.length)
    (hvalues : ∀ id, ∀ property ∈ (base.classAt id).properties, property.kind = .primitive)
    (user used : ClassId) :
    (∃ t ∈ allTies base placed, t.user = user ∧ t.used = used) ↔
      LeadsTo (base.tieAll (allTies base placed)) (declaredLinks (·.generalizations) placed)
        user used := by
  have hgrows := Graph.grows_tieAll base (allTies base placed)
  simp only [LeadsTo, find?_of_grows hgrows]
  constructor
  · rintro ⟨t, ht, rfl, rfl⟩
    cases t with
    | parent child above =>
        rcases List.mem_append.mp ht with hparent | hassociation
        · obtain ⟨declared, hdeclared, _, _, hparent, hchild, heq⟩ := mem_parentTies_iff.mp hparent
          cases heq
          exact .inl ⟨declared, hdeclared, hchild, hparent⟩
        · obtain ⟨_, _, _, _, -, -, hlink⟩ := exists_association hassociation
          obtain ⟨_, _, heq, -, -⟩ := exists_side hlink
          cases heq
    | property holder target added =>
        have hholder : holder < base.classes.length := (allTies_lt hscopes _ ht).1
        exact .inr ⟨added, (Graph.mem_properties_tieAll hholder).mpr (.inr ⟨target, ht⟩),
          (linked_of_mem_allTies ht).2⟩
  · rintro (⟨declared, hdeclared, hchild, hparent⟩ | ⟨property, hproperty, hlinked⟩)
    · refine ⟨.parent user used, List.mem_append_left _ ?_, rfl, rfl⟩
      exact mem_parentTies_iff.mpr ⟨declared, hdeclared, used, user, hparent, hchild, rfl⟩
    · have huser : user < base.classes.length :=
        hgrows.size ▸ Graph.lt_of_mem_properties hproperty
      rcases (Graph.mem_properties_tieAll huser).mp hproperty with hdeclared | ⟨target, ht⟩
      · rw [hvalues user property hdeclared] at hlinked
        cases hlinked
      · have htarget := (linked_of_mem_allTies ht).2
        rw [hlinked] at htarget
        cases htarget
        exact ⟨_, ht, rfl, rfl⟩

/-- A namespace depends on another one exactly if one of its classes is led there.
`Graph.mem_uses_tieAll` says so of ties, and `exists_tie_iff` of what ties come from. -/
theorem uses_of_run {suffixes : Naming.Suffixes} {shared : List Domain} {documents : List Document}
    {final : Assembly} (hrun : run suffixes shared documents = .ok final) (n : NamespaceId)
    (name : String) :
    name ∈ (final.graph.namespaceAt n).uses ↔
      ∃ m, m ≠ n ∧ (final.graph.namespaceAt m).name = name ∧
        ∃ user ∈ (final.graph.namespaceAt n).classes, ∃ used ∈ (final.graph.namespaceAt m).classes,
          LeadsTo final.graph
            (declaredLinks (·.generalizations) (withClasses suffixes shared documents).2)
            user used := by
  have hgrows := grows_of_run hrun
  have hformed := wellFormed_of_run hrun
  have hempty := uses_withClasses suffixes shared documents n
  obtain ⟨hlaid, hscopes⟩ := laid_withClasses suffixes shared documents
  have hties := exists_tie_iff hscopes fun id => (no_links hlaid.classes id).2
  have hgraph := congrArg Assembly.graph (run_eq_ok_iff_known.mp hrun).2
  have hname (m : NamespaceId) : (final.graph.namespaceAt m).name =
      ((withClasses suffixes shared documents).1.graph.namespaceAt m).name := by
    rw [hgrows.namespaceAt]
  simp only [hformed.mem_classes_iff, hgrows.home, hgrows.size, hname]
  simp only [hgraph, ← hties]
  by_cases hn : n < (withClasses suffixes shared documents).1.graph.namespaces.length
  · rw [Graph.mem_uses_tieAll hn, hempty]
    constructor
    · rintro (hnone | ⟨t, ht, huser, hused, rfl⟩)
      · exact absurd hnone List.not_mem_nil
      · obtain ⟨hlt, husedLt⟩ := allTies_lt hscopes t ht
        exact ⟨_, hused, rfl, t.user, ⟨hlt, huser⟩, t.used, ⟨husedLt, rfl⟩, t, ht, rfl, rfl⟩
    · rintro ⟨m, hm, rfl, user, ⟨-, rfl⟩, used, ⟨-, rfl⟩, t, ht, rfl, rfl⟩
      exact .inr ⟨t, ht, rfl, hm, rfl⟩
  · -- There is no such namespace, and no class in it.
    have hbeyond := Nat.le_of_not_lt hn
    rw [Graph.namespaceAt_eq_default
      ((Graph.grows_tieAll ..).namespaceCount.symm ▸ hbeyond)]
    constructor
    · intro hnone
      exact absurd hnone List.not_mem_nil
    · rintro ⟨_, -, -, user, ⟨hlt, rfl⟩, -⟩
      exact absurd (hlaid.wellFormed.home_lt hlt) hn

end Assembly

/-! ## Reading -/

/-- The dependencies of a namespace are exact: they are the names of the other namespaces that have
a class which a class of the namespace extends, according to some generalization of some document,
or which it refers to, lists or owns. -/
theorem uses_of_read {suffixes : Naming.Suffixes} {shared : List Domain} {sources : List Source}
    {graph : Graph} {found : List Diagnostic}
    (h : read suffixes shared sources = .ok (graph, found)) :
    ∃ documents,
      List.Forall₂ (fun source document => source.document = .ok document) sources documents ∧
      ∀ n name, name ∈ (graph.namespaceAt n).uses ↔
        ∃ m, m ≠ n ∧ (graph.namespaceAt m).name = name ∧
          ∃ user ∈ (graph.namespaceAt n).classes, ∃ used ∈ (graph.namespaceAt m).classes,
            Assembly.LeadsTo graph (Assembly.declaredLinks (·.generalizations)
              (Assembly.withClasses suffixes shared documents).2) user used := by
  obtain ⟨documents, hsources, hrun⟩ := read_eq_ok h
  exact ⟨documents, hsources, Assembly.uses_of_run hrun⟩

theorem uses_of_read_depot :
    ∃ graph found, read .standard [] [sample, depot] = .ok (graph, found) ∧
      (∃ documents,
        List.Forall₂ (fun source document => source.document = .ok document) [sample, depot]
          documents ∧
        ∀ n name, name ∈ (graph.namespaceAt n).uses ↔
          ∃ m, m ≠ n ∧ (graph.namespaceAt m).name = name ∧
            ∃ user ∈ (graph.namespaceAt n).classes, ∃ used ∈ (graph.namespaceAt m).classes,
              Assembly.LeadsTo graph (Assembly.declaredLinks (·.generalizations)
                (Assembly.withClasses .standard [] documents).2) user used) ∧
      graph.namespaces.map (·.name) = ["Stock", "Storage"] ∧
      graph.namespaces.map (·.uses.names) = [[], ["Stock"]] := by
  obtain ⟨graph, found, hread, hspaces⟩ := exists_read_depot []
    (P := fun graph _ => graph.namespaces.map (·.name) == ["Stock", "Storage"] &&
      graph.namespaces.map (·.uses.names) == [[], ["Stock"]])
    (by decide +kernel)
  simp only [Bool.and_eq_true, beq_iff_eq] at hspaces
  exact ⟨graph, found, hread, uses_of_read hread, hspaces⟩

end ModelSchema.Reading
