import ModelSchema.Proofs.Catalog
import ModelSchema.Proofs.Graph.Growth

/-!
# Well-formed graphs

Models, namespaces and classes refer to each other by position, and properties refer to domains by
code. `Graph.WellFormed` says that all these references are in step:

* the models list every namespace once, and the namespaces every class once (`exists_visit`);
* every link leads to a class of the graph;
* every domain stands under its code, and models list known domains only.

Links that lead to classes of the graph keep it well-formed (`WellFormed.setParent`,
`WellFormed.addProperty`).
-/

namespace ModelSchema.Graph

/-- The class that a property is linked to, whatever the kind of the link. References, lists of
references and compositions all need their target to exist. -/
def Kind.linked? : Kind → Option ClassId
  | .primitive => none
  | .reference target | .referenceList target | .composition target _ => some target

/-- Going through all positions is going through all namespaces. -/
theorem map_namespaceAt (graph : Graph) :
    (List.range graph.namespaces.length).map graph.namespaceAt = graph.namespaces := by
  refine List.ext_getElem (by simp) fun n _ hn => ?_
  simp [namespaceAt, hn]

/-- The parts of a graph are in step. Whoever indexes `classes` or `namespaces` by a position out of
the graph itself relies on this. -/
structure WellFormed (graph : Graph) : Prop where
  /-- The namespaces of all models, one after the other, are those of the graph. -/
  namespaces : graph.models.flatMap (·.namespaces) = List.range graph.namespaces.length
  /-- The classes of all namespaces, one after the other, are those of the graph. -/
  classes : graph.namespaces.flatMap (·.classes) = List.range graph.classes.length
  /-- A class that a namespace lists is at home there. -/
  home : ∀ n, ∀ id ∈ (graph.namespaceAt n).classes, (graph.classAt id).home = n
  /-- Parents are classes of the graph. -/
  parent : ∀ id parent, (graph.classAt id).parent = some parent → parent < graph.classes.length
  /-- Properties are linked to classes of the graph. -/
  target : ∀ id, ∀ property ∈ (graph.classAt id).properties, ∀ target,
    property.kind.linked? = some target → target < graph.classes.length
  /-- A domain stands under its code. -/
  code : ∀ entry ∈ graph.domains.entries, entry.1 = entry.2.code
  /-- The domains of a model are known. -/
  declared : ∀ model ∈ graph.models, ∀ code ∈ model.domains, graph.domains.contains code = true

namespace WellFormed

/-- Going through the models and their namespaces leads to every class once, in order. The walk of a
check takes this way (`Check.visits`). -/
theorem flatMap_classes {graph : Graph} (h : graph.WellFormed) :
    (graph.models.flatMap fun model => model.namespaces.flatMap fun n =>
      (graph.namespaceAt n).classes) = graph.classIds := by
  rw [← List.flatMap_assoc, h.namespaces, ← List.flatMap_map, map_namespaceAt, h.classes]
  rfl

/-- Every class is listed by a namespace that a model lists: no class is out of reach of a check. -/
theorem exists_visit {graph : Graph} (h : graph.WellFormed) {id : ClassId}
    (hid : id < graph.classes.length) :
    ∃ model ∈ graph.models, ∃ n ∈ model.namespaces, id ∈ (graph.namespaceAt n).classes := by
  have hlisted : id ∈ graph.namespaces.flatMap (·.classes) := by
    rw [h.classes]
    exact List.mem_range.mpr hid
  obtain ⟨found, hfound, hmem⟩ := List.mem_flatMap.mp hlisted
  obtain ⟨n, hn, rfl⟩ := List.getElem_of_mem hfound
  have hposition : n ∈ graph.models.flatMap (·.namespaces) := by
    rw [h.namespaces]
    exact List.mem_range.mpr hn
  obtain ⟨model, hmodel, hlists⟩ := List.mem_flatMap.mp hposition
  refine ⟨model, hmodel, n, hlists, ?_⟩
  simpa [namespaceAt, hn] using hmem

/-- A class that a namespace lists is one of the graph. -/
theorem lt_of_listed {graph : Graph} (h : graph.WellFormed) {n : NamespaceId} {id : ClassId}
    (hid : id ∈ (graph.namespaceAt n).classes) : id < graph.classes.length := by
  by_cases hn : n < graph.namespaces.length
  · have hspace : graph.namespaceAt n ∈ graph.namespaces := by simp [namespaceAt, hn]
    have hlisted := List.mem_flatMap.mpr ⟨_, hspace, hid⟩
    rw [h.classes] at hlisted
    exact List.mem_range.mp hlisted
  · rw [namespaceAt_eq_default (Nat.le_of_not_lt hn)] at hid
    exact absurd hid List.not_mem_nil

/-- A class is listed by its namespace. -/
theorem mem_namespaceOf {graph : Graph} (h : graph.WellFormed) {id : ClassId}
    (hid : id < graph.classes.length) : id ∈ (graph.namespaceOf id).classes := by
  obtain ⟨_, -, n, -, hlisted⟩ := h.exists_visit hid
  rw [namespaceOf, h.home n id hlisted]
  exact hlisted

/-- The classes that a namespace lists are those at home there. So `home` and the lists of the
namespaces are the same relation. -/
theorem mem_classes_iff {graph : Graph} (h : graph.WellFormed) {n : NamespaceId} {id : ClassId} :
    id ∈ (graph.namespaceAt n).classes ↔
      id < graph.classes.length ∧ (graph.classAt id).home = n := by
  constructor
  · intro hid
    exact ⟨h.lt_of_listed hid, h.home n id hid⟩
  · rintro ⟨hid, rfl⟩
    exact h.mem_namespaceOf hid

/-- Without that bound, `namespaceOf` could be the default namespace. -/
theorem home_lt {graph : Graph} (h : graph.WellFormed) {id : ClassId}
    (hid : id < graph.classes.length) : (graph.classAt id).home < graph.namespaces.length := by
  apply Nat.lt_of_not_le
  intro hge
  have hlisted := h.mem_namespaceOf hid
  rw [namespaceOf, namespaceAt_eq_default hge] at hlisted
  exact absurd hlisted List.not_mem_nil

/-- A domain that is found by a code has that code. -/
theorem code_of_get? {graph : Graph} (h : graph.WellFormed) {code : String} {domain : Domain}
    (hget : graph.domains.get? code = some domain) : domain.code = code :=
  (h.code _ (Catalog.mem_entries_of_get? hget)).symm

/-! ## Growth -/

/-- A graph that grows stays well-formed, as long as the new links lead to classes of it. The other
five laws speak of what `Grows` keeps. -/
theorem grow {before after : Graph} (h : before.WellFormed) (hgrows : before.Grows after)
    (parent : ∀ id parent, (after.classAt id).parent = some parent →
      parent < before.classes.length)
    (target : ∀ id, ∀ property ∈ (after.classAt id).properties, ∀ target,
      property.kind.linked? = some target → target < before.classes.length) :
    after.WellFormed where
  namespaces := by
    rw [hgrows.models, hgrows.namespaceCount, h.namespaces]
  classes := by
    have lists (graph : Graph) : graph.namespaces.flatMap (·.classes) =
        (graph.namespaces.map Namespace.withoutUses).flatMap (·.classes) := by
      simp [List.flatMap_map, Namespace.withoutUses]
    rw [lists, hgrows.namespaces, ← lists, hgrows.size, h.classes]
  home n id hid := by
    -- `uses` may differ, but the classes of a namespace are compared by `Grows`.
    have hkept : (after.namespaceAt n).classes = (before.namespaceAt n).classes := by
      have hn := congrArg (·[n]?) hgrows.namespaces
      simp only [List.getElem?_map] at hn
      simp only [namespaceAt, List.getD_eq_getElem?_getD]
      cases hafter : after.namespaces[n]? <;> cases hbefore : before.namespaces[n]? <;>
        simp_all [Namespace.withoutUses]
    obtain ⟨_, _, heq⟩ := hgrows.classes id
    rw [heq]
    exact h.home n id (hkept ▸ hid)
  parent := hgrows.size.symm ▸ parent
  target := hgrows.size.symm ▸ target
  code := hgrows.domains.symm ▸ h.code
  declared := by
    rw [hgrows.models, hgrows.domains]
    exact h.declared

theorem setParent {graph : Graph} (h : graph.WellFormed) (child : ClassId) {parent : ClassId}
    (hparent : parent < graph.classes.length) :
    (graph.modifyClass child fun c => { c with parent := some parent }).WellFormed := by
  refine h.grow (.setParent graph child parent) ?_ ?_
  · intro id other hother
    rw [classAt_modifyClass] at hother
    split at hother
    · cases hother
      exact hparent
    · exact h.parent id other hother
  · intro id property hproperty
    rw [classAt_modifyClass] at hproperty
    exact h.target id property (by split at hproperty <;> exact hproperty)

theorem addProperty {graph : Graph} (h : graph.WellFormed) (holder : ClassId) {property : Property}
    (hproperty : ∀ target, property.kind.linked? = some target → target < graph.classes.length) :
    (graph.addProperty holder property).WellFormed := by
  refine h.grow (.addProperty graph holder property) ?_ ?_
  · intro id parent hparent
    rw [Graph.addProperty, classAt_modifyClass] at hparent
    exact h.parent id parent (by split at hparent <;> exact hparent)
  · intro id other hother
    rw [Graph.addProperty, classAt_modifyClass] at hother
    split at hother
    · rcases List.mem_append.mp hother with hold | hnew
      · exact h.target id other hold
      · cases List.mem_singleton.mp hnew
        exact hproperty
    · exact h.target id other hother

/-- Dependencies are kept by name, so no position has to be checked. -/
theorem addUse {graph : Graph} (h : graph.WellFormed) (user used : ClassId) :
    (graph.addUse user used).WellFormed := by
  refine h.grow (.addUse graph user used) ?_ ?_
  · simpa using h.parent
  · simpa using h.target

end WellFormed

end ModelSchema.Graph
