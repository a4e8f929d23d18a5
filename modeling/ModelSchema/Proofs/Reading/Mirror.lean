import ModelSchema.Proofs.Catalog
import ModelSchema.Proofs.Graph.Matching
import ModelSchema.Proofs.Reading.Links

/-!
# The ends of associations

It does not matter which end of an association is written first (`addAssociation_mirror`). The
resolutions of the mirrored association are those of the association, seen from the other ends and
in another order (`perm_resolve_mirror`), and a resolution has the same effect from either side
(`effectOf_mirror`). Effects on two classes can be put in in any order (`Graph.tieAll_perm`); on one
class, their order is that of the new properties (`Graph.tieAll_loops`).

The exception are associations with many instances at both ends. They give a list to end A only, so
the ends are not alike.
-/

namespace ModelSchema

@[simp] theorem Side.other_other (side : Side) : side.other.other = side := by
  cases side <;> rfl

namespace Outline.Association

/-- The association with its ends exchanged. Its code and its name do not say which end is which. -/
def mirror (association : Association) : Association :=
  { association with
    a := association.b
    b := association.a
    owner := association.owner.map Side.other }

def isManyToMany (association : Association) : Bool :=
  (Multiplicity.parse? association.a.multiplicity).any (·.isMany) &&
    (Multiplicity.parse? association.b.multiplicity).any (·.isMany)

end Outline.Association

/-! ## Resolutions

`Association.resolve` on its own, before there are graphs. -/

namespace Association

namespace Resolution

def holder : Resolution → Side
  | .foreignKey holder _ | .foreignKeyList holder _ | .composedChild holder _
  | .rejected holder _ => holder

/-- A resolution with the ends exchanged. -/
def mirror : Resolution → Resolution
  | .foreignKey holder isRequired => .foreignKey holder.other isRequired
  | .foreignKeyList holder isPersistent => .foreignKeyList holder.other isPersistent
  | .composedChild owner isCollection => .composedChild owner.other isCollection
  | .rejected holder reason => .rejected holder.other reason

end Resolution

/-- Whether a key is required depends on the two ends, not on what they are called. -/
theorem mirror_foreignKey (holder : Side) (holderEnd targetEnd : Participant) :
    (foreignKey holder holderEnd targetEnd).mirror =
      foreignKey holder.other holderEnd targetEnd := by
  rw [foreignKey, foreignKey]
  split <;> rfl

/-- Whether there is a key or a rejection, it is about the end that would hold the key. -/
theorem holder_foreignKey (holder : Side) (holderEnd targetEnd : Participant) :
    (foreignKey holder holderEnd targetEnd).holder = holder := by
  rw [foreignKey]
  split <;> rfl

/-- Unless both ends hold many instances, the ends may be exchanged. `resolve` then treats them
alike, and only the order of two foreign keys tells which one came first. -/
theorem perm_resolve_mirror (a b : Participant) {owner : Option Side}
    (h : owner = none → (a.multiplicity.isMany && b.multiplicity.isMany) = false) :
    (resolve b a (owner.map Side.other)).Perm ((resolve a b owner).map Resolution.mirror) := by
  rcases owner with _ | _ | _
  · have hmany := h rfl
    have hmirrored : (b.multiplicity.isMany && a.multiplicity.isMany) = false := by
      rw [Bool.and_comm, hmany]
    simp only [resolve, Option.map_none, hmany, hmirrored, Bool.false_eq_true, if_false,
      List.append_nil, List.map_append, apply_ite (List.map Resolution.mirror), List.map_cons,
      List.map_nil, mirror_foreignKey]
    exact List.perm_append_comm
  · exact .refl _
  · exact .refl _

/-- No two resolutions are about the same end. -/
theorem nodup_holder_resolve (a b : Participant) (owner : Option Side) :
    ((resolve a b owner).map Resolution.holder).Nodup := by
  rcases owner with _ | _ | _
  · cases ha : a.multiplicity <;> cases hb : b.multiplicity <;>
      simp [resolve, ha, hb, Multiplicity.isSingle, Multiplicity.isMany, holder_foreignKey]
  · exact List.nodup_singleton _
  · exact List.nodup_singleton _

end Association

/-! ## Links in any order

What ties do to a graph, where their order does not matter and where it does. -/

namespace Graph

/-- Add properties at the end of a class, all at once. -/
def addProperties (graph : Graph) (id : ClassId) (added : List Property) : Graph :=
  graph.modifyClass id fun c => { c with properties := c.properties ++ added }

/-- Graphs that have grown from one graph are equal if their classes and dependencies are.
Everything else stays, by `Grows`. -/
theorem Grows.eq_of_grows {before after other : Graph} (hafter : before.Grows after)
    (hother : before.Grows other)
    (hclasses : ∀ id < before.classes.length, after.classAt id = other.classAt id)
    (huses : ∀ n < before.namespaces.length, ∀ name,
      name ∈ (after.namespaceAt n).uses ↔ name ∈ (other.namespaceAt n).uses) : after = other := by
  have hclassList : after.classes = other.classes := by
    refine List.ext_getElem (hafter.size.trans hother.size.symm) fun id hid hid' => ?_
    have heq := hclasses id (hafter.size ▸ hid)
    rw [classAt_eq_get hid, classAt_eq_get hid'] at heq
    exact heq
  have hspaceList : after.namespaces = other.namespaces := by
    refine List.ext_getElem (hafter.namespaceCount.trans hother.namespaceCount.symm)
      fun n hn hn' => ?_
    have heq : after.namespaceAt n = other.namespaceAt n := by
      rw [hafter.namespaceAt, hother.namespaceAt,
        NameSet.ext_mem (huses n (hafter.namespaceCount ▸ hn))]
    simpa [Graph.namespaceAt, hn, hn'] using heq
  have hmodels := hafter.models.trans hother.models.symm
  have hdomains := hafter.domains.trans hother.domains.symm
  cases after
  cases other
  congr

/-- What a class gets from ties to different classes is one thing at most. -/
theorem length_filterMap_le_one {α : Type} {f : Tie → Option α} {ties : List Tie} (id : ClassId)
    (hf : ∀ t value, f t = some value → t.user = id) (h : (ties.map Tie.user).Nodup) :
    (ties.filterMap f).length ≤ 1 := by
  -- Everything that the class gets is from a tie of this class, and it has one at most.
  have hcount : (ties.filterMap f).length ≤ (ties.map Tie.user).count id := by
    clear h
    induction ties with
    | nil => exact Nat.le_refl 0
    | cons t rest ih =>
        rw [List.map_cons, List.count_cons]
        cases hvalue : f t with
        | none =>
            rw [List.filterMap_cons_none hvalue]
            omega
        | some value =>
            rw [List.filterMap_cons_some hvalue, List.length_cons, hf t value hvalue]
            simpa using ih
  exact hcount.trans (List.nodup_iff_count_le_one.mp h id)

/-- Ties that different classes get may be put in in any order. What a class gets is one thing at
most, and dependencies are sets. -/
theorem tieAll_perm (graph : Graph) {ties others : List Tie} (h : others.Perm ties)
    (hnodup : (ties.map Tie.user).Nodup) : graph.tieAll others = graph.tieAll ties := by
  refine (grows_tieAll graph others).eq_of_grows (grows_tieAll graph ties) ?_ ?_
  · intro id hid
    have hparents : others.filterMap (·.parentAt? id) = ties.filterMap (·.parentAt? id) := by
      refine eq_of_perm_of_length_le_one (h.filterMap _)
        (length_filterMap_le_one id ?_ hnodup)
      intro t above habove
      cases t with
      | parent child _ => exact (Option.ite_none_right_eq_some.mp habove).1
      | property holder target added => cases habove
    have hproperties : others.filterMap (·.propertyAt? id) = ties.filterMap (·.propertyAt? id) := by
      refine eq_of_perm_of_length_le_one (h.filterMap _)
        (length_filterMap_le_one id ?_ hnodup)
      intro t value hvalue
      cases t with
      | parent child above => cases hvalue
      | property holder target added => exact (Option.ite_none_right_eq_some.mp hvalue).1
    rw [classAt_tieAll hid, classAt_tieAll hid, hparents, hproperties]
  · intro n hn name
    simp only [mem_uses_tieAll hn, h.mem_iff]

/-- Ties of a class to itself add their properties, and no dependency. -/
theorem tieAll_loops (graph : Graph) (holder : ClassId) (added : List Property) :
    graph.tieAll (added.map (.property holder holder)) = graph.addProperties holder added := by
  induction added generalizing graph with
  | nil =>
      have hsame : (fun c : Class => { c with properties := c.properties ++ [] }) = id := by
        funext c
        rw [List.append_nil]
        rfl
      rw [addProperties, hsame, modifyClass, List.modify_id]
      rfl
  | cons first rest ih =>
      have hfirst : graph.tie (.property holder holder first) = graph.addProperty holder first := by
        simp only [tie, Tie.user, Tie.used, addUse, if_true]
        rfl
      rw [List.map_cons, tieAll_cons, hfirst, ih]
      simp only [addProperties, addProperty, modifyClass, List.modify_modify_eq]
      congr 2
      funext c
      simp

end Graph

/-! ## Effects -/

namespace Reading

open ModelSchema.Graph (Property Tie)

/-- What an effect amounts to, the wording of a mistake left out. That of `multiplicityMistake`
names one end before the other. -/
def Effect.summary : Effect → Tie ⊕ Code
  | .property holder target added => .inl (.property holder target added)
  | .mistake diagnostic => .inr diagnostic.code

/-- Ties and codes of mistakes are both functions of the summaries. So a permutation of summaries
gives one of each. -/
theorem filterMap_tie?_eq (effects : List Effect) :
    effects.filterMap Effect.tie? = (effects.map Effect.summary).filterMap Sum.getLeft? := by
  rw [List.filterMap_map]
  refine List.filterMap_congr fun effect _ => ?_
  cases effect <;> rfl

theorem map_code_mistake?_eq (effects : List Effect) :
    (effects.filterMap Effect.mistake?).map (·.code) =
      (effects.map Effect.summary).filterMap Sum.getRight? := by
  rw [List.map_filterMap, List.filterMap_map]
  refine List.filterMap_congr fun effect _ => ?_
  cases effect <;> rfl

namespace Assembly

def Link.mirror (link : Link) : Link :=
  { link with a := link.b, b := link.a, roleA := link.roleB, roleB := link.roleA }

@[simp] theorem Link.classAt_mirror (link : Link) (side : Side) :
    link.mirror.classAt side = link.classAt side.other := by
  cases side <;> rfl

@[simp] theorem Link.roleAt_mirror (link : Link) (side : Side) :
    link.mirror.roleAt side = link.roleAt side.other := by
  cases side <;> rfl

/-- A resolution has one effect, from whichever end it is seen. Even the wording of a rejection is
about its holder. -/
theorem effectOf_mirror (graph : Graph) (link : Link) (resolution : Association.Resolution) :
    effectOf graph link.mirror resolution.mirror = effectOf graph link resolution := by
  cases resolution with
  | foreignKey holder isRequired =>
      simp only [Association.Resolution.mirror, effectOf, Link.classAt_mirror, Link.roleAt_mirror,
        Side.other_other]
      rfl
  | foreignKeyList holder isPersistent =>
      simp only [Association.Resolution.mirror, effectOf, Link.classAt_mirror, Link.roleAt_mirror,
        Side.other_other]
  | composedChild owner isCollection =>
      simp only [Association.Resolution.mirror, effectOf, Link.classAt_mirror, Link.roleAt_mirror,
        Side.other_other]
  | rejected holder reason =>
      simp only [Association.Resolution.mirror, effectOf, Link.classAt_mirror, Side.other_other]
      cases reason <;> rfl

theorem summary_multiplicityMistake (graph : Graph) (link : Link)
    (association : Outline.Association) :
    (Effect.mistake (multiplicityMistake graph link association)).summary =
      .inr .readInvalidMultiplicity := rfl

/-- An association and its mirror have the same effects up to their order, and up to the wording of
mistakes. -/
theorem perm_linkEffects_mirror (graph : Graph) (link : Link) {association : Outline.Association}
    (h : association.owner.isSome = true ∨ association.isManyToMany = false) :
    ((linkEffects graph link.mirror association.mirror).map Effect.summary).Perm
      ((linkEffects graph link association).map Effect.summary) := by
  rw [linkEffects, linkEffects, List.map_append, List.map_append]
  refine .append (.refl _) ?_
  simp only [Outline.Association.mirror]
  cases ha : Multiplicity.parse? association.a.multiplicity with
  | none =>
      cases Multiplicity.parse? association.b.multiplicity <;>
        simp only [List.map_cons, List.map_nil, summary_multiplicityMistake, List.Perm.refl]
  | some a =>
      cases hb : Multiplicity.parse? association.b.multiplicity with
      | none => simp only [List.map_cons, List.map_nil, summary_multiplicityMistake, List.Perm.refl]
      | some b =>
          refine .map _ ?_
          have hmany : association.owner = none → (a.isMany && b.isMany) = false := by
            intro hnone
            simpa [hnone, Outline.Association.isManyToMany, ha, hb] using h
          have hresolutions := Association.perm_resolve_mirror (participant graph link.a a)
            (participant graph link.b b) hmany
          have hmirror : effectOf graph link.mirror ∘ Association.Resolution.mirror =
              effectOf graph link := funext (effectOf_mirror graph link)
          have heffects := hresolutions.map (effectOf graph link.mirror)
          rw [List.map_map, hmirror] at heffects
          exact heffects

/-! ## Ties of an association

An association gives each of its ends one property at most, as no two of its resolutions have the
same holder. -/

/-- What an association resolves to; nothing if a multiplicity has no meaning. -/
def resolutions (graph : Graph) (link : Link) (association : Outline.Association) :
    List Association.Resolution :=
  match Multiplicity.parse? association.a.multiplicity,
    Multiplicity.parse? association.b.multiplicity with
  | some a, some b =>
    Association.resolve (participant graph link.a a) (participant graph link.b b) association.owner
  | _, _ => []

/-- Only resolutions give ties. -/
theorem ties_linkEffects (graph : Graph) (link : Link) (association : Outline.Association) :
    (linkEffects graph link association).filterMap Effect.tie? =
      (resolutions graph link association).filterMap fun resolution =>
        (effectOf graph link resolution).tie? := by
  have hcode : ((codeMistake? link.file association).toList.map Effect.mistake).filterMap
      Effect.tie? = [] := by
    cases codeMistake? link.file association <;> rfl
  rw [linkEffects, List.filterMap_append, hcode, List.nil_append, resolutions]
  cases Multiplicity.parse? association.a.multiplicity with
  | none => rfl
  | some a =>
      cases Multiplicity.parse? association.b.multiplicity with
      | none => rfl
      | some b => exact List.filterMap_map

/-- The class that gets the property is the one at the holder of the resolution. -/
theorem user_of_effectOf {graph : Graph} {link : Link} {resolution : Association.Resolution}
    {t : Tie} (h : (effectOf graph link resolution).tie? = some t) :
    t.user = link.classAt resolution.holder := by
  cases resolution with
  | foreignKey holder isRequired =>
      simp only [effectOf] at h
      split at h <;> cases h
      rfl
  | foreignKeyList holder isPersistent =>
      cases h
      rfl
  | composedChild owner isCollection =>
      cases h
      rfl
  | rejected holder reason => cases h

/-- What is found of some elements only is part of what is said of all. -/
theorem filterMap_sublist_map {α β : Type} {f : α → Option β} {g : α → β}
    (h : ∀ a b, f a = some b → b = g a) (as : List α) : (as.filterMap f).Sublist (as.map g) := by
  induction as with
  | nil => exact .slnil
  | cons a rest ih =>
      cases hvalue : f a with
      | none =>
          rw [List.filterMap_cons_none hvalue]
          exact ih.cons _
      | some b =>
          rw [List.filterMap_cons_some hvalue, h a b hvalue]
          exact ih.cons_cons _

/-- An association between two classes adds one property to each at most. -/
theorem nodup_user_linkEffects (graph : Graph) {link : Link} (hends : link.a ≠ link.b)
    (association : Outline.Association) :
    (((linkEffects graph link association).filterMap Effect.tie?).map Tie.user).Nodup := by
  have hinjective : Function.Injective link.classAt := by
    intro side other heq
    cases side <;> cases other
    · rfl
    · exact absurd heq hends
    · exact absurd heq.symm hends
    · rfl
  have hholders :
      ((resolutions graph link association).map Association.Resolution.holder).Nodup := by
    rw [resolutions]
    split
    · exact Association.nodup_holder_resolve ..
    · exact List.nodup_nil
  have hclasses := hholders.map hinjective
  rw [List.map_map] at hclasses
  rw [ties_linkEffects, List.map_filterMap]
  refine hclasses.sublist (filterMap_sublist_map ?_ _)
  intro resolution user huser
  obtain ⟨t, ht, rfl⟩ := Option.map_eq_some_iff.mp huser
  exact user_of_effectOf ht

/-- An association adds two properties at most. -/
theorem length_ties_le_two (graph : Graph) (link : Link) (association : Outline.Association) :
    ((linkEffects graph link association).filterMap Effect.tie?).length ≤ 2 := by
  rw [ties_linkEffects]
  refine (List.length_filterMap_le ..).trans ?_
  rw [resolutions]
  split
  · rw [length_resolve]
    split <;> decide
  · exact Nat.zero_le 2

/-- The ties of an association of a class with itself lead from the class to itself. -/
theorem ties_of_loop (graph : Graph) {link : Link} (hends : link.a = link.b)
    (association : Outline.Association) :
    (linkEffects graph link association).filterMap Effect.tie? =
      (((linkEffects graph link association).filterMap Effect.tie?).filterMap
        (·.propertyAt? link.a)).map (.property link.a link.a) := by
  have hclass (side : Side) : link.classAt side = link.a := by
    cases side with
    | a => rfl
    | b => exact hends.symm
  rw [List.map_filterMap]
  refine (List.filterMap_some ..).symm.trans (List.filterMap_congr fun t ht => ?_)
  obtain ⟨side, added, rfl, -, -⟩ := exists_side ht
  rw [hclass, hclass]
  simp [Tie.propertyAt?]

/-! ## Associations -/

/-- Two ways to go on from an assembly, by an association between two classes and by its mirror. -/
structure Interchanged (assembly : Assembly) (a b : ClassId) (next other : Assembly) : Prop where
  /-- Between two classes there is no difference. -/
  distinct : a ≠ b → other.graph = next.graph
  /-- Within one class, the new properties may come in another order. -/
  loop : a = b → ∃ added swapped : List Property, added.length ≤ 2 ∧ swapped.Perm added ∧
    next.graph = assembly.graph.addProperties a added ∧
    other.graph = assembly.graph.addProperties a swapped
  /-- The same kinds of mistakes are noted. -/
  mistakes : ∃ noted mirrored : List Diagnostic,
    next.diagnostics = assembly.diagnostics ++ noted ∧
    other.diagnostics = assembly.diagnostics ++ mirrored ∧
    (mirrored.map (·.code)).Perm (noted.map (·.code))

/-- `addLink` as one list of ties and one of mistakes, by `addLink_eq_foldl` and
`Effect.foldl_apply`. -/
theorem addLink_eq_tieAll (assembly : Assembly) (link : Link) (association : Outline.Association) :
    assembly.addLink link association =
      ⟨assembly.graph.tieAll ((linkEffects assembly.graph link association).filterMap Effect.tie?),
        assembly.diagnostics ++
          (linkEffects assembly.graph link association).filterMap Effect.mistake?⟩ := by
  rw [addLink_eq_foldl, Effect.foldl_apply]

/-- Two classes: `tieAll_perm`. One class: `tieAll_loops` on both sides. -/
theorem interchanged_addLink (assembly : Assembly) (link : Link)
    {association : Outline.Association}
    (h : association.owner.isSome = true ∨ association.isManyToMany = false) :
    Interchanged assembly link.a link.b (assembly.addLink link association)
      (assembly.addLink link.mirror association.mirror) := by
  have hsummary := perm_linkEffects_mirror assembly.graph link h
  have hties := hsummary.filterMap Sum.getLeft?
  rw [← filterMap_tie?_eq, ← filterMap_tie?_eq] at hties
  rw [addLink_eq_tieAll, addLink_eq_tieAll]
  refine ⟨fun hends => ?_, fun hends => ?_, ?_⟩
  · exact Graph.tieAll_perm _ hties (nodup_user_linkEffects _ hends association)
  · have hmirrored : link.mirror.a = link.mirror.b := hends.symm
    have hother := ties_of_loop assembly.graph hmirrored association.mirror
    rw [show link.mirror.a = link.a from hends.symm] at hother
    refine ⟨_, _, ?_, hties.filterMap (·.propertyAt? link.a), ?_, ?_⟩
    · exact (List.length_filterMap_le ..).trans (length_ties_le_two ..)
    · rw [← Graph.tieAll_loops, ← ties_of_loop assembly.graph hends association]
    · rw [← Graph.tieAll_loops, ← hother]
  · refine ⟨_, _, rfl, rfl, ?_⟩
    rw [map_code_mistake?_eq, map_code_mistake?_eq]
    exact hsummary.filterMap Sum.getRight?

/-- The ends of an association may be exchanged, unless both hold many instances and neither owns
the other. The mirrored association is put into effect exactly if the association is. The graphs are
equal then, up to the order of the new properties if both ends are one class, and mistakes with the
same codes are noted. -/
theorem addAssociation_mirror (document : Document) (scope : Scope) (assembly : Assembly)
    {association : Outline.Association}
    (h : association.owner.isSome = true ∨ association.isManyToMany = false) :
    ((∃ next, addAssociation document scope assembly association = .ok next) ↔
        ∃ other, addAssociation document scope assembly association.mirror = .ok other) ∧
      ∀ next other, addAssociation document scope assembly association = .ok next →
        addAssociation document scope assembly association.mirror = .ok other →
          ∃ a b, find? assembly.graph scope association.a.classId = some a ∧
            find? assembly.graph scope association.b.classId = some b ∧
            Interchanged assembly a b next other := by
  constructor
  · simp only [addAssociation, Outline.Association.mirror]
    cases find? assembly.graph scope association.a.classId <;>
      cases find? assembly.graph scope association.b.classId <;> simp
  · intro next other hnext hother
    obtain ⟨a, b, ha, hb, rfl⟩ := addAssociation_eq_ok hnext
    obtain ⟨b', a', hb', ha', rfl⟩ := addAssociation_eq_ok hother
    obtain rfl : a = a' := Option.some.inj (ha.symm.trans ha')
    obtain rfl : b = b' := Option.some.inj (hb.symm.trans hb')
    exact ⟨a, b, ha, hb, interchanged_addLink assembly (linkOf document association a b) h⟩

/-- The classes of `sample`, before any link. -/
def sampleBase : Assembly :=
  (withClasses .standard [] [⟨"Shop.oom", sampleOutline⟩]).1

def sampleScope : Scope :=
  ⟨[("y", 1), ("x", 0)], []⟩

/-- An association of the first class of `sample` with itself. -/
def ring : Outline.Association :=
  ⟨"u", some "RING", some "Colors", ⟨"x", "0..1", some "Outer"⟩, ⟨"x", "1..1", some "Inner"⟩, none⟩

theorem addAssociation_mirror_ring :
    ring.isManyToMany = false ∧ ∃ next other,
      addAssociation ⟨"Shop.oom", sampleOutline⟩ sampleScope sampleBase ring = .ok next ∧
      addAssociation ⟨"Shop.oom", sampleOutline⟩ sampleScope sampleBase ring.mirror = .ok other ∧
      (∃ a b, find? sampleBase.graph sampleScope ring.a.classId = some a ∧
        find? sampleBase.graph sampleScope ring.b.classId = some b ∧
        Interchanged sampleBase a b next other) ∧
      (next.graph.classAt 0).properties.map (·.name) =
        ["ColorId", "InnerColorId", "OuterColorId"] ∧
      (other.graph.classAt 0).properties.map (·.name) =
        ["ColorId", "OuterColorId", "InnerColorId"] := by
  have hsingle : ring.isManyToMany = false := by decide +kernel
  obtain ⟨next, hnext, hnames⟩ : ∃ next,
      addAssociation ⟨"Shop.oom", sampleOutline⟩ sampleScope sampleBase ring = .ok next ∧
        ((next.graph.classAt 0).properties.map (·.name) ==
          ["ColorId", "InnerColorId", "OuterColorId"]) = true :=
    exists_ok_of_any (by decide +kernel)
  obtain ⟨other, hother, hotherNames⟩ : ∃ other,
      addAssociation ⟨"Shop.oom", sampleOutline⟩ sampleScope sampleBase ring.mirror = .ok other ∧
        ((other.graph.classAt 0).properties.map (·.name) ==
          ["ColorId", "OuterColorId", "InnerColorId"]) = true :=
    exists_ok_of_any (by decide +kernel)
  exact ⟨hsingle, next, other, hnext, hother,
    (addAssociation_mirror _ _ _ (.inr hsingle)).2 next other hnext hother,
    beq_iff_eq.mp hnames, beq_iff_eq.mp hotherNames⟩

end Assembly

end Reading

end ModelSchema
