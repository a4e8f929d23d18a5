import ModelSchema.Proofs.Graph.Ties
import ModelSchema.Proofs.Reading.Accounting

/-!
# What a run amounts to

What an association leads to depends on the classes at its ends as they were declared, for no link
changes what associations read of a class (`Graph.Class.Alike`). So all links of a run can be read
off the layout at once: `parentTies` are those of the generalizations and `associationEffects` those
of the associations. A run succeeds if all links lead to known classes, and then it has put in just
these links, in order (`run_eq_ok_iff_known`).
-/

namespace ModelSchema.Reading

open ModelSchema.Graph (Domain Property Tie)

namespace Effect

def tie? : Effect → Option Tie
  | .property holder target added => some (.property holder target added)
  | .mistake _ => none

/-- What `Fits` says of the tie of an effect. -/
theorem Fits.exists_side {link : Assembly.Link} {graph : Graph} {effect : Effect} {t : Tie}
    (h : effect.Fits link graph) (ht : effect.tie? = some t) :
    ∃ side added, t = .property (link.classAt side) (link.classAt side.other) added ∧
      added.kind.linked? = some (link.classAt side.other) ∧ added.isPrimaryKey = false := by
  cases effect with
  | mistake diagnostic => cases ht
  | property holder target added =>
      cases ht
      obtain ⟨side, rfl, rfl, hderived⟩ := h
      exact ⟨side, added, rfl, hderived.linked, hderived.notKey⟩

/-- An effect with its classes renamed. Renaming is by any function on positions; a permutation of
documents gives one. -/
def relink (f : ClassId → ClassId) : Effect → Effect
  | .property holder target added => .property (f holder) (f target) (added.relink f)
  | .mistake diagnostic => .mistake diagnostic

@[simp] theorem relink_id (effect : Effect) : effect.relink id = effect := by
  cases effect <;> simp [relink]

/-- Effects that follow each other put their ties in and note their mistakes. -/
theorem foldl_apply (effects : List Effect) (assembly : Assembly) :
    effects.foldl apply assembly =
      ⟨assembly.graph.tieAll (effects.filterMap tie?),
        assembly.diagnostics ++ effects.filterMap mistake?⟩ := by
  induction effects generalizing assembly with
  | nil => simp [Graph.tieAll]
  | cons effect rest ih =>
      rw [List.foldl_cons, ih]
      cases effect with
      | property holder target added => rfl
      | mistake diagnostic =>
          show Assembly.mk _ ((assembly.diagnostics ++ [diagnostic]) ++ rest.filterMap mistake?) = _
          rw [List.append_assoc]
          rfl

end Effect

namespace Assembly

/-! ## One association

From the layout, an association gives a list of effects. Which ties are among them is read off the
definition. -/

/-- The effects of an association, a mistake in its code first. All of them are computed from one
graph; that a run computes them one by one makes no difference (`addLink_eq_foldl`). -/
def linkEffects (graph : Graph) (link : Link) (association : Outline.Association) : List Effect :=
  (codeMistake? link.file association).toList.map .mistake ++
    match Multiplicity.parse? association.a.multiplicity,
      Multiplicity.parse? association.b.multiplicity with
    | some a, some b =>
      (Association.resolve (participant graph link.a a) (participant graph link.b b)
        association.owner).map (effectOf graph link)
    | _, _ => [.mistake (multiplicityMistake graph link association)]

/-- An effect of an association is a mistake in its code or in its multiplicities, or comes from one
of its resolutions. -/
theorem mem_linkEffects {graph : Graph} {link : Link} {association : Outline.Association}
    {effect : Effect} (h : effect ∈ linkEffects graph link association) :
    (∃ diagnostic, codeMistake? link.file association = some diagnostic ∧
        effect = .mistake diagnostic) ∨
      effect = .mistake (multiplicityMistake graph link association) ∨
      ∃ a b, ∃ resolution ∈ Association.resolve (participant graph link.a a)
          (participant graph link.b b) association.owner,
        effect = effectOf graph link resolution := by
  rcases List.mem_append.mp h with hcode | heffect
  · obtain ⟨diagnostic, hmistake, rfl⟩ := List.mem_map.mp hcode
    exact .inl ⟨diagnostic, Option.mem_toList.mp hmistake, rfl⟩
  · split at heffect
    · next a b _ _ =>
      obtain ⟨resolution, hresolution, rfl⟩ := List.mem_map.mp heffect
      exact .inr (.inr ⟨a, b, resolution, hresolution, rfl⟩)
    · exact .inr (.inl (List.mem_singleton.mp heffect))

/-- Every tie of an association comes from one of its resolutions. -/
theorem exists_resolution {graph : Graph} {link : Link} {association : Outline.Association}
    {t : Tie} (h : t ∈ (linkEffects graph link association).filterMap Effect.tie?) :
    ∃ a b, ∃ resolution ∈ Association.resolve (participant graph link.a a)
        (participant graph link.b b) association.owner,
      (effectOf graph link resolution).tie? = some t := by
  obtain ⟨effect, heffect, ht⟩ := List.mem_filterMap.mp h
  rcases mem_linkEffects heffect with ⟨_, -, rfl⟩ | rfl | ⟨a, b, resolution, hresolution, rfl⟩
  · cases ht
  · cases ht
  · exact ⟨a, b, resolution, hresolution, ht⟩

/-- The ties of an association add a property to one end that is linked to the other end, and is no
key. -/
theorem exists_side {graph : Graph} {link : Link} {association : Outline.Association} {t : Tie}
    (h : t ∈ (linkEffects graph link association).filterMap Effect.tie?) :
    ∃ side added, t = .property (link.classAt side) (link.classAt side.other) added ∧
      added.kind.linked? = some (link.classAt side.other) ∧ added.isPrimaryKey = false := by
  obtain ⟨_, _, resolution, -, heffect⟩ := exists_resolution h
  exact (fits_effectOf graph link resolution).exists_side heffect

/-- No association adds a key, so no tie changes what later associations read. -/
theorem keyless_linkEffects {graph : Graph} {link : Link} {association : Outline.Association} :
    ∀ t ∈ (linkEffects graph link association).filterMap Effect.tie?, t.Keyless := by
  intro t ht
  obtain ⟨_, added, rfl, -, hkey⟩ := exists_side ht
  exact hkey

/-! ## Renaming

If the classes stand in another order, the same association has the same effects with the classes
renamed. -/

def Link.relink (f : ClassId → ClassId) (link : Link) : Link :=
  { link with a := f link.a, b := f link.b }

@[simp] theorem Link.classAt_relink (f : ClassId → ClassId) (link : Link) (side : Side) :
    (link.relink f).classAt side = f (link.classAt side) := by
  cases side <;> rfl

@[simp] theorem Link.roleAt_relink (f : ClassId → ClassId) (link : Link) (side : Side) :
    (link.relink f).roleAt side = link.roleAt side := by
  cases side <;> rfl

section Relink

variable {before after : Graph} {f : ClassId → ClassId} (link : Link)

/-- Between classes that look alike, a resolution has the same effect. `Alike` has all that
associations read of a class. -/
theorem effectOf_relink
    (h : ∀ side, (before.classAt (link.classAt side)).Alike
      (after.classAt (f (link.classAt side)))) (resolution : Association.Resolution) :
    effectOf after (link.relink f) resolution = (effectOf before link resolution).relink f := by
  cases resolution with
  | foreignKey holder isRequired =>
      simp only [effectOf, Link.classAt_relink, Link.roleAt_relink, (h holder.other).primaryKey]
      split
      · next key _ =>
        simp only [Effect.relink, Property.relink, foreignKeyOf, (h holder).trigram,
          (h holder).isPersistent, (h holder.other).name, Graph.Kind.relink]
      · simp only [Effect.relink, keylessMistake, (h holder).name, (h holder.other).name]
        rfl
  | foreignKeyList holder isPersistent =>
      simp only [effectOf, Link.classAt_relink, Link.roleAt_relink, Effect.relink, Property.relink,
        referenceListOf, (h holder.other).primaryKey, (h holder.other).name, Graph.Kind.relink]
  | composedChild owner isCollection =>
      simp only [effectOf, Link.classAt_relink, Link.roleAt_relink, Effect.relink, Property.relink,
        childOf, (h owner.other).name, Graph.Kind.relink]
  | rejected holder reason =>
      cases reason <;>
        simp only [effectOf, Link.classAt_relink, Effect.relink, rejectionMistake, (h holder).name,
          (h holder.other).name] <;> rfl

/-- From resolutions to whole associations. -/
theorem linkEffects_relink
    (h : ∀ side, (before.classAt (link.classAt side)).Alike
      (after.classAt (f (link.classAt side)))) (association : Outline.Association) :
    linkEffects after (link.relink f) association =
      (linkEffects before link association).map (·.relink f) := by
  have ha : (before.classAt link.a).Alike (after.classAt (f link.a)) := h .a
  have hb : (before.classAt link.b).Alike (after.classAt (f link.b)) := h .b
  have hparticipant (id : ClassId) (halike : (before.classAt id).Alike (after.classAt (f id)))
      (multiplicity : Multiplicity) :
      participant after (f id) multiplicity = participant before id multiplicity := by
    simp only [participant, halike.stereotype, halike.isPersistent]
  simp only [linkEffects, List.map_append, List.map_map]
  congr 1
  split
  · simp only [Link.relink, hparticipant _ ha, hparticipant _ hb, List.map_map]
    exact List.map_congr_left fun resolution _ => effectOf_relink link h resolution
  · simp only [Link.relink, multiplicityMistake, ha.name, hb.name, List.map_cons, List.map_nil,
      Effect.relink]

end Relink

/-! ## Whole runs -/

/-- The layout and a graph in the middle of the links: its classes look as they were declared. The
invariant of both passes over links. -/
structure Resembles (before after : Graph) : Prop where
  size : after.classes.length = before.classes.length
  alike : ∀ id, (before.classAt id).Alike (after.classAt id)

namespace Resembles

theorem refl (graph : Graph) : Resembles graph graph :=
  ⟨rfl, fun _ => .refl _⟩

/-- Ties without keys keep the resemblance. -/
theorem tieAll {before after : Graph} (h : Resembles before after) {ties : List Tie}
    (hties : ∀ t ∈ ties, t.Keyless) : Resembles before (after.tieAll ties) where
  size := (Graph.grows_tieAll after ties).size.trans h.size
  alike id := (h.alike id).trans (Graph.alike_tieAll after hties id)

/-- Identifiers and names lead to the same classes. -/
theorem find? {before after : Graph} (h : Resembles before after) (scope : Scope)
    (reference : String) :
    Assembly.find? after scope reference = Assembly.find? before scope reference := by
  have hnames := Graph.map_classes_eq (·.name) h.size fun id => (h.alike id).name
  simp only [Assembly.find?, Graph.classNamed?_congr hnames]

theorem linkEffects {before after : Graph} (h : Resembles before after) (link : Link)
    (association : Outline.Association) :
    linkEffects after link association = Assembly.linkEffects before link association := by
  have hrelink := linkEffects_relink (f := id) link (fun side => h.alike _) association
  simpa [Link.relink] using hrelink

end Resembles

/-- The two directions of an association are put into effect one after the other, but the first does
not change what the second reads. -/
theorem addLink_eq_foldl (assembly : Assembly) (link : Link) (association : Outline.Association) :
    assembly.addLink link association =
      (linkEffects assembly.graph link association).foldl Effect.apply assembly := by
  -- The effects are those of the graph before the first of them: later ones read the same of it.
  have hfold (resolutions : List Association.Resolution) (current : Assembly)
      (h : Resembles assembly.graph current.graph) :
      resolutions.foldl (apply link) current =
        (resolutions.map (effectOf assembly.graph link)).foldl Effect.apply current := by
    induction resolutions generalizing current with
    | nil => rfl
    | cons resolution rest ih =>
        have heffect : effectOf current.graph link resolution =
            effectOf assembly.graph link resolution := by
          have hrelink := effectOf_relink (f := id) link (fun side => h.alike _) resolution
          simpa [Link.relink] using hrelink
        rw [List.foldl_cons, List.map_cons, List.foldl_cons, apply_eq, heffect]
        apply ih
        have happly := Effect.foldl_apply [effectOf assembly.graph link resolution] current
        rw [List.foldl_cons, List.foldl_nil] at happly
        rw [happly]
        refine h.tieAll fun t ht => ?_
        obtain ⟨_, added, rfl, -, hkey⟩ :=
          (fits_effectOf assembly.graph link resolution).exists_side (by simpa using ht)
        exact hkey
  have hcode : ((codeMistake? link.file association).toList.map Effect.mistake).foldl Effect.apply
      assembly = assembly.noteCode link association := by
    rw [noteCode]
    cases codeMistake? link.file association <;> simp [Effect.apply, note]
  rw [addLink_eq, linkEffects, List.foldl_append, hcode]
  cases Multiplicity.parse? association.a.multiplicity with
  | none => rfl
  | some a =>
      cases Multiplicity.parse? association.b.multiplicity with
      | none => rfl
      | some b => exact hfold _ (assembly.noteCode link association) (.refl assembly.graph)

/-- The link of a generalization, if it leads to known classes. -/
def tieOf? (graph : Graph) (declared : Declared Outline.Generalization) : Option Tie :=
  match find? graph declared.scope declared.link.parent,
    find? graph declared.scope declared.link.child with
  | some parent, some child => some (.parent child parent)
  | _, _ => none

/-- The effects of an association, if it leads to known classes. -/
def effectsOf? (graph : Graph) (declared : Declared Outline.Association) : Option (List Effect) :=
  match find? graph declared.scope declared.link.a.classId,
    find? graph declared.scope declared.link.b.classId with
  | some a, some b =>
    some (linkEffects graph (linkOf declared.document declared.link a b) declared.link)
  | _, _ => none

def parentTies (graph : Graph) (placed : List (Document × Scope)) : List Tie :=
  (declaredLinks (·.generalizations) placed).filterMap (tieOf? graph)

/-- The effects of the associations of all documents. -/
def associationEffects (graph : Graph) (placed : List (Document × Scope)) : List Effect :=
  ((declaredLinks (·.associations) placed).filterMap (effectsOf? graph)).flatten

/-- All links lead to known classes. -/
structure Known (graph : Graph) (placed : List (Document × Scope)) : Prop where
  generalizations : ∀ declared ∈ declaredLinks (·.generalizations) placed,
    (tieOf? graph declared).isSome
  associations : ∀ declared ∈ declaredLinks (·.associations) placed,
    (effectsOf? graph declared).isSome

def allTies (graph : Graph) (placed : List (Document × Scope)) : List Tie :=
  parentTies graph placed ++ (associationEffects graph placed).filterMap Effect.tie?

/-- Every effect of the associations comes from one of them. -/
theorem mem_associationEffects {graph : Graph} {placed : List (Document × Scope)} {effect : Effect}
    (h : effect ∈ associationEffects graph placed) :
    ∃ declared ∈ declaredLinks (·.associations) placed, ∃ a b,
      find? graph declared.scope declared.link.a.classId = some a ∧
      find? graph declared.scope declared.link.b.classId = some b ∧
      effect ∈ linkEffects graph (linkOf declared.document declared.link a b) declared.link := by
  obtain ⟨effects, heffects, hmem⟩ := List.mem_flatten.mp h
  obtain ⟨declared, hdeclared, heq⟩ := List.mem_filterMap.mp heffects
  rw [effectsOf?] at heq
  split at heq
  · next a b ha hb =>
    cases heq
    exact ⟨declared, hdeclared, a, b, ha, hb, hmem⟩
  · cases heq

/-- Every tie of the associations comes from one of them. -/
theorem exists_association {graph : Graph} {placed : List (Document × Scope)} {t : Tie}
    (h : t ∈ (associationEffects graph placed).filterMap Effect.tie?) :
    ∃ declared ∈ declaredLinks (·.associations) placed, ∃ a b,
      find? graph declared.scope declared.link.a.classId = some a ∧
      find? graph declared.scope declared.link.b.classId = some b ∧
      t ∈ (linkEffects graph (linkOf declared.document declared.link a b)
        declared.link).filterMap Effect.tie? := by
  obtain ⟨effect, heffect, ht⟩ := List.mem_filterMap.mp h
  obtain ⟨declared, hdeclared, a, b, ha, hb, hmem⟩ := mem_associationEffects heffect
  exact ⟨declared, hdeclared, a, b, ha, hb, List.mem_filterMap.mpr ⟨effect, hmem, ht⟩⟩

/-- A tie of a generalization leads from a child that is found to a parent that is found. -/
theorem mem_parentTies_iff {graph : Graph} {placed : List (Document × Scope)} {t : Tie} :
    t ∈ parentTies graph placed ↔ ∃ declared ∈ declaredLinks (·.generalizations) placed,
      ∃ parent child, find? graph declared.scope declared.link.parent = some parent ∧
        find? graph declared.scope declared.link.child = some child ∧ t = .parent child parent := by
  rw [parentTies, List.mem_filterMap]
  refine exists_congr fun declared => and_congr_right fun _ => ?_
  rw [tieOf?]
  cases find? graph declared.scope declared.link.parent <;>
    cases find? graph declared.scope declared.link.child <;> simp [eq_comm]

theorem keyless_parentTies {graph : Graph} {placed : List (Document × Scope)} :
    ∀ t ∈ parentTies graph placed, t.Keyless := by
  intro t ht
  obtain ⟨_, -, _, _, -, -, rfl⟩ := mem_parentTies_iff.mp ht
  trivial

/-- A tie that adds a property comes from an association, and leads where the property does. -/
theorem linked_of_mem_allTies {graph : Graph} {placed : List (Document × Scope)}
    {holder target : ClassId} {added : Property}
    (h : .property holder target added ∈ allTies graph placed) :
    .property holder target added ∈ (associationEffects graph placed).filterMap Effect.tie? ∧
      added.kind.linked? = some target := by
  rcases List.mem_append.mp h with hparent | hassociation
  · obtain ⟨_, -, _, _, -, -, heq⟩ := mem_parentTies_iff.mp hparent
    cases heq
  · obtain ⟨_, _, _, _, -, -, hlink⟩ := exists_association hassociation
    obtain ⟨_, _, heq, hlinked, -⟩ := exists_side hlink
    cases heq
    exact ⟨hassociation, hlinked⟩

/-- If identifiers stand for classes of the graph, ties lead from one of these to another. -/
theorem allTies_lt {graph : Graph} {placed : List (Document × Scope)}
    (hscopes : ∀ entry ∈ placed, entry.2.Within graph.classes.length) :
    ∀ t ∈ allTies graph placed,
      t.user < graph.classes.length ∧ t.used < graph.classes.length := by
  intro t ht
  rcases List.mem_append.mp ht with hgeneralization | hassociation
  · obtain ⟨declared, hdeclared, parent, child, hparent, hchild, rfl⟩ :=
      mem_parentTies_iff.mp hgeneralization
    have hwithin := hscopes _ (mem_of_mem_declaredLinks hdeclared)
    exact ⟨find?_lt hwithin hchild, find?_lt hwithin hparent⟩
  · obtain ⟨declared, hdeclared, a, b, ha, hb, hlink⟩ := exists_association hassociation
    have hwithin := hscopes _ (mem_of_mem_declaredLinks hdeclared)
    obtain ⟨side, added, rfl, -, -⟩ := exists_side hlink
    have hends (side : Side) : (linkOf declared.document declared.link a b).classAt side <
        graph.classes.length := by
      cases side with
      | a => exact find?_lt hwithin ha
      | b => exact find?_lt hwithin hb
    exact ⟨hends side, hends side.other⟩

/-- Parents are no properties, and properties of associations are no keys. -/
theorem keyless_allTies {graph : Graph} {placed : List (Document × Scope)} :
    ∀ t ∈ allTies graph placed, t.Keyless := by
  intro t ht
  rcases List.mem_append.mp ht with hparent | hproperty
  · exact keyless_parentTies t hparent
  · obtain ⟨_, _, _, _, -, -, hlink⟩ := exists_association hproperty
    exact keyless_linkEffects t hlink

section Run

variable {suffixes : Naming.Suffixes} {shared : List Domain} {documents : List Document}
  {final : Assembly}

/-- The pass over the generalizations puts their links in. It succeeds exactly if each of them leads
to known classes, which depends on the layout alone. -/
theorem foldlM_generalizations (base linked : Assembly) (placed : List (Document × Scope)) :
    (declaredLinks (·.generalizations) placed).foldlM (fun assembly declared =>
        addGeneralization declared.document declared.scope assembly declared.link) base =
        .ok linked ↔
      (∀ declared ∈ declaredLinks (·.generalizations) placed,
        (tieOf? base.graph declared).isSome) ∧
      linked = { base with graph := base.graph.tieAll (parentTies base.graph placed) } := by
  -- What a generalization ties does not depend on the ties before it.
  have hmeaning (assembly : Assembly) (h : Resembles base.graph assembly.graph)
      (declared : Declared Outline.Generalization) :
      tieOf? assembly.graph declared = tieOf? base.graph declared := by
    simp only [tieOf?, h.find?]
  have hfold (ties : List Tie) (assembly : Assembly) :
      ties.foldl (fun assembly t => { assembly with graph := assembly.graph.tie t }) assembly =
        { assembly with graph := assembly.graph.tieAll ties } := by
    induction ties generalizing assembly with
    | nil => rfl
    | cons t rest ih => exact ih _
  rw [foldlM_eq_ok_iff (f := tieOf? base.graph)
    (g := fun assembly t => { assembly with graph := assembly.graph.tie t })
    (P := fun assembly => Resembles base.graph assembly.graph) ?_ ?_ ?_ (.refl _), hfold]
  · rfl
  · intro assembly declared t h ht
    rw [← hmeaning assembly h, tieOf?] at ht
    split at ht
    · next parent child hparent hchild =>
      cases ht
      simp only [addGeneralization, hparent, hchild]
      rfl
    · cases ht
  · intro assembly declared next h hnone heq
    obtain ⟨parent, child, hparent, hchild, -⟩ := addGeneralization_eq_ok heq
    rw [← hmeaning assembly h, tieOf?, hparent, hchild] at hnone
    cases hnone
  · intro assembly declared t h ht
    show Resembles base.graph (assembly.graph.tieAll [t])
    refine h.tieAll fun other hother => ?_
    rw [List.mem_singleton.mp hother]
    rw [tieOf?] at ht
    split at ht <;> cases ht
    trivial

/-- The pass over the associations puts their effects into effect. -/
theorem foldlM_associations {base : Graph} {linked : Assembly}
    (hlinked : Resembles base linked.graph) (placed : List (Document × Scope)) :
    (declaredLinks (·.associations) placed).foldlM (fun assembly declared =>
        addAssociation declared.document declared.scope assembly declared.link) linked =
        .ok final ↔
      (∀ declared ∈ declaredLinks (·.associations) placed, (effectsOf? base declared).isSome) ∧
      final = (associationEffects base placed).foldl Effect.apply linked := by
  have hmeaning (assembly : Assembly) (h : Resembles base assembly.graph)
      (declared : Declared Outline.Association) :
      effectsOf? assembly.graph declared = effectsOf? base declared := by
    simp only [effectsOf?, h.find?, h.linkEffects]
  rw [foldlM_eq_ok_iff (f := effectsOf? base)
    (g := fun assembly effects => effects.foldl Effect.apply assembly)
    (P := fun assembly => Resembles base assembly.graph) ?_ ?_ ?_ hlinked, associationEffects,
    List.foldl_flatten]
  · intro assembly declared effects h heffects
    rw [← hmeaning assembly h, effectsOf?] at heffects
    split at heffects
    · next a b ha hb =>
      cases heffects
      simp only [addAssociation, ha, hb]
      exact congrArg Except.ok (addLink_eq_foldl ..)
    · cases heffects
  · intro assembly declared next h hnone heq
    obtain ⟨a, b, ha, hb, -⟩ := addAssociation_eq_ok heq
    rw [← hmeaning assembly h, effectsOf?, ha, hb] at hnone
    cases hnone
  · intro assembly declared effects h heffects
    rw [Effect.foldl_apply]
    refine h.tieAll fun t ht => ?_
    rw [effectsOf?] at heffects
    split at heffects <;> cases heffects
    exact keyless_linkEffects t ht

/-- A run succeeds if all links lead to known classes. Then it has put in the links of all
documents, in order, and noted the mistakes of the associations after those of the classes. Here the
four passes end, and what is left are lists. -/
theorem run_eq_ok_iff_known :
    run suffixes shared documents = .ok final ↔
      Known (withClasses suffixes shared documents).1.graph
          (withClasses suffixes shared documents).2 ∧
        final =
          ⟨(withClasses suffixes shared documents).1.graph.tieAll
              (allTies (withClasses suffixes shared documents).1.graph
                (withClasses suffixes shared documents).2),
            (withClasses suffixes shared documents).1.diagnostics ++
              (associationEffects (withClasses suffixes shared documents).1.graph
                (withClasses suffixes shared documents).2).filterMap Effect.mistake?⟩ := by
  rw [run_eq_ok_iff]
  generalize withClasses suffixes shared documents = laid
  obtain ⟨base, placed⟩ := laid
  have hlinked : Resembles base.graph (base.graph.tieAll (parentTies base.graph placed)) :=
    (Resembles.refl base.graph).tieAll keyless_parentTies
  constructor
  · rintro ⟨linked, hgeneralizations, hassociations⟩
    obtain ⟨hparents, rfl⟩ := (foldlM_generalizations ..).mp hgeneralizations
    obtain ⟨hends, rfl⟩ := (foldlM_associations hlinked placed).mp hassociations
    refine ⟨⟨hparents, hends⟩, ?_⟩
    rw [Effect.foldl_apply, allTies, Graph.tieAll_append]
  · rintro ⟨hknown, rfl⟩
    refine ⟨_, (foldlM_generalizations ..).mpr ⟨hknown.generalizations, rfl⟩, ?_⟩
    refine (foldlM_associations hlinked placed).mpr ⟨hknown.associations, ?_⟩
    rw [Effect.foldl_apply, allTies, Graph.tieAll_append]

end Run

end Assembly

end ModelSchema.Reading
