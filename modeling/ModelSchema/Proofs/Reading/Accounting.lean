import ModelSchema.Proofs.Reading.Layout

/-!
# Accounting for associations

Every association leads to as many outcomes as its multiplicities and owner say, and an outcome is
one property more or one mistake more. `Assembly.Adds` keeps the books: it says what a list of
effects has added between two moments of a run, property by property and mistake by mistake. Steps
that are no associations add nothing, so the books of a whole run are those of its associations
(`accounts_of_run`).
-/

namespace ModelSchema.Reading

open ModelSchema.Graph (Domain Property)

def isOutcome (diagnostic : Diagnostic) : Bool :=
  diagnostic.code ∈ associationCodes

namespace Effect

/-- The property that an effect adds to the class `id`. Filtering by class keeps the order in which
properties were added. -/
def propertyAt? (id : ClassId) : Effect → Option Property
  | .property holder _ added => if holder = id then some added else none
  | .mistake _ => none

def mistake? : Effect → Option Diagnostic
  | .property _ _ _ => none
  | .mistake diagnostic => some diagnostic

/-- The outcomes that a declared association may have: a property at one of its ends that is linked
to the other end, or a mistake. -/
def IsOutcome (graph : Graph) (declared : Assembly.Declared Outline.Association) : Effect → Prop
  | .property holder target added =>
    let ends := [declared.link.a.classId, declared.link.b.classId].map
      (Assembly.find? graph declared.scope)
    (ends = [some holder, some target] ∨ ends = [some target, some holder]) ∧
      added.kind.linked? = some target
  | .mistake diagnostic => isOutcome diagnostic = true

end Effect

def propertyCount (graph : Graph) : Nat :=
  (graph.classes.map (·.properties.length)).sum

/-- The bound matters: adding a property to a class beyond the last changes nothing. -/
theorem propertyCount_addProperty {graph : Graph} {id : ClassId} (h : id < graph.classes.length)
    (property : Property) :
    propertyCount (graph.addProperty id property) = propertyCount graph + 1 := by
  have hmodify (classes : List Graph.Class) (i : Nat) (hi : i < classes.length) :
      ((classes.modify i fun c => { c with properties := c.properties ++ [property] }).map
        (·.properties.length)).sum = (classes.map (·.properties.length)).sum + 1 := by
    induction classes generalizing i with
    | nil => exact absurd hi (Nat.not_lt_zero i)
    | cons c rest ih =>
        cases i with
        | zero => simp; omega
        | succ i =>
            have hrest := ih i (Nat.lt_of_succ_lt_succ hi)
            simp only [List.modify_succ_cons, List.map_cons, List.sum_cons, hrest, Nat.add_assoc]
  exact hmodify graph.classes id h

namespace Assembly

/-! ## Books

`Adds` is closed under composition, so the books of a run are those of its steps put together. -/

/-- The properties and mistakes added between two moments of a run are those of some effects.
`properties` and `mistakes` say which; `total` counts both together: a property that went to a class
outside the graph would be lost, and the count would show it. -/
structure Adds (before after : Assembly) (effects : List Effect) : Prop where
  grows : before.graph.Grows after.graph
  properties : ∀ id, (after.graph.classAt id).properties =
    (before.graph.classAt id).properties ++ effects.filterMap (·.propertyAt? id)
  mistakes : after.diagnostics.filter isOutcome =
    before.diagnostics.filter isOutcome ++ effects.filterMap (·.mistake?)
  total : propertyCount after.graph + after.diagnostics.countP isOutcome =
    propertyCount before.graph + before.diagnostics.countP isOutcome + effects.length

namespace Adds

theorem refl (assembly : Assembly) : Adds assembly assembly [] :=
  ⟨.refl _, by simp, by simp, rfl⟩

/-- Books of consecutive moments are put together. -/
theorem trans {a b c : Assembly} {first second : List Effect} (hab : Adds a b first)
    (hbc : Adds b c second) : Adds a c (first ++ second) where
  grows := hab.grows.trans hbc.grows
  properties id := by
    rw [hbc.properties, hab.properties, List.filterMap_append, List.append_assoc]
  mistakes := by rw [hbc.mistakes, hab.mistakes, List.filterMap_append, List.append_assoc]
  total := by rw [hbc.total, hab.total, List.length_append, Nat.add_assoc]

end Adds

/-- Putting an effect into effect adds it to the books. -/
theorem adds_apply {link : Link} {assembly : Assembly} {effect : Effect}
    (hfits : effect.Fits link assembly.graph)
    (hends : ∀ side, link.classAt side < assembly.graph.classes.length) :
    Adds assembly (effect.apply assembly) [effect] := by
  cases effect with
  | property holder target added =>
      -- The holder is an end of the link, hence in the graph: the property is not lost.
      obtain ⟨side, rfl, -, -⟩ := hfits
      refine ⟨(Graph.Grows.addProperty ..).trans (.addUse ..), fun id => ?_, ?_, ?_⟩
      · simp only [Effect.apply, addReference, Graph.classAt_addUse, Graph.addProperty,
          Graph.classAt_modifyClass]
        by_cases hid : link.classAt side = id
        · subst hid
          simp [hends, Effect.propertyAt?]
        · simp [hid, Effect.propertyAt?]
      · simp [Effect.apply, addReference, Effect.mistake?]
      · have hcount := propertyCount_addProperty (hends side) added
        simp only [propertyCount] at hcount
        simp only [Effect.apply, addReference, propertyCount, Graph.classes_addUse, hcount,
          List.length_singleton]
        omega
  | mistake diagnostic =>
      have hcode : isOutcome diagnostic = true := decide_eq_true hfits
      refine ⟨.refl _, fun id => ?_, ?_, ?_⟩
      · simp [Effect.apply, note, Effect.propertyAt?]
      · simp [Effect.apply, note, Effect.mistake?, hcode]
      · simp [Effect.apply, note, hcode, Nat.add_assoc]

/-- All effects of an association, one by one. The ends stay in the graph, as no effect changes the
number of classes. -/
theorem Enacts.adds {link : Link} {assembly final : Assembly} {effects : List Effect}
    (h : Enacts link assembly effects final)
    (hends : ∀ side, link.classAt side < assembly.graph.classes.length) :
    Adds assembly final effects := by
  induction h with
  | nil assembly => exact .refl assembly
  | cons fits later ih =>
      have hfirst := adds_apply fits hends
      exact hfirst.trans (ih fun side => hfirst.grows.size.symm ▸ hends side)

/-- Mistakes of other kinds do not count. `readAssociationCodeMismatch` is such a kind. -/
theorem adds_of_graph_eq {before after : Assembly} {noted : List Diagnostic}
    (hgraph : after.graph = before.graph) (hnoted : after.diagnostics = before.diagnostics ++ noted)
    (hother : ∀ diagnostic ∈ noted, isOutcome diagnostic = false) : Adds before after [] := by
  have hfilter : noted.filter isOutcome = [] := List.filter_eq_nil_iff.mpr (by simpa using hother)
  refine ⟨hgraph ▸ .refl _, by simp [hgraph], by simp [hnoted, hfilter], ?_⟩
  rw [hgraph, hnoted, List.countP_append, List.countP_eq_length_filter (l := noted), hfilter]
  rfl

/-! ## Passes before the associations -/

/-- No mistake so far takes the place of a property. The passes before the associations keep this.
-/
def Quiet (assembly : Assembly) : Prop :=
  ∀ diagnostic ∈ assembly.diagnostics, isOutcome diagnostic = false

namespace Quiet

variable {assembly : Assembly}

/-- A domain that is declared again is a mistake, but not one of the `associationCodes`. -/
theorem addDomains (h : assembly.Quiet) (domains : List Domain) :
    (assembly.addDomains domains).1.Quiet := by
  induction domains generalizing assembly with
  | nil => exact h
  | cons domain rest ih =>
      refine ih ?_
      rw [addDomain]
      split
      · intro diagnostic hdiagnostic
        rcases List.mem_append.mp hdiagnostic with hold | hnew
        · exact h diagnostic hold
        · cases List.mem_singleton.mp hnew
          rfl
      · exact h

theorem addModel (h : assembly.Quiet) (document : Document) : (assembly.addModel document).Quiet :=
  h.addDomains _

theorem addNamespace (h : assembly.Quiet) (suffixes : Naming.Suffixes) (position : Nat)
    (document : Document) (declared : Outline.Namespace) :
    (assembly.addNamespace suffixes position document declared).Quiet := by
  intro diagnostic hdiagnostic
  rcases List.mem_append.mp hdiagnostic with hold | hnew
  · exact h diagnostic hold
  · obtain ⟨c, -, hmistake⟩ := List.mem_filterMap.mp hnew
    rw [isOutcome, code_of_stereotypeMistake? hmistake]
    rfl

theorem addDocuments (h : assembly.Quiet) (suffixes : Naming.Suffixes) (position : Nat)
    (documents : List Document) :
    (assembly.addDocuments suffixes position documents).1.Quiet := by
  induction documents generalizing assembly position with
  | nil => exact h
  | cons document rest ih =>
      refine ih ?_ (position + 1)
      exact List.foldlRecOn (motive := Quiet) _ _ h fun _ hquiet declared _ =>
        hquiet.addNamespace suffixes position document declared

end Quiet

/-- Before the associations, the mistakes are about domains and stereotypes. -/
theorem quiet_withClasses (suffixes : Naming.Suffixes) (shared : List Domain)
    (documents : List Document) : (withClasses suffixes shared documents).1.Quiet := by
  have hempty : empty.Quiet := fun _ hdiagnostic => absurd hdiagnostic List.not_mem_nil
  have hmodels : (withModels shared documents).Quiet :=
    List.foldlRecOn (motive := Quiet) _ _ (hempty.addDomains shared) fun _ hquiet document _ =>
      hquiet.addModel document
  exact hmodels.addDocuments suffixes 0 documents

/-- Generalizations set parents. They leave properties and mistakes alone. -/
theorem adds_generalization {document : Document} {scope : Scope} {assembly next : Assembly}
    {link : Outline.Generalization}
    (h : addGeneralization document scope assembly link = .ok next) :
    Adds assembly next [] := by
  obtain ⟨parent, child, -, -, rfl⟩ := addGeneralization_eq_ok h
  have hproperties (id : ClassId) :
      ((assembly.graph.modifyClass child fun c => { c with parent := some parent }).classAt
        id).properties = (assembly.graph.classAt id).properties := by
    rw [Graph.classAt_modifyClass]
    split <;> rfl
  refine ⟨(Graph.Grows.setParent ..).trans (.addUse ..), ?_, by simp, ?_⟩
  · simpa using hproperties
  · have hcounts := Graph.map_classes_eq (·.properties.length) (Graph.length_modifyClass ..)
      fun id => congrArg List.length (hproperties id)
    simp only [propertyCount, Graph.classes_addUse, hcounts]
    rfl

/-! ## Associations -/

/-- What an association has led to: as many outcomes as it must have. -/
structure Outcomes (graph : Graph) (declared : Declared Outline.Association)
    (effects : List Effect) : Prop where
  count : effects.length = outcomeCount declared.link
  outcome : ∀ effect ∈ effects, effect.IsOutcome graph declared

/-- Classes are found alike however far the graph has grown. -/
theorem Outcomes.grows_iff {before after : Graph} (h : before.Grows after)
    (declared : Declared Outline.Association) (effects : List Effect) :
    Outcomes after declared effects ↔ Outcomes before declared effects := by
  -- Only the meaning of identifiers depends on the graph, and growth keeps it.
  have hfind : find? after declared.scope = find? before declared.scope :=
    funext (find?_of_grows h declared.scope)
  have heffect (effect : Effect) :
      effect.IsOutcome after declared ↔ effect.IsOutcome before declared := by
    cases effect <;> simp only [Effect.IsOutcome, hfind]
  exact ⟨fun houtcomes => ⟨houtcomes.count, fun effect he =>
      (heffect effect).mp (houtcomes.outcome effect he)⟩,
    fun houtcomes => ⟨houtcomes.count, fun effect he =>
      (heffect effect).mpr (houtcomes.outcome effect he)⟩⟩

/-- `Fits` speaks of the ends of a link, `IsOutcome` of the identifiers in the document. The lookups
of the ends connect the two. -/
theorem Enacts.isOutcome {link : Link} {assembly final : Assembly} {effects : List Effect}
    (h : Enacts link assembly effects final) {graph : Graph}
    {declared : Declared Outline.Association}
    (ha : find? graph declared.scope declared.link.a.classId = some link.a)
    (hb : find? graph declared.scope declared.link.b.classId = some link.b) :
    ∀ effect ∈ effects, effect.IsOutcome graph declared := by
  induction h with
  | nil _ =>
      intro effect heffect
      exact absurd heffect List.not_mem_nil
  | cons fits later ih =>
      intro effect heffect
      rcases List.mem_cons.mp heffect with rfl | heffect
      · cases effect with
        | property holder target added =>
            obtain ⟨side, rfl, rfl, hderived⟩ := fits
            refine ⟨?_, hderived.linked⟩
            cases side <;> simp [ha, hb, Link.classAt, Side.other]
        | mistake diagnostic => exact decide_eq_true fits
      · exact ih effect heffect

theorem adds_noteCode (assembly : Assembly) (link : Link) (association : Outline.Association) :
    Adds assembly (assembly.noteCode link association) [] := by
  refine adds_of_graph_eq rfl rfl fun diagnostic hdiagnostic => ?_
  rw [isOutcome, code_of_codeMistake? (Option.mem_toList.mp hdiagnostic)]
  rfl

/-- An association adds its outcomes, and nothing else. -/
theorem adds_association {declared : Declared Outline.Association} {assembly next : Assembly}
    (hscope : declared.scope.Within assembly.graph.classes.length)
    (h : addAssociation declared.document declared.scope assembly declared.link = .ok next) :
    ∃ effects, Outcomes assembly.graph declared effects ∧ Adds assembly next effects := by
  obtain ⟨a, b, ha, hb, rfl⟩ := addAssociation_eq_ok h
  obtain ⟨effects, hcount, henacts⟩ :=
    enacts_addLink assembly (linkOf declared.document declared.link a b) declared.link
  refine ⟨effects, ⟨hcount, henacts.isOutcome ha hb⟩, (adds_noteCode ..).trans (henacts.adds ?_)⟩
  intro side
  cases side with
  | a => exact find?_lt hscope ha
  | b => exact find?_lt hscope hb

/-- The pass over associations, by induction on them. `base` is the layout: outcomes are stated for
it, since it stays fixed while the graph grows. -/
theorem adds_associations {base : Graph} (links : List (Declared Outline.Association))
    (hscope : ∀ declared ∈ links, declared.scope.Within base.classes.length)
    {assembly final : Assembly} (hgrows : base.Grows assembly.graph)
    (h : links.foldlM (fun assembly declared =>
        addAssociation declared.document declared.scope assembly declared.link) assembly =
      .ok final) :
    ∃ effects, List.Forall₂ (Outcomes base) links effects ∧
      Adds assembly final effects.flatten := by
  induction links generalizing assembly with
  | nil =>
      cases h
      exact ⟨[], .nil, .refl _⟩
  | cons declared rest ih =>
      rw [List.foldlM_cons] at h
      obtain ⟨next, hnext, hrest⟩ := bind_eq_ok_iff.mp h
      obtain ⟨first, houtcomes, hfirst⟩ :=
        adds_association (hgrows.size ▸ hscope declared List.mem_cons_self) hnext
      obtain ⟨later, hlater, hadds⟩ := ih (fun other hother =>
        hscope other (List.mem_cons_of_mem _ hother)) (hgrows.trans hfirst.grows) hrest
      -- The step is about the graph as it was then; its classes are those of `base`.
      refine ⟨first :: later, .cons ((Outcomes.grows_iff hgrows ..).mp houtcomes) hlater, ?_⟩
      rw [List.flatten_cons]
      exact hfirst.trans hadds

/-! ## Runs -/

theorem link_declaredLinks {α : Type} (links : Outline → List α)
    (placed : List (Document × Scope)) :
    (declaredLinks links placed).map (·.link) =
      (placed.map (·.1)).flatMap fun document => links document.outline := by
  simp [declaredLinks, List.map_flatMap, List.flatMap_map, Function.comp_def]

/-- No document is left out or moved by the pass over classes. -/
theorem documents_addDocuments (suffixes : Naming.Suffixes) (documents : List Document)
    (assembly : Assembly) (position : Nat) :
    (addDocuments suffixes assembly position documents).2.map (·.1) = documents := by
  induction documents generalizing assembly position with
  | nil => rfl
  | cons document rest ih =>
      rw [addDocuments_cons, List.map_cons, ih]

/-- The books of a run: what it adds to the declared classes are the outcomes of its
associations. -/
theorem accounts_of_run {suffixes : Naming.Suffixes} {shared : List Domain}
    {documents : List Document} {final : Assembly}
    (hrun : run suffixes shared documents = .ok final) :
    ∃ effects,
      List.Forall₂ (Outcomes final.graph)
        (declaredLinks (·.associations) (withClasses suffixes shared documents).2) effects ∧
      Adds (withClasses suffixes shared documents).1 final effects.flatten := by
  obtain ⟨linked, hgeneralizations, hassociations⟩ := run_eq_ok_iff.mp hrun
  have hlinked : Adds (withClasses suffixes shared documents).1 linked [] :=
    foldlM_keeps (P := fun assembly => Adds (withClasses suffixes shared documents).1 assembly [])
      (fun _ _ _ _ hadds hnext => hadds.trans (adds_generalization hnext)) hgeneralizations
      (.refl _)
  obtain ⟨effects, houtcomes, hadds⟩ := adds_associations _
    (fun declared hdeclared => (laid_withClasses suffixes shared documents).2 _
      (mem_of_mem_declaredLinks hdeclared)) hlinked.grows hassociations
  refine ⟨effects, houtcomes.imp fun declared outcomes => ?_, hlinked.trans hadds⟩
  exact (Outcomes.grows_iff (grows_of_run hrun) declared outcomes).mpr

end Assembly

/-! ## Reading -/

/-- No association is lost, and none has more outcomes than it must have. The properties of a class
are the declared ones, followed by those that associations have added to it; the mistakes are the
other outcomes; and all are counted. -/
theorem accounts_of_read {suffixes : Naming.Suffixes} {shared : List Domain}
    {sources : List Source} {graph : Graph} {found : List Diagnostic}
    (h : read suffixes shared sources = .ok (graph, found)) :
    ∃ documents,
      List.Forall₂ (fun source document => source.document = .ok document) sources documents ∧
      (∃ effects,
        List.Forall₂ (Assembly.Outcomes graph) (Assembly.declaredLinks (·.associations)
          (Assembly.withClasses suffixes shared documents).2) effects ∧
        (∀ id document c, (declaredClasses documents)[id]? = some (document, c) →
          (graph.classAt id).properties =
            c.properties.map (Assembly.propertyOf graph.domains
              (Assembly.domainScope document.outline) c.trigram) ++
              effects.flatten.filterMap (·.propertyAt? id)) ∧
        found.filter isOutcome = effects.flatten.filterMap (·.mistake?)) ∧
      propertyCount graph + found.countP isOutcome =
        ((declaredClasses documents).map (·.2.properties.length)).sum +
          ((documents.flatMap (·.outline.associations)).map Assembly.outcomeCount).sum := by
  obtain ⟨documents, hsources, hrun⟩ := read_eq_ok h
  obtain ⟨effects, houtcomes, hadds⟩ := Assembly.accounts_of_run hrun
  have hlaid := (Assembly.laid_withClasses suffixes shared documents).1
  have hquiet := Assembly.quiet_withClasses suffixes shared documents
  refine ⟨documents, hsources, ⟨effects, houtcomes, ?_, ?_⟩, ?_⟩
  · intro id document c hdeclared
    rw [hadds.properties, hlaid.classAt hdeclared, hadds.grows.domains]
    rfl
  · rw [hadds.mistakes, List.filter_eq_nil_iff.mpr fun diagnostic hmem =>
      Bool.not_eq_true _ ▸ hquiet diagnostic hmem, List.nil_append]
  · -- The books open with the declared properties and without mistakes that count.
    have hdeclared : propertyCount (Assembly.withClasses suffixes shared documents).1.graph =
        ((declaredClasses documents).map (·.2.properties.length)).sum := by
      refine congrArg List.sum (map_eq_of_forall₂ hlaid.classes ?_).symm
      intro declared c hc
      rw [hc]
      exact (List.length_map _).symm
    have hcounts : effects.flatten.length =
        ((documents.flatMap (·.outline.associations)).map Assembly.outcomeCount).sum := by
      have hlinks := Assembly.link_declaredLinks (·.associations)
        (Assembly.withClasses suffixes shared documents).2
      rw [Assembly.withClasses, Assembly.documents_addDocuments] at hlinks
      rw [← hlinks, List.map_map, List.length_flatten]
      exact congrArg List.sum (map_eq_of_forall₂ houtcomes fun _ _ hc => hc.count.symm).symm
    have hsilent : (Assembly.withClasses suffixes shared documents).1.diagnostics.countP
        isOutcome = 0 :=
      List.countP_eq_zero.mpr fun diagnostic hmem => Bool.not_eq_true _ ▸ hquiet diagnostic hmem
    rw [hadds.total, hdeclared, hcounts, hsilent, Nat.add_zero]

theorem accounts_of_read_sample :
    ∃ graph found, read .standard [] [sample] = .ok (graph, found) ∧
      (∃ documents,
        List.Forall₂ (fun source document => source.document = .ok document) [sample] documents ∧
        (∃ effects,
          List.Forall₂ (Assembly.Outcomes graph) (Assembly.declaredLinks (·.associations)
            (Assembly.withClasses .standard [] documents).2) effects ∧
          (∀ id document c, (declaredClasses documents)[id]? = some (document, c) →
            (graph.classAt id).properties =
              c.properties.map (Assembly.propertyOf graph.domains
                (Assembly.domainScope document.outline) c.trigram) ++
                effects.flatten.filterMap (·.propertyAt? id)) ∧
          found.filter isOutcome = effects.flatten.filterMap (·.mistake?)) ∧
        propertyCount graph + found.countP isOutcome =
          ((declaredClasses documents).map (·.2.properties.length)).sum +
            ((documents.flatMap (·.outline.associations)).map Assembly.outcomeCount).sum) ∧
      propertyCount graph = 4 ∧ found.countP isOutcome = 1 := by
  obtain ⟨graph, found, hread, hcounts⟩ := exists_read_sample
    (P := fun graph found => propertyCount graph == 4 && found.countP isOutcome == 1) (by cbv)
  simp only [Bool.and_eq_true, beq_iff_eq] at hcounts
  exact ⟨graph, found, hread, accounts_of_read hread, hcounts⟩

end ModelSchema.Reading
