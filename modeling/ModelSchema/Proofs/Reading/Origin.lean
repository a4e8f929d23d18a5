import ModelSchema.Proofs.Reading.Links

/-!
# Where properties come from

A property of a graph that is read is a declared one, or one that an association has added: a
reference to one instance, a list of references, or a child. `Assembly.Arises` has a case for each,
and says how the property was made from the classes of the graph.
-/

namespace ModelSchema.Reading

open ModelSchema.Graph (Domain Property Tie)

/-! ## Resolutions -/

/-- What an association between two ends may resolve to. Less than `Association.resolve` says, as
the multiplicities that lead to each case are left out; it is enough to know how properties are
made. -/
inductive Admits (ends : Side → Association.Participant) : Association.Resolution → Prop
  /-- A reference, unless it leads from a class with a table to one without. -/
  | foreignKey (holder : Side)
      (target : (ends holder).isPersistent = true → (ends holder.other).isPersistent = true) :
      Admits ends (.foreignKey holder ((ends holder.other).multiplicity == .exactlyOne))
  /-- A list of references of end A, which is not persistent. -/
  | foreignKeyList : Admits ends (.foreignKeyList .a false)
  /-- A child of the owner. -/
  | composedChild (owner : Side) :
      Admits ends (.composedChild owner (ends owner.other).multiplicity.isMany)
  /-- Nothing. -/
  | rejected (holder : Side) (reason : Association.Rejection) :
      Admits ends (.rejected holder reason)

theorem admits_foreignKey (ends : Side → Association.Participant) (holder : Side) :
    Admits ends (Association.foreignKey holder (ends holder) (ends holder.other)) := by
  rw [Association.foreignKey]
  split
  · exact .rejected ..
  · next hnot =>
    refine .foreignKey holder fun hholder => ?_
    simpa [hholder] using hnot

theorem admits_foreignKeyList (ends : Side → Association.Participant) :
    Admits ends (Association.foreignKeyList (ends .a) (ends .b)) := by
  rw [Association.foreignKeyList]
  split
  · exact .foreignKeyList
  · split
    · exact .rejected ..
    · split
      · exact .foreignKeyList
      · exact .rejected ..

/-- `resolve` by cases of the owner and of the two multiplicities. -/
theorem admits_of_mem_resolve (ends : Side → Association.Participant) {owner : Option Side}
    {resolution : Association.Resolution}
    (h : resolution ∈ Association.resolve (ends .a) (ends .b) owner) : Admits ends resolution := by
  rcases owner with _ | _ | _
  · simp only [Association.resolve, List.mem_append, List.mem_ite_nil_right,
      List.mem_singleton] at h
    rcases h with (⟨-, rfl⟩ | ⟨-, rfl⟩) | ⟨-, rfl⟩
    · exact admits_foreignKey ends .a
    · exact admits_foreignKey ends .b
    · exact admits_foreignKeyList ends
  · cases List.mem_singleton.mp h
    exact .composedChild .a
  · cases List.mem_singleton.mp h
    exact .composedChild .b

namespace Assembly

/-- How a property of a class has come about. Every function of `Assembly` that makes properties has
a case, and nothing else makes them. -/
inductive Arises (graph : Graph) (id : ClassId) : Property → Prop
  /-- It is declared. -/
  | declared (scope : List (String × String)) (property : Outline.Property) :
      Arises graph id (propertyOf graph.domains scope (graph.classAt id).trigram property)
  /-- It is a reference to the primary key of another class; that of a persistent class refers to
  a persistent class. -/
  | reference {target : ClassId} {key : Property} (role : Option String) (isRequired : Bool)
      (hkey : (graph.classAt target).primaryKey? = some key)
      (htarget : (graph.classAt id).isPersistent = true →
        (graph.classAt target).isPersistent = true) :
      Arises graph id
        (foreignKeyOf (graph.classAt id) (graph.classAt target) key target role isRequired)
  /-- It is a list of references. -/
  | referenceList (target : ClassId) (role : Option String) (isPersistent : Bool) :
      Arises graph id (referenceListOf (graph.classAt target) target role isPersistent)
  /-- It is a child. -/
  | child (target : ClassId) (role : Option String) (isCollection : Bool) :
      Arises graph id (childOf (graph.classAt target) target role isCollection)

def participantAt (graph : Graph) (link : Link) (a b : Multiplicity) :
    Side → Association.Participant
  | .a => participant graph link.a a
  | .b => participant graph link.b b

theorem isPersistent_participantAt (graph : Graph) (link : Link) (a b : Multiplicity)
    (side : Side) : (participantAt graph link a b side).isPersistent =
      (graph.classAt (link.classAt side)).isPersistent := by
  cases side <;> rfl

/-- What a resolution adds arises in the graph. The condition on persistence in `Arises.reference`
is the one that `foreignKey` rejects otherwise. -/
theorem arises_of_effectOf {graph : Graph} {link : Link} {a b : Multiplicity}
    {owner : Option Side} {resolution : Association.Resolution}
    (hresolution : resolution ∈ Association.resolve (participant graph link.a a)
      (participant graph link.b b) owner) {id target : ClassId} {property : Property}
    (h : (effectOf graph link resolution).tie? = some (.property id target property)) :
    Arises graph id property := by
  cases admits_of_mem_resolve (participantAt graph link a b) hresolution with
  | foreignKey holder hpersistent =>
      rw [isPersistent_participantAt, isPersistent_participantAt] at hpersistent
      simp only [effectOf] at h
      split at h
      · next key hkey =>
        cases h
        exact .reference _ _ hkey hpersistent
      · cases h
  | foreignKeyList =>
      cases h
      exact .referenceList ..
  | composedChild owner =>
      cases h
      exact .child ..
  | rejected holder reason => cases h

section Run

variable {suffixes : Naming.Suffixes} {shared : List Domain} {documents : List Document}
  {final : Assembly}

/-- The classes of a run look to associations as they were declared. So `Arises` can speak of the
final graph, although properties were made from the layout. -/
theorem resembles_of_run (hrun : run suffixes shared documents = .ok final) :
    Resembles (withClasses suffixes shared documents).1.graph final.graph := by
  obtain ⟨-, rfl⟩ := run_eq_ok_iff_known.mp hrun
  exact (Resembles.refl _).tieAll keyless_allTies

/-- A class is as declared, but for its parent and the links that follow its properties. -/
theorem classAt_of_run (hrun : run suffixes shared documents = .ok final) {id : ClassId}
    {declared : Document × Outline.Class} (h : (declaredClasses documents)[id]? = some declared) :
    ∃ home parent added, (∀ property ∈ added, property.kind ≠ .primitive) ∧
      final.graph.classAt id =
        { classOf final.graph.domains declared.1 home declared.2 with
          parent := parent
          properties := declared.2.properties.map
            (propertyOf final.graph.domains (domainScope declared.1.outline) declared.2.trigram)
              ++ added } := by
  have hlaid := (laid_withClasses suffixes shared documents).1
  have hdomains := (grows_of_run hrun).domains
  have hid : id < (withClasses suffixes shared documents).1.graph.classes.length :=
    hlaid.size ▸ (List.getElem?_eq_some_iff.mp h).1
  have hclass := congrArg (·.graph.classAt id) (run_eq_ok_iff_known.mp hrun).2
  simp only [Graph.classAt_tieAll hid] at hclass
  have heq : IsDeclared _ declared _ := hlaid.classAt h
  refine ⟨((withClasses suffixes shared documents).1.graph.classAt id).home,
    (final.graph.classAt id).parent, (allTies (withClasses suffixes shared documents).1.graph
      (withClasses suffixes shared documents).2).filterMap (·.propertyAt? id), ?_, ?_⟩
  · -- What links add is linked to a class.
    intro property hproperty hprimitive
    obtain ⟨t, ht, hat⟩ := List.mem_filterMap.mp hproperty
    obtain ⟨target, rfl⟩ := Graph.Tie.propertyAt?_eq_some_iff.mp hat
    have hlinked := (linked_of_mem_allTies ht).2
    rw [hprimitive] at hlinked
    cases hlinked
  · rw [hdomains, hclass, heq]
    rfl

/-- The declared classes are those of the graph, by position. -/
theorem forall₂_classIds_of_run (hrun : run suffixes shared documents = .ok final)
    {R : Document × Outline.Class → ClassId → Prop}
    (h : ∀ id declared, (declaredClasses documents)[id]? = some declared → R declared id) :
    List.Forall₂ R (declaredClasses documents) final.graph.classIds := by
  have hsize : (declaredClasses documents).length = final.graph.classes.length :=
    (shows_of_run hrun).2.2.length_eq
  rw [Graph.classIds, List.forall₂_iff_get]
  refine ⟨by simpa using hsize, fun id hdeclared hid => ?_⟩
  rw [List.get_eq_getElem, List.get_eq_getElem, List.getElem_range]
  exact h id _ (List.getElem?_eq_getElem hdeclared)

/-- A property of a class is declared, or an association resolves to it. -/
theorem origin_of_run (hrun : run suffixes shared documents = .ok final) {id : ClassId}
    {property : Property} (h : property ∈ (final.graph.classAt id).properties) :
    (∃ scope declared, property =
        propertyOf final.graph.domains scope (final.graph.classAt id).trigram declared) ∨
      ∃ link a b owner target,
        ∃ resolution ∈ Association.resolve (participant final.graph link.a a)
            (participant final.graph link.b b) owner,
          (effectOf final.graph link resolution).tie? = some (.property id target property) := by
  have hresembles := resembles_of_run hrun
  have hgrows := grows_of_run hrun
  have hlaid := (laid_withClasses suffixes shared documents).1
  have hid : id < (withClasses suffixes shared documents).1.graph.classes.length :=
    hresembles.size ▸ Graph.lt_of_mem_properties h
  have hgraph := congrArg Assembly.graph (run_eq_ok_iff_known.mp hrun).2
  rw [hgraph] at h
  rcases (Graph.mem_properties_tieAll hid).mp h with hdeclared | ⟨target, ht⟩
  · -- Trigram and domains are still those that the declared property was made with.
    have hlt : id < (declaredClasses documents).length := hlaid.size ▸ hid
    have heq := hlaid.classAt (List.getElem?_eq_getElem hlt)
    have htrigram := (hresembles.alike id).trigram
    rw [heq] at hdeclared htrigram
    obtain ⟨declared, -, rfl⟩ := List.mem_map.mp hdeclared
    refine .inl ⟨domainScope (declaredClasses documents)[id].1.outline, declared, ?_⟩
    rw [htrigram, hgrows.domains]
    rfl
  · -- So are the ends of the association, in all that matters to it.
    obtain ⟨declared, -, a, b, -, -, hlink⟩ := exists_association (linked_of_mem_allTies ht).1
    rw [← hresembles.linkEffects] at hlink
    obtain ⟨_, _, resolution, hresolution, heffect⟩ := exists_resolution hlink
    exact .inr ⟨_, _, _, _, _, resolution, hresolution, heffect⟩

/-- The two cases of `origin_of_run`, by cases of the resolution. -/
theorem arises_of_run (hrun : run suffixes shared documents = .ok final) {id : ClassId}
    {property : Property} (h : property ∈ (final.graph.classAt id).properties) :
    Arises final.graph id property := by
  rcases origin_of_run hrun h with ⟨scope, declared, rfl⟩ |
    ⟨_, _, _, _, _, resolution, hresolution, heffect⟩
  · exact .declared scope declared
  · exact arises_of_effectOf hresolution heffect

end Run

end Assembly

/-- Facts about all properties of a graph that is read are proved by cases of this. -/
theorem arises_of_read {suffixes : Naming.Suffixes} {shared : List Domain} {sources : List Source}
    {graph : Graph} {found : List Diagnostic}
    (h : read suffixes shared sources = .ok (graph, found)) {id : ClassId} {property : Property}
    (hproperty : property ∈ (graph.classAt id).properties) :
    Assembly.Arises graph id property := by
  obtain ⟨documents, -, hrun⟩ := read_eq_ok h
  exact Assembly.arises_of_run hrun hproperty

end ModelSchema.Reading
