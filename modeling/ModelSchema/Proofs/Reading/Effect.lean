import ModelSchema.Proofs.Reading.Passes

/-!
# Effects of associations

Putting an association into effect is a list of small effects, each of which adds one property to
an end or notes one mistake (`Enacts`). How many there are depends on the association alone
(`outcomeCount`), and what is known about each of them is said once (`Effect.Fits`):

* a property is added to one end and linked to the other, and is never a key;
* a reference takes domain and types from the primary key of the class it refers to;
* a mistake has one of four codes.
-/

namespace ModelSchema.Reading

open ModelSchema.Graph (Property)

def associationCodes : List Code :=
  [.readInvalidMultiplicity, .readUnimplementableAssociation, .readPersistentToTransient,
    .readTargetWithoutPrimaryKey]

/-- What becomes of one direction of an association. -/
inductive Effect where
  /-- The holder gets a property that is linked to the target. -/
  | property (holder target : ClassId) (property : Property)
  /-- A mistake is noted. -/
  | mistake (diagnostic : Diagnostic)

/-- A property that is linked to a class. A reference is like the primary key of that class. -/
structure Derived (graph : Graph) (target : ClassId) (property : Property) : Prop where
  linked : property.kind.linked? = some target
  notKey : property.isPrimaryKey = false
  key : property.kind = .reference target → ∃ key,
    (graph.classAt target).primaryKey? = some key ∧ property.domain = key.domain ∧
      property.dataType = key.dataType ∧ property.persistentType = key.persistentType

namespace Effect

def apply (assembly : Assembly) : Effect → Assembly
  | .property holder target added => assembly.addReference holder target added
  | .mistake diagnostic => assembly.note diagnostic

/-- The effects that an association between two classes may have. -/
def Fits (link : Assembly.Link) (graph : Graph) : Effect → Prop
  | .property holder target added => ∃ side : Side,
    holder = link.classAt side ∧ target = link.classAt side.other ∧ Derived graph target added
  | .mistake diagnostic => diagnostic.code ∈ associationCodes

end Effect

namespace Assembly

/-! ## One direction -/

/-- The effect of one resolution of an association. It depends on the graph, since a foreign key is
made after the primary key of the class it refers to. -/
def effectOf (graph : Graph) (link : Link) : Association.Resolution → Effect
  | .foreignKey holder isRequired =>
    let holderClass := graph.classAt (link.classAt holder)
    let target := graph.classAt (link.classAt holder.other)
    match target.primaryKey? with
    | some key =>
      .property (link.classAt holder) (link.classAt holder.other)
        (foreignKeyOf holderClass target key (link.classAt holder.other)
          (link.roleAt holder.other) isRequired)
    | none => .mistake (keylessMistake link holderClass target)
  | .foreignKeyList holder isPersistent =>
    .property (link.classAt holder) (link.classAt holder.other)
      (referenceListOf (graph.classAt (link.classAt holder.other)) (link.classAt holder.other)
        (link.roleAt holder.other) isPersistent)
  | .composedChild owner isCollection =>
    .property (link.classAt owner) (link.classAt owner.other)
      (childOf (graph.classAt (link.classAt owner.other)) (link.classAt owner.other)
        (link.roleAt owner.other) isCollection)
  | .rejected holder reason =>
    .mistake (rejectionMistake link (graph.classAt (link.classAt holder))
      (graph.classAt (link.classAt holder.other)) reason)

/-- `Assembly.apply` goes through the effect, so what follows need not look at resolutions. -/
theorem apply_eq (link : Link) (assembly : Assembly) (resolution : Association.Resolution) :
    assembly.apply link resolution = (effectOf assembly.graph link resolution).apply assembly := by
  cases resolution with
  | foreignKey holder isRequired =>
      simp only [apply, addForeignKey, effectOf]
      cases (assembly.graph.classAt (link.classAt holder.other)).primaryKey? <;> rfl
  | foreignKeyList holder isPersistent => rfl
  | composedChild owner isCollection => rfl
  | rejected holder reason => rfl

/-- For every resolution: the property is derived from the other end, or the mistake has one of the
`associationCodes`. -/
theorem fits_effectOf (graph : Graph) (link : Link) (resolution : Association.Resolution) :
    (effectOf graph link resolution).Fits link graph := by
  cases resolution with
  | foreignKey holder isRequired =>
      simp only [effectOf]
      split
      · next key hkey =>
        exact ⟨holder, rfl, rfl, rfl, rfl, fun _ => ⟨key, hkey, rfl, rfl, rfl⟩⟩
      · simp [Effect.Fits, keylessMistake, Diagnostic.report, Diagnostic.new, associationCodes]
  | foreignKeyList holder isPersistent =>
      exact ⟨holder, rfl, rfl, rfl, rfl, fun h => by cases h⟩
  | composedChild owner isCollection =>
      exact ⟨owner, rfl, rfl, rfl, rfl, fun h => by cases h⟩
  | rejected holder reason =>
      cases reason <;>
        simp [effectOf, Effect.Fits, rejectionMistake, Diagnostic.report, Diagnostic.new,
          associationCodes]

/-! ## Both directions -/

/-- Effects that follow each other lead from one assembly to another. Each has to fit when its turn
comes: the second direction sees the property that the first has added. -/
inductive Enacts (link : Link) : Assembly → List Effect → Assembly → Prop
  | nil (assembly : Assembly) : Enacts link assembly [] assembly
  | cons {assembly final : Assembly} {effect : Effect} {rest : List Effect}
      (fits : effect.Fits link assembly.graph)
      (later : Enacts link (effect.apply assembly) rest final) :
      Enacts link assembly (effect :: rest) final

/-- What every effect keeps, effects that follow each other keep. The induction principle for
everything that associations do. -/
theorem Enacts.keeps {link : Link} {P : Assembly → Prop}
    (hstep : ∀ (assembly : Assembly) (effect : Effect), effect.Fits link assembly.graph →
      P assembly → P (effect.apply assembly))
    {assembly final : Assembly} {effects : List Effect} (h : Enacts link assembly effects final)
    (hstart : P assembly) : P final := by
  induction h with
  | nil assembly => exact hstart
  | cons fits later ih => exact ih (hstep _ _ fits hstart)

/-- Every resolution of an association has its effect. -/
theorem enacts_resolutions (link : Link) (resolutions : List Association.Resolution)
    (assembly : Assembly) :
    ∃ effects, effects.length = resolutions.length ∧
      Enacts link assembly effects (resolutions.foldl (apply link) assembly) := by
  induction resolutions generalizing assembly with
  | nil => exact ⟨[], rfl, .nil assembly⟩
  | cons resolution rest ih =>
      obtain ⟨effects, hlength, hlater⟩ := ih (assembly.apply link resolution)
      refine ⟨effectOf assembly.graph link resolution :: effects, by simp [hlength],
        .cons (fits_effectOf ..) ?_⟩
      rw [← apply_eq]
      exact hlater

/-- How many outcomes an association has: two if it is no composition and both its ends hold at
most one instance, else one. -/
def outcomeCount (association : Outline.Association) : Nat :=
  match Multiplicity.parse? association.a.multiplicity,
    Multiplicity.parse? association.b.multiplicity, association.owner with
  | some a, some b, none => if a.isSingle && b.isSingle then 2 else 1
  | _, _, _ => 1

/-- Only where both ends hold at most one instance are there foreign keys on both sides. -/
theorem length_resolve (a b : Association.Participant) (owner : Option Side) :
    (Association.resolve a b owner).length =
      if owner.isNone && a.multiplicity.isSingle && b.multiplicity.isSingle then 2 else 1 := by
  rcases owner with _ | _ | _
  · cases ha : a.multiplicity <;> cases hb : b.multiplicity <;>
      simp [Association.resolve, ha, hb, Multiplicity.isSingle, Multiplicity.isMany]
  · rfl
  · rfl

/-- This mistake does not take the place of a property, and its code is none of the
`associationCodes`. -/
theorem code_of_codeMistake? {path : String} {association : Outline.Association}
    {diagnostic : Diagnostic} (h : codeMistake? path association = some diagnostic) :
    diagnostic.code = .readAssociationCodeMismatch := by
  simp only [codeMistake?] at h
  split at h
  · split at h <;> cases h
    rfl
  · cases h

def noteCode (assembly : Assembly) (link : Link) (association : Outline.Association) : Assembly :=
  { assembly with
    diagnostics := assembly.diagnostics ++ (codeMistake? link.file association).toList }

/-- `addLink` in closed form: first the code is noted, then both multiplicities are needed, or the
mistake is about them. -/
theorem addLink_eq (assembly : Assembly) (link : Link) (association : Outline.Association) :
    assembly.addLink link association =
      match Multiplicity.parse? association.a.multiplicity,
        Multiplicity.parse? association.b.multiplicity with
      | some a, some b =>
        (Association.resolve (participant assembly.graph link.a a)
          (participant assembly.graph link.b b) association.owner).foldl (apply link)
            (assembly.noteCode link association)
      | _, _ =>
        (assembly.noteCode link association).note
          (multiplicityMistake assembly.graph link association) := by
  unfold addLink
  cases Multiplicity.parse? association.a.multiplicity with
  | none => rfl
  | some a => cases Multiplicity.parse? association.b.multiplicity <;> rfl

/-- An association has as many effects as its multiplicities and owner say. There is one also where
a multiplicity cannot be read: the mistake that says so. -/
theorem enacts_addLink (assembly : Assembly) (link : Link) (association : Outline.Association) :
    ∃ effects, effects.length = outcomeCount association ∧
      Enacts link (assembly.noteCode link association) effects
        (assembly.addLink link association) := by
  have hmistake : ∃ effects, effects.length = 1 ∧
      Enacts link (assembly.noteCode link association) effects
        ((assembly.noteCode link association).note
          (multiplicityMistake assembly.graph link association)) := by
    refine ⟨[.mistake (multiplicityMistake assembly.graph link association)], rfl, ?_⟩
    exact .cons List.mem_cons_self (.nil _)
  rw [addLink_eq]
  cases ha : Multiplicity.parse? association.a.multiplicity with
  | none => simpa only [outcomeCount, ha] using hmistake
  | some a =>
      cases hb : Multiplicity.parse? association.b.multiplicity with
      | none => simpa only [outcomeCount, ha, hb] using hmistake
      | some b =>
          obtain ⟨effects, hlength, henacts⟩ := enacts_resolutions link
            (Association.resolve (participant assembly.graph link.a a)
              (participant assembly.graph link.b b) association.owner)
            (assembly.noteCode link association)
          refine ⟨effects, ?_, henacts⟩
          rw [hlength, length_resolve]
          cases howner : association.owner <;>
            simp [outcomeCount, ha, hb, howner, participant]

end Assembly

end ModelSchema.Reading
