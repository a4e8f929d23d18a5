import ModelSchema.Proofs.Graph.Seed
import ModelSchema.Proofs.Reading.Layout

/-!
# Keys of graphs that are read

In a graph that is read, the properties of primary keys are values of a domain, and a reference has
the domain and column type of the key it refers to (`keysMatch_of_read`). So whatever is checked
about values holds of references too. No class has items yet (`items_of_read`).
-/

namespace ModelSchema.Reading

open ModelSchema.Graph (Domain Property)

/-- Keys are values of a domain, and references are like the keys they refer to. An invariant of the
links, by `run_keeps`. -/
structure KeysMatch (graph : Graph) : Prop where
  primitive : ∀ id, ∀ property ∈ (graph.classAt id).properties,
    property.isPrimaryKey = true → property.kind = .primitive
  reference : ∀ id, ∀ property ∈ (graph.classAt id).properties, ∀ target,
    property.kind = .reference target → ∃ key, (graph.classAt target).primaryKey? = some key ∧
      property.domain = key.domain ∧ property.persistentType = key.persistentType

namespace KeysMatch

/-- Keys match or not whatever else changes: parents, items and dependencies play no part. -/
theorem of_properties {before after : Graph} (h : KeysMatch before)
    (hsame : ∀ id, (after.classAt id).properties = (before.classAt id).properties) :
    KeysMatch after := by
  have hkey (id : ClassId) : (after.classAt id).primaryKey? = (before.classAt id).primaryKey? := by
    rw [Graph.Class.primaryKey?, Graph.Class.primaryKey?, hsame]
  refine ⟨fun id property hproperty => ?_, fun id property hproperty target htarget => ?_⟩
  · exact h.primitive id property (hsame id ▸ hproperty)
  · rw [hkey]
    exact h.reference id property (hsame id ▸ hproperty) target htarget

/-- A further property that is no key, and if a reference is like a key, leaves keys matching. This
is what `Derived` says of the properties that associations add. -/
theorem addProperty {graph : Graph} (h : KeysMatch graph) (holder : ClassId) {target : ClassId}
    {property : Property} (hderived : Derived graph target property) :
    KeysMatch (graph.addProperty holder property) := by
  have hproperties (id : ClassId) :
      ((graph.addProperty holder property).classAt id).properties =
          (graph.classAt id).properties ∨
        ((graph.addProperty holder property).classAt id).properties =
          (graph.classAt id).properties ++ [property] := by
    rw [Graph.addProperty, Graph.classAt_modifyClass]
    split
    · exact .inr rfl
    · exact .inl rfl
  have hkey (id : ClassId) : ((graph.addProperty holder property).classAt id).primaryKey? =
      (graph.classAt id).primaryKey? := by
    rw [Graph.Class.primaryKey?, Graph.Class.primaryKey?]
    rcases hproperties id with heq | heq <;> simp [heq, hderived.notKey]
  have hmem (id : ClassId) (other : Property)
      (hother : other ∈ ((graph.addProperty holder property).classAt id).properties) :
      other ∈ (graph.classAt id).properties ∨ other = property := by
    rcases hproperties id with heq | heq
    · exact .inl (heq ▸ hother)
    · simpa [heq] using hother
  constructor
  · intro id other hother hprimary
    rcases hmem id other hother with hold | rfl
    · exact h.primitive id other hold hprimary
    · rw [hderived.notKey] at hprimary
      cases hprimary
  · intro id other hother found hfound
    rw [hkey]
    rcases hmem id other hother with hold | rfl
    · exact h.reference id other hold found hfound
    · -- The key it was made like is still the key, as the property is none itself.
      have htarget := hderived.linked
      rw [hfound] at htarget
      cases htarget
      obtain ⟨key, hprimary, hdomain, -, htype⟩ := hderived.key hfound
      exact ⟨key, hprimary, hdomain, htype⟩

end KeysMatch

section Read

variable {suffixes : Naming.Suffixes} {shared : List Domain} {sources : List Source}
  {graph : Graph} {found : List Diagnostic}

theorem wellFormed_of_read (h : read suffixes shared sources = .ok (graph, found)) :
    graph.WellFormed := by
  obtain ⟨documents, -, hrun⟩ := read_eq_ok h
  exact Assembly.wellFormed_of_run hrun

/-- References are made from the primary key at that time. It stays the primary key, since
associations add no keys. -/
theorem keysMatch_of_read (h : read suffixes shared sources = .ok (graph, found)) :
    KeysMatch graph := by
  obtain ⟨documents, -, hrun⟩ := read_eq_ok h
  refine Assembly.run_keeps (P := KeysMatch) ?_ ?_ hrun ?_
  · intro graph child parent _ hkept
    refine hkept.of_properties fun id => ?_
    rw [Graph.classAt_addUse, Graph.classAt_modifyClass]
    split <;> rfl
  · intro graph holder target property _ hderived hkept
    exact (hkept.addProperty holder hderived).of_properties fun id => by rw [Graph.classAt_addUse]
  · -- Before the links there are values only.
    have hlinks := Assembly.no_links (Assembly.laid_withClasses suffixes shared documents).1.classes
    refine ⟨fun id property hproperty _ => (hlinks id).2 property hproperty, ?_⟩
    intro id property hproperty target htarget
    rw [(hlinks id).2 property hproperty] at htarget
    cases htarget

/-- Items come with seed data, after reading. -/
theorem items_of_read (h : read suffixes shared sources = .ok (graph, found)) (id : ClassId) :
    (graph.classAt id).items = [] := by
  obtain ⟨documents, -, hrun⟩ := read_eq_ok h
  by_cases hid : id < graph.classes.length
  · obtain ⟨declared, -, hshows⟩ :=
      exists_of_forall₂ (Assembly.shows_of_run hrun).2.2 _ (Graph.classAt_mem hid)
    exact hshows.items
  · rw [Graph.classAt_eq_default (Nat.le_of_not_lt hid)]
    rfl

end Read

/-! ## Seed data -/

/-- Seed data adds items, and leaves properties alone. -/
theorem KeysMatch.addSeed {graph : Graph} (h : KeysMatch graph) (seed : Seed) :
    KeysMatch (graph.addSeed seed) := by
  exact h.of_properties (Graph.properties_addSeed graph seed)

end ModelSchema.Reading
