import Mathlib
import ModelSchema.Graph.Basic

/-!
# References between classes

Lists are put in order, and cycles of lists are searched for, along one relation: a class has a
property that refers to one instance of another class.
-/

namespace ModelSchema.Graph

/-- A class has a property that refers to one instance of a class. -/
def HasReference (graph : Graph) (id other : ClassId) : Prop :=
  ∃ property ∈ (graph.classAt id).properties, property.kind = .reference other

/-- `target?` is the test, `HasReference` the relation: a list of references or a composition is no
reference in this sense. -/
theorem Property.target?_eq_some_iff {property : Property} {other : ClassId} :
    property.target? = some other ↔ property.kind = .reference other := by
  cases hkind : property.kind <;> simp [target?, hkind]

end ModelSchema.Graph
