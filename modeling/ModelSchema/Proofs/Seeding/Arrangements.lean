import ModelSchema.Proofs.Graph.References
import ModelSchema.Proofs.Seeding.Order

/-!
# Arrangements of lists

Exchanges find an order of the lists, or use up their budget. What they find is compared here with
what can be found at all: the classes in any sequence in which none refers to a later one.

* Such a sequence exists exactly if references between the classes do not form a cycle
  (`exists_arranged_iff`).
* Exchanges find one whenever there is one, and then keep every class as often as it was given
  (`order_finds_arrangement`).
-/

namespace ModelSchema.Sql.Seeding

/-- A class of a list refers to another class of the list. Unlike `Refers`, this is said of the
graph, with nothing computed. -/
def Depends (graph : Graph) (ids : List ClassId) (id other : ClassId) : Prop :=
  id ∈ ids ∧ other ∈ ids ∧ id ≠ other ∧ graph.HasReference id other

/-- No class of a sequence refers to another one at a later place. -/
def Arranged (graph : Graph) (ids : List ClassId) : Prop :=
  ∀ i j (hi : i < ids.length) (hj : j < ids.length), i < j → ids[i] ≠ ids[j] →
    ¬ graph.HasReference ids[i] ids[j]

/-- `refersTo` decides `Graph.HasReference`, for two classes. -/
theorem refersTo_iff {graph : Graph} {id other : ClassId} :
    refersTo graph id other = true ↔ id ≠ other ∧ graph.HasReference id other := by
  simp only [refersTo, Bool.and_eq_true, bne_iff_ne, List.any_eq_true, beq_iff_eq,
    Graph.Property.target?_eq_some_iff, Graph.HasReference]

theorem acyclic_iff_depends {graph : Graph} {ids : List ClassId} :
    Acyclic graph ids ↔ ∀ id, ¬ Relation.TransGen (Depends graph ids) id id := by
  have hrelation : Refers graph ids = Depends graph ids := by
    funext id other
    simp only [Refers, Depends, refersTo_iff]
  rw [Acyclic, hrelation]

/-- `Settled` in terms of places: the pairs of a list are its places in order. -/
theorem settled_iff_arranged {graph : Graph} {ids : List ClassId} :
    Settled graph ids ↔ Arranged graph ids := by
  rw [Settled, List.pairwise_iff_getElem, Arranged]
  constructor
  · intro h i j hi hj hij hne hreference
    have hrefers := refersTo_iff.mpr ⟨hne, hreference⟩
    rw [h i j hi hj hij] at hrefers
    cases hrefers
  · intro h i j hi hj hij
    rw [← Bool.not_eq_true, refersTo_iff]
    rintro ⟨hne, hreference⟩
    exact h i j hi hj hij hne hreference

/-- The classes of a list can be arranged exactly if references between them form no cycle. -/
theorem exists_arranged_iff {graph : Graph} {ids : List ClassId} :
    (∃ arrangement : List ClassId, arrangement.Perm ids ∧ Arranged graph arrangement) ↔
      Acyclic graph ids := by
  constructor
  · rintro ⟨arrangement, hperm, harranged⟩
    exact (acyclic_iff_of_perm hperm).mp (settled_iff_arranged.mpr harranged).acyclic
  · intro hacyclic
    obtain ⟨sorted, hsorted⟩ := order_ok_iff.mpr hacyclic
    obtain ⟨hperm, hsettled⟩ := order_eq_ok hsorted
    exact ⟨sorted, hperm, settled_iff_arranged.mp hsettled⟩

/-- An order is found exactly if references between the classes form no cycle, which is whenever the
classes can be arranged at all. It is then an arrangement of the classes. Otherwise the error lists
their names. -/
theorem order_finds_arrangement (graph : Graph) (ids : List ClassId) :
    ((∃ sorted, order graph ids = .ok sorted) ↔
        ∀ id, ¬ Relation.TransGen (Depends graph ids) id id) ∧
      ((∃ sorted, order graph ids = .ok sorted) ↔
        ∃ arrangement : List ClassId, arrangement.Perm ids ∧ Arranged graph arrangement) ∧
      (∀ sorted, order graph ids = .ok sorted → sorted.Perm ids ∧ Arranged graph sorted) ∧
      ∀ error, order graph ids = .error error →
        ∃ names : List String, error = .unorderable names ∧
          names.Perm (ids.map fun id => (graph.classAt id).name) := by
  refine ⟨order_ok_iff.trans acyclic_iff_depends, order_ok_iff.trans exists_arranged_iff.symm,
    ?_, ?_⟩
  · intro sorted hsorted
    obtain ⟨hperm, hsettled⟩ := order_eq_ok hsorted
    exact ⟨hperm, settled_iff_arranged.mp hsettled⟩
  · intro error herror
    obtain ⟨left, hperm, rfl⟩ := order_eq_error herror
    exact ⟨_, rfl, hperm.map _⟩

end ModelSchema.Sql.Seeding
