import Mathlib
import ModelSchema.Proofs.Graph.Growth

/-!
# Ancestors

Following parents from a class either ends at a class without parent or runs into a cycle. The walk
tells the two apart (`isCyclic_ancestors_iff`), and where there is no cycle it has met exactly the
proper ancestors (`mem_ancestors_iff`). The number of steps is bounded, but the bound is never
reached: every class that the walk has left has a parent, and there are only so many of those
(`length_le_of_parents`).
-/

namespace ModelSchema.Graph

def IsParent (graph : Graph) (id parent : ClassId) : Prop :=
  (graph.classAt id).parent = some parent

/-- Parents, the parents of those and so on form no cycle. A class may be off a cycle and still not
be rooted, if its parents lead into one. -/
def Rooted (graph : Graph) (id : ClassId) : Prop :=
  ∀ ancestor, Relation.ReflTransGen graph.IsParent id ancestor →
    ¬ Relation.TransGen graph.IsParent ancestor ancestor

variable {graph : Graph}

/-- Beyond the last class there are no parents (`classAt_eq_default`). -/
theorem lt_of_isParent {id parent : ClassId} (h : graph.IsParent id parent) :
    id < graph.classes.length := by
  apply Nat.lt_of_not_le
  intro hge
  rw [IsParent, classAt_eq_default hge] at h
  cases h

/-- Classes with a parent are classes of the graph, so there are at most as many different ones.
This bounds the walk. -/
theorem length_le_of_parents {seen : List ClassId} (hnodup : seen.Nodup)
    (h : ∀ id ∈ seen, ∃ parent, graph.IsParent id parent) :
    seen.length ≤ graph.classes.length := by
  have hsubset : seen ⊆ List.range graph.classes.length := by
    intro id hid
    obtain ⟨parent, hparent⟩ := h id hid
    exact List.mem_range.mpr (lt_of_isParent hparent)
  simpa using (hnodup.subperm hsubset).length_le

/-- A class has one parent, so what it reaches is its parent or reached from there. -/
theorem reflTransGen_of_isParent {id parent ancestor : ClassId} (h : graph.IsParent id parent)
    (hreach : Relation.TransGen graph.IsParent id ancestor) :
    Relation.ReflTransGen graph.IsParent parent ancestor := by
  obtain ⟨other, hother, hrest⟩ := Relation.TransGen.head'_iff.mp hreach
  cases h.symm.trans hother
  exact hrest

theorem not_transGen_of_parent_eq_none {id : ClassId} (h : (graph.classAt id).parent = none)
    (ancestor : ClassId) : ¬ Relation.TransGen graph.IsParent id ancestor := by
  intro hreach
  obtain ⟨other, hother, -⟩ := Relation.TransGen.head'_iff.mp hreach
  rw [IsParent, h] at hother
  cases hother

theorem rooted_of_parent_eq_none {id : ClassId} (h : (graph.classAt id).parent = none) :
    graph.Rooted id := by
  intro ancestor hreach
  rcases Relation.reflTransGen_iff_eq_or_transGen.mp hreach with rfl | hreach
  · exact not_transGen_of_parent_eq_none h ancestor
  · exact absurd hreach (not_transGen_of_parent_eq_none h ancestor)

/-- What the parent reaches is what the class reaches, but for the class itself. -/
theorem Rooted.of_isParent {id parent : ClassId} (h : graph.Rooted parent)
    (hparent : graph.IsParent id parent) : graph.Rooted id := by
  intro ancestor hreach hcycle
  rcases Relation.reflTransGen_iff_eq_or_transGen.mp hreach with rfl | hreach
  · -- A cycle through the class passes through its parent too.
    have hback := reflTransGen_of_isParent hparent hcycle
    exact h ancestor hback hcycle
  · exact h ancestor (reflTransGen_of_isParent hparent hreach) hcycle

/-! ## The walk -/

/-- A walk that ends has not been on a cycle, and has met what its start reaches. Nothing is asked
of `fuel` and `seen`: to end is enough. -/
theorem walk_of_not_cyclic {fuel : Nat} {seen : List ClassId} {start : ClassId}
    (h : (ancestorsFrom graph fuel seen (some start)).isCyclic = false) :
    graph.Rooted start ∧ ∀ ancestor,
      ancestor ∈ (ancestorsFrom graph fuel seen (some start)).chain ↔
        Relation.ReflTransGen graph.IsParent start ancestor := by
  -- On the bound, in step with `ancestorsFrom`: each round moves `start` to its parent.
  induction fuel generalizing seen start with
  | zero => cases h
  | succ fuel ih =>
      rw [ancestorsFrom] at h ⊢
      split at h
      · cases h
      · next hnew =>
        rw [if_neg hnew]
        dsimp only at h ⊢
        cases hparent : (graph.classAt start).parent with
        | none =>
            refine ⟨rooted_of_parent_eq_none hparent, fun ancestor => ?_⟩
            rw [Relation.reflTransGen_iff_eq_or_transGen]
            simp [ancestorsFrom, not_transGen_of_parent_eq_none hparent]
        | some parent =>
            rw [hparent] at h
            obtain ⟨hrooted, hchain⟩ := ih h
            refine ⟨hrooted.of_isParent hparent, fun ancestor => ?_⟩
            rw [List.mem_cons, hchain, Relation.reflTransGen_iff_eq_or_transGen (a := start)]
            refine or_congr_right ⟨fun hreach => ?_, reflTransGen_of_isParent hparent⟩
            exact Relation.TransGen.head' hparent hreach

/-- A walk that is stopped has come back to a class it had met, or has run out of `fuel`. The bound
rules out the second: the classes in `seen` all have parents. -/
theorem exists_cycle_of_walk {fuel : Nat} {seen : List ClassId} {start : ClassId}
    (hfuel : graph.classes.length < fuel + seen.length) (hnodup : seen.Nodup)
    (hseen : ∀ id ∈ seen, Relation.TransGen graph.IsParent id start)
    (h : (ancestorsFrom graph fuel seen (some start)).isCyclic = true) :
    ∃ ancestor, Relation.ReflTransGen graph.IsParent start ancestor ∧
      Relation.TransGen graph.IsParent ancestor ancestor := by
  -- All of `seen` reaches `start`; that is what makes a class met again a cycle.
  induction fuel generalizing seen start with
  | zero =>
      have hparents : ∀ id ∈ seen, ∃ parent, graph.IsParent id parent := by
        intro id hid
        obtain ⟨parent, hparent, -⟩ := Relation.TransGen.head'_iff.mp (hseen id hid)
        exact ⟨parent, hparent⟩
      have hbound := length_le_of_parents hnodup hparents
      omega
  | succ fuel ih =>
      rw [ancestorsFrom] at h
      split at h
      · next hknown => exact ⟨start, .refl, hseen start hknown⟩
      · next hnew =>
        dsimp only at h
        cases hparent : (graph.classAt start).parent with
        | none => simp [hparent, ancestorsFrom] at h
        | some parent =>
            rw [hparent] at h
            have hmore : ∀ id ∈ start :: seen, Relation.TransGen graph.IsParent id parent := by
              intro id hid
              rcases List.mem_cons.mp hid with rfl | hid
              · exact .single hparent
              · exact .tail (hseen id hid) hparent
            have hleft : graph.classes.length < fuel + (start :: seen).length := by
              rw [List.length_cons]
              omega
            obtain ⟨ancestor, hreach, hcycle⟩ :=
              ih hleft (List.nodup_cons.mpr ⟨hnew, hnodup⟩) hmore h
            exact ⟨ancestor, .head hparent hreach, hcycle⟩

/-- The flag of `Graph.ancestors` is exact. -/
theorem isCyclic_ancestors_iff (id : ClassId) :
    (graph.ancestors id).isCyclic = false ↔ graph.Rooted id := by
  rw [ancestors]
  cases hparent : (graph.classAt id).parent with
  | none => exact ⟨fun _ => rooted_of_parent_eq_none hparent, fun _ => rfl⟩
  | some parent =>
      constructor
      · intro h
        exact (walk_of_not_cyclic h).1.of_isParent hparent
      · intro h
        have hstart : ∀ other ∈ [id], Relation.TransGen graph.IsParent other parent := by
          intro other hother
          rw [List.mem_singleton.mp hother]
          exact .single hparent
        rw [← Bool.not_eq_true]
        intro hcyclic
        obtain ⟨ancestor, hreach, hcycle⟩ :=
          exists_cycle_of_walk (by simp) (List.nodup_singleton id) hstart hcyclic
        exact h ancestor (.head hparent hreach) hcycle

/-- Without a cycle, `Graph.ancestors` has met the transitive closure of `IsParent`. -/
theorem mem_ancestors_iff {id : ClassId} (h : graph.Rooted id) (ancestor : ClassId) :
    ancestor ∈ (graph.ancestors id).chain ↔ Relation.TransGen graph.IsParent id ancestor := by
  have hends := (isCyclic_ancestors_iff id).mpr h
  rw [ancestors] at hends ⊢
  cases hparent : (graph.classAt id).parent with
  | none => simp [ancestorsFrom, not_transGen_of_parent_eq_none hparent]
  | some parent =>
      rw [hparent] at hends
      rw [(walk_of_not_cyclic hends).2]
      exact ⟨fun hreach => .head' hparent hreach, reflTransGen_of_isParent hparent⟩

end ModelSchema.Graph
