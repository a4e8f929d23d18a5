import ModelSchema.Proofs.Graph.Ancestors

/-!
# The walk along parents

`Walk` describes how ancestors are collected, without a bound on the number of steps. In every graph
the walk from a class ends, with what `ancestors` gives (`walk_ancestors`), and it can end in no
other way (`Walk.eq`). So what holds of every walk holds of `ancestors`: it meets no class twice,
goes from parent to parent, and stops at a class without parent or at one whose parent it has met.
The walk stops because of a cycle exactly if parents never lead to a class without parent, whether
or not its start is on that cycle (`isCyclic_ancestors_iff_forebear`).
-/

namespace ModelSchema.Graph

/-- Going from parent to parent. The walk ends at a class without parent, or when it comes to a
class it has seen. These are the three cases of `ancestorsFrom`, without its bound. -/
inductive Walk (graph : Graph) : List ClassId → Option ClassId → Ancestry → Prop
  | root {seen : List ClassId} : Walk graph seen none ⟨[], false⟩
  | again {seen : List ClassId} {parent : ClassId} (hseen : parent ∈ seen) :
      Walk graph seen (some parent) ⟨[], true⟩
  | step {seen : List ClassId} {parent : ClassId} {above : Ancestry} (hnew : parent ∉ seen)
      (h : Walk graph (parent :: seen) (graph.classAt parent).parent above) :
      Walk graph seen (some parent) ⟨parent :: above.chain, above.isCyclic⟩

def forebear (graph : Graph) (id : ClassId) : Nat → Option ClassId
  | 0 => some id
  | n + 1 => (graph.forebear id n).bind fun other => (graph.classAt other).parent

variable {graph : Graph}

/-- The first step taken first instead of last. -/
theorem forebear_succ (id : ClassId) (n : Nat) :
    graph.forebear id (n + 1) =
      (graph.classAt id).parent.bind fun parent => graph.forebear parent n := by
  induction n with
  | zero => cases h : (graph.classAt id).parent <;> simp [forebear, h]
  | succ n ih =>
      rw [forebear, ih, Option.bind_assoc]
      rfl

/-! ## Walks -/

namespace Walk

variable {seen : List ClassId} {next : Option ClassId} {found : Ancestry}

/-- A walk has one outcome: at each class only one of the three rules applies. -/
theorem eq {other : Ancestry} (h : graph.Walk seen next found)
    (hother : graph.Walk seen next other) : found = other := by
  induction h generalizing other with
  | root =>
      cases hother
      rfl
  | again hseen =>
      cases hother with
      | again => rfl
      | step hnew => exact absurd hseen hnew
  | step hnew _ ih =>
      cases hother with
      | again hseen => exact absurd hseen hnew
      | step _ habove => rw [ih habove]

/-- A walk meets new classes only, and each of them once. -/
theorem nodup (h : graph.Walk seen next found) :
    found.chain.Nodup ∧ ∀ id ∈ found.chain, id ∉ seen := by
  -- On the walk: what is met later has not been seen when `parent` has.
  induction h with
  | root => exact ⟨.nil, fun id hid => absurd hid List.not_mem_nil⟩
  | again => exact ⟨.nil, fun id hid => absurd hid List.not_mem_nil⟩
  | @step seen parent above hnew _ ih =>
      obtain ⟨hnodup, habove⟩ := ih
      refine ⟨List.nodup_cons.mpr ⟨fun hmem => habove parent hmem List.mem_cons_self, hnodup⟩, ?_⟩
      intro id hid
      rcases List.mem_cons.mp hid with rfl | hid
      · exact hnew
      · exact fun hseen => habove id hid (List.mem_cons_of_mem _ hseen)

/-- A walk goes from parent to parent, beginning with the class that it starts from. -/
theorem isChain {id : ClassId} (h : graph.Walk seen (graph.classAt id).parent found) :
    List.IsChain graph.IsParent (id :: found.chain) := by
  generalize hnext : (graph.classAt id).parent = next at h
  induction h generalizing id with
  | root => exact List.isChain_singleton id
  | again => exact List.isChain_singleton id
  | step _ _ ih => exact List.isChain_cons_cons.mpr ⟨hnext, ih rfl⟩

/-- Unless it comes back at once, a walk begins with the parent of its start. -/
theorem head? {id : ClassId} (h : graph.Walk [id] next found) (hself : next ≠ some id) :
    found.chain.head? = next := by
  cases h with
  | root => rfl
  | again hseen => exact absurd (congrArg some (List.mem_singleton.mp hseen)) hself
  | step => rfl

/-- A walk ends at once with a cycle if it comes back to its start, and only then. -/
theorem eq_nil_iff {id : ClassId} (h : graph.Walk [id] next found) :
    next = some id ↔ found = ⟨[], true⟩ := by
  cases h with
  | root => simp
  | again hseen => simp [List.mem_singleton.mp hseen]
  | @step _ parent _ hnew => simpa using hnew

/-- A walk that does not come to a cycle meets everything that parents lead to. -/
theorem getElem?_chain (h : graph.Walk seen next found) (hends : found.isCyclic = false) (n : Nat) :
    found.chain[n]? = next.bind fun parent => graph.forebear parent n := by
  induction h generalizing n with
  | root => rfl
  | again => cases hends
  | @step _ parent above _ _ ih =>
      cases n with
      | zero => rfl
      | succ n =>
          rw [List.getElem?_cons_succ, ih hends n, Option.bind_some]
          exact (forebear_succ parent n).symm

/-- Without a cycle, the last class has no parent. If there is none, that is the start itself, hence
`getLastD`. -/
theorem parent_getLastD {id : ClassId} (h : graph.Walk seen (graph.classAt id).parent found)
    (hends : found.isCyclic = false) :
    (graph.classAt (found.chain.getLastD id)).parent = none := by
  generalize hnext : (graph.classAt id).parent = next at h
  induction h generalizing id with
  | root => exact hnext
  | again => cases hends
  | step _ _ ih =>
      rw [List.getLastD_cons]
      exact ih hends rfl

/-- A walk that comes to a cycle stops at a class whose parent it has met. -/
theorem exists_isParent_getLastD {id : ClassId}
    (h : graph.Walk seen (graph.classAt id).parent found) (hcyclic : found.isCyclic = true) :
    ∃ parent, graph.IsParent (found.chain.getLastD id) parent ∧
      (parent ∈ seen ∨ parent ∈ found.chain) := by
  generalize hnext : (graph.classAt id).parent = next at h
  induction h generalizing id with
  | root => cases hcyclic
  | @again _ parent hseen => exact ⟨parent, hnext, .inl hseen⟩
  | step _ _ ih =>
      obtain ⟨parent, hparent, hmet⟩ := ih hcyclic rfl
      rw [List.getLastD_cons]
      refine ⟨parent, hparent, ?_⟩
      -- What was seen further up includes the class that the walk has just met.
      rcases hmet with hseen | habove
      · rcases List.mem_cons.mp hseen with rfl | hseen
        · exact .inr List.mem_cons_self
        · exact .inl hseen
      · exact .inr (List.mem_cons_of_mem _ habove)

end Walk

/-! ## The bounded walk -/

/-- The bound on the number of steps is never reached: the classes seen all have a parent, and there
are not as many. -/
theorem walk_ancestorsFrom {fuel : Nat} {seen : List ClassId} {start : ClassId}
    (hfuel : graph.classes.length < fuel + seen.length) (hnodup : seen.Nodup)
    (hseen : ∀ id ∈ seen, ∃ parent, graph.IsParent id parent) :
    graph.Walk seen (some start) (ancestorsFrom graph fuel seen (some start)) := by
  induction fuel generalizing seen start with
  -- Without fuel, more classes with a parent would have been seen than there are classes.
  | zero =>
      have hbound := length_le_of_parents hnodup hseen
      omega
  | succ fuel ih =>
      rw [ancestorsFrom]
      split
      · next hknown => exact .again hknown
      · next hnew =>
        refine .step hnew ?_
        cases hparent : (graph.classAt start).parent with
        | none =>
            rw [ancestorsFrom]
            exact .root
        | some parent =>
            refine ih ?_ (List.nodup_cons.mpr ⟨hnew, hnodup⟩) ?_
            · rw [List.length_cons]
              omega
            · intro id hid
              rcases List.mem_cons.mp hid with rfl | hid
              · exact ⟨parent, hparent⟩
              · exact hseen id hid

/-- `Graph.ancestors` is the walk from a class: the fuel that it starts with is one more than there
are classes. -/
theorem walk_ancestors (graph : Graph) (id : ClassId) :
    graph.Walk [id] (graph.classAt id).parent (graph.ancestors id) := by
  rw [ancestors]
  cases hparent : (graph.classAt id).parent with
  | none =>
      rw [ancestorsFrom]
      exact .root
  | some parent =>
      refine walk_ancestorsFrom (by simp) (List.nodup_singleton id) fun other hother => ?_
      rw [List.mem_singleton.mp hother]
      exact ⟨parent, hparent⟩

/-- A class whose parents lead to a root is `Rooted`. -/
theorem rooted_of_forebear {id root : ClassId} {n : Nat} (h : graph.forebear id n = some root)
    (hroot : (graph.classAt root).parent = none) : graph.Rooted id := by
  induction n generalizing id with
  | zero =>
      cases h
      exact rooted_of_parent_eq_none hroot
  | succ n ih =>
      rw [forebear_succ, Option.bind_eq_some_iff] at h
      obtain ⟨parent, hparent, hrest⟩ := h
      exact (ih hrest).of_isParent hparent

/-- The last class of a walk that has met no cycle is the root that parents lead to. Conversely, a
walk on a cycle would never come to a class without parent. -/
theorem isCyclic_ancestors_iff_forebear (id : ClassId) :
    (graph.ancestors id).isCyclic = false ↔
      ∃ n root, graph.forebear id n = some root ∧ (graph.classAt root).parent = none := by
  constructor
  · intro hends
    have hwalk := walk_ancestors graph id
    refine ⟨(graph.ancestors id).chain.length, _, ?_, hwalk.parent_getLastD hends⟩
    cases hchain : (graph.ancestors id).chain.reverse with
    | nil =>
        rw [List.reverse_eq_nil_iff.mp hchain]
        rfl
    | cons last rest =>
        have hsplit : (graph.ancestors id).chain = rest.reverse ++ [last] := by
          rw [← List.reverse_reverse (graph.ancestors id).chain, hchain, List.reverse_cons]
        have hend := hwalk.getElem?_chain hends rest.length
        rw [← forebear_succ, hsplit] at hend
        simpa [hsplit] using hend.symm
  · rintro ⟨n, root, hreach, hroot⟩
    exact (isCyclic_ancestors_iff id).mpr (rooted_of_forebear hreach hroot)

/-! ## Lineages -/

/-- What there is to know about the ancestors of a class. -/
structure Lineage (graph : Graph) (id : ClassId) (found : Ancestry) : Prop where
  /-- The walk ends, and in one way only. -/
  ends : ∀ other, graph.Walk [id] (graph.classAt id).parent other ↔ other = found
  /-- It takes fewer steps than there are classes. -/
  length : found.chain.length < graph.classes.length
  /-- It never leaves the graph. -/
  known : ∀ ancestor ∈ found.chain, ancestor < graph.classes.length
  nodup : found.chain.Nodup
  start : id ∉ found.chain
  /-- It begins with the parent, unless that is the class itself. -/
  first : (graph.classAt id).parent ≠ some id → found.chain.head? = (graph.classAt id).parent
  /-- A class that is its own parent has no ancestors, and is on a cycle. No other class has none
  and a cycle. -/
  itself : (graph.classAt id).parent = some id ↔ found = ⟨[], true⟩
  /-- It goes from parent to parent. -/
  parents : List.IsChain graph.IsParent (id :: found.chain)
  /-- Without a cycle, parents lead to a class without parent. -/
  rooted : found.isCyclic = false ↔
    ∃ n root, graph.forebear id n = some root ∧ (graph.classAt root).parent = none
  /-- Then the ancestors are all there, nearest first. -/
  complete : found.isCyclic = false → ∀ n, found.chain[n]? = graph.forebear id (n + 1)
  /-- With a cycle, the parent of the last class came before. -/
  returns : found.isCyclic = true →
    ∃ parent, graph.IsParent (found.chain.getLastD id) parent ∧
      (parent = id ∨ parent ∈ found.chain)

/-- What a chain of parents has met after its start are parents. -/
theorem exists_isParent_of_isChain {id ancestor : ClassId} {chain : List ClassId}
    (h : List.IsChain graph.IsParent (id :: chain)) (hmem : ancestor ∈ chain) :
    ∃ child, graph.IsParent child ancestor := by
  induction chain generalizing id with
  | nil => exact absurd hmem List.not_mem_nil
  | cons next rest ih =>
      obtain ⟨hnext, hrest⟩ := List.isChain_cons_cons.mp h
      rcases List.mem_cons.mp hmem with rfl | hmem
      · exact ⟨id, hnext⟩
      · exact ih hrest hmem

/-- If all parents are classes of the graph, the ancestors of a class are found in fewer steps than
there are classes, be there cycles or not. -/
theorem lineage_ancestors
    (hparents : ∀ c ∈ graph.classes, ∀ parent, c.parent = some parent →
      parent < graph.classes.length)
    {id : ClassId} (hid : id < graph.classes.length) :
    Lineage graph id (graph.ancestors id) := by
  have hwalk := walk_ancestors graph id
  obtain ⟨hnodup, hnew⟩ := hwalk.nodup
  have hstart : id ∉ (graph.ancestors id).chain := fun hmem =>
    hnew id hmem (List.mem_singleton_self id)
  have hknown : ∀ ancestor ∈ (graph.ancestors id).chain, ancestor < graph.classes.length := by
    intro ancestor hmem
    obtain ⟨child, hchild⟩ := exists_isParent_of_isChain hwalk.isChain hmem
    have hclass : graph.classAt child ∈ graph.classes := by
      simp [classAt, lt_of_isParent hchild]
    exact hparents _ hclass ancestor hchild
  have hlength : (id :: (graph.ancestors id).chain).length ≤ graph.classes.length := by
    have hsubset : id :: (graph.ancestors id).chain ⊆ List.range graph.classes.length := by
      intro other hother
      rcases List.mem_cons.mp hother with rfl | hother
      · exact List.mem_range.mpr hid
      · exact List.mem_range.mpr (hknown other hother)
    simpa using ((List.nodup_cons.mpr ⟨hstart, hnodup⟩).subperm hsubset).length_le
  refine ⟨fun other => ⟨fun hother => hother.eq hwalk, fun heq => heq ▸ hwalk⟩, ?_, hknown, hnodup,
    hstart, hwalk.head?, hwalk.eq_nil_iff, hwalk.isChain, isCyclic_ancestors_iff_forebear id,
    fun hends n => ?_, fun hcyclic => ?_⟩
  · rwa [List.length_cons] at hlength
  · rw [hwalk.getElem?_chain hends, forebear_succ]
  · obtain ⟨parent, hparent, hmet⟩ := hwalk.exists_isParent_getLastD hcyclic
    exact ⟨parent, hparent, hmet.imp_left List.mem_singleton.mp⟩

/-- The parents of the first class lead into a cycle that it is not on, and those of class 4 to the
class before. The last class is its own parent. -/
def loop : Graph :=
  { empty with
    classes := [some 1, some 2, some 1, none, some 3, some 5].map fun parent =>
      { (default : Class) with parent } }

theorem lineage_ancestors_loop :
    (∀ c ∈ loop.classes, ∀ parent, c.parent = some parent → parent < loop.classes.length) ∧
      loop.classes.length = 6 ∧
      loop.ancestors 0 = ⟨[1, 2], true⟩ ∧ Lineage loop 0 (loop.ancestors 0) ∧
      loop.ancestors 4 = ⟨[3], false⟩ ∧ Lineage loop 4 (loop.ancestors 4) ∧
      loop.ancestors 5 = ⟨[], true⟩ ∧ Lineage loop 5 (loop.ancestors 5) := by
  have hparents : ∀ c ∈ loop.classes, ∀ parent, c.parent = some parent →
      parent < loop.classes.length := by
    simp [loop]
  exact ⟨hparents, rfl, by decide, lineage_ancestors hparents (by decide), by decide,
    lineage_ancestors hparents (by decide), by decide, lineage_ancestors hparents (by decide)⟩

end ModelSchema.Graph
