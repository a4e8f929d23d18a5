import Mathlib
import ModelSchema.Check.Seed
import ModelSchema.Proofs.Graph.Growth
import ModelSchema.Proofs.Graph.References

/-!
# The search for cycles

The search follows references depth first. `Search` describes it without a bound on the number of
its steps. Each step lowers the work that is left (`cost`), and the bound is above it, so the search
ends, with what `findCycle?` gives (`search_findCycle?`).

As long as the search has not come back to its start, every reference of a visited class has been
followed or waits on the stack (`Covered`). So a search that finds nothing has come to an empty
stack: there is no way back (`no_way_back`).
-/

namespace ModelSchema.Check.Seed

def Targets (graph : Graph) (id other : ClassId) : Prop :=
  other ∈ targets graph id

/-- `targets` lists what `HasReference` relates. -/
theorem targets_iff {graph : Graph} {id other : ClassId} :
    Targets graph id other ↔ graph.HasReference id other := by
  simp only [Targets, targets, List.mem_filterMap, Graph.Property.target?_eq_some_iff,
    Graph.HasReference]

/-- The sum in `unvisited` leaves out positions beyond the last class; they would add nothing. -/
theorem targets_eq_nil {graph : Graph} {id : ClassId} (h : graph.classes.length ≤ id) :
    targets graph id = [] := by
  rw [targets, Graph.classAt_eq_default h]
  rfl

/-! ## Coverage -/

section Covered

variable {graph : Graph} {start id target : ClassId} {visited others : List ClassId}
  {stack : List (ClassId × List ClassId)}

/-- The invariant of the search: a reference of a visited class leads to a visited class other than
`start`, or it waits on the stack. -/
def Covered (graph : Graph) (start : ClassId) (visited : List ClassId)
    (stack : List (ClassId × List ClassId)) : Prop :=
  ∀ id ∈ visited, ∀ target ∈ targets graph id,
    (target ≠ start ∧ target ∈ visited) ∨ ∃ waiting, (id, waiting) ∈ stack ∧ target ∈ waiting

/-- A class without waiting references can be left. -/
theorem Covered.leave (h : Covered graph start visited ((id, []) :: stack)) :
    Covered graph start visited stack := by
  intro source hsource other hother
  rcases h source hsource other hother with hdone | ⟨waiting, hframe, hwaits⟩
  · exact .inl hdone
  · rcases List.mem_cons.mp hframe with heq | hframe
    · cases heq
      exact absurd hwaits List.not_mem_nil
    · exact .inr ⟨waiting, hframe, hwaits⟩

/-- Following the next reference keeps the others covered. `Covered.skip` and `Covered.enter` are
its two cases, for a target that has been visited and for a new one. -/
theorem Covered.follow (h : Covered graph start visited ((id, target :: others) :: stack))
    (htarget : target ≠ start) {more : List ClassId} (hmore : ∀ source ∈ visited, source ∈ more)
    (hfollowed : target ∈ more) :
    ∀ source ∈ visited, ∀ other ∈ targets graph source, (other ≠ start ∧ other ∈ more) ∨
      ∃ waiting, (source, waiting) ∈ (id, others) :: stack ∧ other ∈ waiting := by
  intro source hsource other hother
  rcases h source hsource other hother with hdone | ⟨waiting, hframe, hwaits⟩
  · exact .inl ⟨hdone.1, hmore other hdone.2⟩
  · rcases List.mem_cons.mp hframe with heq | hframe
    · cases heq
      rcases List.mem_cons.mp hwaits with rfl | hwaits
      · exact .inl ⟨htarget, hfollowed⟩
      · exact .inr ⟨others, List.mem_cons_self, hwaits⟩
    · exact .inr ⟨waiting, List.mem_cons_of_mem _ hframe, hwaits⟩

theorem Covered.skip (h : Covered graph start visited ((id, target :: others) :: stack))
    (htarget : target ≠ start) (hvisited : target ∈ visited) :
    Covered graph start visited ((id, others) :: stack) :=
  h.follow htarget (fun _ hsource => hsource) hvisited

theorem Covered.enter (h : Covered graph start visited ((id, target :: others) :: stack))
    (htarget : target ≠ start) :
    Covered graph start (target :: visited)
      ((target, targets graph target) :: (id, others) :: stack) := by
  intro source hsource other hother
  rcases List.mem_cons.mp hsource with rfl | hsource
  · exact .inr ⟨_, List.mem_cons_self, hother⟩
  · have hfollowed := h.follow htarget (fun _ => List.mem_cons_of_mem _) List.mem_cons_self
    rcases hfollowed source hsource other hother with hdone | ⟨waiting, hframe, hwaits⟩
    · exact .inl hdone
    · exact .inr ⟨waiting, List.mem_cons_of_mem _ hframe, hwaits⟩

end Covered

/-! ## Work -/

def unvisited (graph : Graph) (visited : List ClassId) : Nat :=
  ∑ id ∈ (Finset.range graph.classes.length).filter (· ∉ visited), (targets graph id).length

/-- Visiting a class takes its references out of the sum, whether it is a class of the graph or not.
-/
theorem unvisited_cons (graph : Graph) {visited : List ClassId} {id : ClassId}
    (h : id ∉ visited) :
    (targets graph id).length + unvisited graph (id :: visited) = unvisited graph visited := by
  have hfilter : (Finset.range graph.classes.length).filter (· ∉ id :: visited) =
      ((Finset.range graph.classes.length).filter (· ∉ visited)).erase id := by
    ext other
    simp only [List.mem_cons, Finset.mem_filter, Finset.mem_erase]
    tauto
  rw [unvisited, unvisited, hfilter]
  by_cases hid : id < graph.classes.length
  · have hin : id ∈ (Finset.range graph.classes.length).filter (· ∉ visited) :=
      Finset.mem_filter.mpr ⟨Finset.mem_range.mpr hid, h⟩
    exact Finset.add_sum_erase _ (fun other => (targets graph other).length) hin
  · have hout : id ∉ (Finset.range graph.classes.length).filter (· ∉ visited) := fun hmem =>
      hid (Finset.mem_range.mp (Finset.mem_filter.mp hmem).1)
    rw [Finset.erase_eq_of_notMem hout, targets_eq_nil (Nat.le_of_not_lt hid), List.length_nil,
      Nat.zero_add]

/-- The steps that are left at most: one to leave each class on the stack, and two for each
reference that has not been followed, since it may enter a class that must be left again. -/
def cost (graph : Graph) (visited : List ClassId) (stack : List (ClassId × List ClassId)) : Nat :=
  (stack.map fun frame => 2 * frame.2.length + 1).sum + 2 * unvisited graph visited

/-- The search for a way back to `start`, for as many steps as it takes. It ends with the classes on
the way, or with nothing when the stack is empty. -/
inductive Search (graph : Graph) (start : ClassId) :
    List ClassId → List (ClassId × List ClassId) → Option (List ClassId) → Prop
  | exhausted {visited : List ClassId} : Search graph start visited [] none
  | found {visited others : List ClassId} {id : ClassId} {stack : List (ClassId × List ClassId)} :
      Search graph start visited ((id, start :: others) :: stack)
        (some (id :: stack.map (·.1)).reverse)
  | leave {visited : List ClassId} {id : ClassId} {stack : List (ClassId × List ClassId)}
      {result : Option (List ClassId)} (h : Search graph start visited stack result) :
      Search graph start visited ((id, []) :: stack) result
  | skip {visited others : List ClassId} {id target : ClassId}
      {stack : List (ClassId × List ClassId)} {result : Option (List ClassId)}
      (htarget : target ≠ start) (hvisited : target ∈ visited)
      (h : Search graph start visited ((id, others) :: stack) result) :
      Search graph start visited ((id, target :: others) :: stack) result
  | enter {visited others : List ClassId} {id target : ClassId}
      {stack : List (ClassId × List ClassId)} {result : Option (List ClassId)}
      (htarget : target ≠ start) (hvisited : target ∉ visited)
      (h : Search graph start (target :: visited)
        ((target, targets graph target) :: (id, others) :: stack) result) :
      Search graph start visited ((id, target :: others) :: stack) result

/-- Within enough steps the search ends: `searchCycle` takes the rules of `Search`, and each of them
lowers `cost`. -/
theorem search_of_cost_lt {graph : Graph} {start : ClassId} (fuel : Nat)
    (visited : List ClassId) (stack : List (ClassId × List ClassId))
    (hcost : cost graph visited stack < fuel) :
    Search graph start visited stack (searchCycle graph start fuel visited stack) := by
  induction fuel generalizing visited stack with
  | zero => exact absurd hcost (Nat.not_lt_zero _)
  | succ fuel ih =>
      match stack with
      | [] => exact .exhausted
      | (id, []) :: stack =>
          refine .leave (ih visited stack ?_)
          simp only [cost, List.map_cons, List.sum_cons, List.length_nil] at hcost ⊢
          omega
      | (id, target :: others) :: stack =>
          rw [searchCycle]
          simp only [cost, List.map_cons, List.sum_cons, List.length_cons] at hcost
          split
          · next htarget =>
            cases htarget
            exact .found
          · next htarget =>
            split
            · next hvisited =>
              refine .skip htarget hvisited (ih visited ((id, others) :: stack) ?_)
              simp only [cost, List.map_cons, List.sum_cons]
              omega
            · next hvisited =>
              -- The references of the class move from those not visited to the stack.
              have hentered := unvisited_cons graph hvisited
              refine .enter htarget hvisited (ih (target :: visited) _ ?_)
              simp only [cost, List.map_cons, List.sum_cons]
              omega

/-- A search that finds nothing has covered all it visited: `Covered` is kept up to the empty stack,
where nothing waits. -/
theorem covered_of_search {graph : Graph} {start : ClassId} {visited : List ClassId}
    {stack : List (ClassId × List ClassId)} {result : Option (List ClassId)}
    (h : Search graph start visited stack result) (hresult : result = none)
    (hcovered : Covered graph start visited stack) :
    ∃ all, (∀ id ∈ visited, id ∈ all) ∧ Covered graph start all [] := by
  induction h with
  | @exhausted visited => exact ⟨visited, fun _ hid => hid, hcovered⟩
  | found => cases hresult
  | leave _ ih => exact ih hresult hcovered.leave
  | skip htarget hvisited _ ih => exact ih hresult (hcovered.skip htarget hvisited)
  | enter htarget _ _ ih =>
      obtain ⟨all, hall, hdone⟩ := ih hresult (hcovered.enter htarget)
      exact ⟨all, fun source hsource => hall source (List.mem_cons_of_mem _ hsource), hdone⟩

/-! ## Cycles -/

/-- The bound in `findCycle?` is made of the number of all references. -/
theorem references_eq (graph : Graph) :
    (graph.classIds.flatMap (targets graph)).length = unvisited graph [] := by
  rw [List.length_flatMap, unvisited, Finset.filter_true_of_mem fun _ _ => List.not_mem_nil]
  rfl

/-- The search ends from every class. So `none` is never the answer of a search that was cut short.
-/
theorem search_findCycle? (graph : Graph) (start : ClassId) :
    Search graph start [start] [(start, targets graph start)] (findCycle? graph start) := by
  apply search_of_cost_lt
  have hfirst := unvisited_cons graph (List.not_mem_nil (a := start))
  rw [references_eq]
  simp only [cost, List.map_cons, List.map_nil, List.sum_cons, List.sum_nil]
  omega

/-- If the search finds nothing, references do not lead back: what was visited is closed under
`Targets`, and `start` is not among the targets. -/
theorem no_way_back {graph : Graph} {start : ClassId} (h : findCycle? graph start = none) :
    ¬ Relation.TransGen (Targets graph) start start := by
  have hstart : Covered graph start [start] [(start, targets graph start)] := by
    intro id hid target htarget
    cases List.mem_singleton.mp hid
    exact .inr ⟨_, List.mem_cons_self, htarget⟩
  obtain ⟨all, hall, hdone⟩ := covered_of_search (search_findCycle? graph start) h hstart
  -- Nothing waits any more: what has been visited is closed under references.
  have hclosed {id target : ClassId} (hid : id ∈ all) (htarget : Targets graph id target) :
      target ≠ start ∧ target ∈ all := by
    rcases hdone id hid target htarget with hvisited | ⟨_, hframe, -⟩
    · exact hvisited
    · exact absurd hframe List.not_mem_nil
  have hreach {target : ClassId} (hpath : Relation.TransGen (Targets graph) start target) :
      target ≠ start ∧ target ∈ all := by
    induction hpath with
    | single hstep => exact hclosed (hall start List.mem_cons_self) hstep
    | tail _ hstep ih => exact hclosed ih.2 hstep
  intro hcycle
  exact (hreach hcycle).1 rfl

end ModelSchema.Check.Seed
