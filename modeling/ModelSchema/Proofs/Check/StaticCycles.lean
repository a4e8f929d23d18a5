import ModelSchema.Proofs.Check.Cycle

/-!
# Cycles of static lists

A static list with a batch that refers back to itself cannot be filled. Two facts make the report
about such lists exact:

* the classes on the stack of the search form a way along references without repetition (`Way`), so
  what is found is a closed walk (`closedWalk_of_search`), and there is one whenever references lead
  back;
* a cycle that is found is left out of the report only if one with the same classes is in it
  (`exists_reports`), so that every list on a cycle is named by some finding.
-/

namespace ModelSchema.Check.Seed

open ModelSchema.Seed (Batch)

/-! ## Ways -/

/-- The classes of a stack, the last one entered first. -/
abbrev entered (stack : List (ClassId × List ClassId)) : List ClassId :=
  stack.map (·.1)

/-- A walk along references that starts and ends with one class and passes every other class once at
most. This is what the report promises to show. -/
structure ClosedWalk (graph : Graph) (start : ClassId) (path : List ClassId) : Prop where
  chain : path.IsChain graph.HasReference
  simple : ∃ inner, path = start :: (inner ++ [start]) ∧ (start :: inner).Nodup

theorem ClosedWalk.start_mem {graph : Graph} {start : ClassId} {cycle : List ClassId}
    (h : ClosedWalk graph start (cycle ++ [start])) : start ∈ cycle := by
  obtain ⟨inner, hpath, -⟩ := h.simple
  rw [← List.cons_append] at hpath
  rw [List.append_cancel_right hpath]
  exact List.mem_cons_self

/-- The stack holds a way from `start` without repetition, and references that lead on. The second
invariant of `Search`; it makes what is found a walk, as `Covered` makes what is not found absent.
-/
structure Way (graph : Graph) (start : ClassId) (visited : List ClassId)
    (stack : List (ClassId × List ClassId)) : Prop where
  chain : (entered stack).IsChain fun later earlier => Targets graph earlier later
  first : ∀ id ∈ (entered stack).getLast?, id = start
  nodup : (entered stack).Nodup
  visited : ∀ id ∈ entered stack, id ∈ visited
  waiting : ∀ frame ∈ stack, ∀ target ∈ frame.2, Targets graph frame.1 target

namespace Way

variable {graph : Graph} {start id target : ClassId} {visited others : List ClassId}
  {stack : List (ClassId × List ClassId)}

/-- The end of the way is given up. -/
theorem leave (h : Way graph start visited ((id, []) :: stack)) :
    Way graph start visited stack where
  chain := h.chain.tail
  first := by
    intro other hother
    refine h.first other ?_
    rw [entered, List.map_cons, List.getLast?_cons, Option.mem_def.mp hother]
    rfl
  nodup := h.nodup.of_cons
  visited := fun other hother => h.visited other (List.mem_cons_of_mem _ hother)
  waiting := fun frame hframe => h.waiting frame (List.mem_cons_of_mem _ hframe)

/-- A reference to a class that was visited is passed over; the way stays. -/
theorem skip (h : Way graph start visited ((id, target :: others) :: stack)) :
    Way graph start visited ((id, others) :: stack) where
  chain := h.chain
  first := h.first
  nodup := h.nodup
  visited := h.visited
  waiting := by
    intro frame hframe other hother
    rcases List.mem_cons.mp hframe with rfl | hframe
    · exact h.waiting _ List.mem_cons_self other (List.mem_cons_of_mem _ hother)
    · exact h.waiting frame (List.mem_cons_of_mem _ hframe) other hother

/-- The way goes on to a class that it has not passed, since that was never visited. -/
theorem enter (h : Way graph start visited ((id, target :: others) :: stack))
    (hvisited : target ∉ visited) :
    Way graph start (target :: visited)
      ((target, targets graph target) :: (id, others) :: stack) where
  chain := .cons_cons (h.waiting _ List.mem_cons_self target List.mem_cons_self) h.chain
  first := h.first
  nodup := List.nodup_cons.mpr ⟨fun hmem => hvisited (h.visited target hmem), h.nodup⟩
  visited := by
    intro other hother
    rcases List.mem_cons.mp hother with rfl | hother
    · exact List.mem_cons_self
    · exact List.mem_cons_of_mem _ (h.visited other hother)
  waiting := by
    intro frame hframe other hother
    rcases List.mem_cons.mp hframe with rfl | hframe
    · exact hother
    · exact h.skip.waiting frame hframe other hother

/-- A reference back to the start closes the way. -/
theorem close (h : Way graph start visited ((id, start :: others) :: stack)) :
    ClosedWalk graph start ((id :: entered stack).reverse ++ [start]) where
  chain := by
    rw [← List.reverse_cons, List.isChain_reverse]
    refine .cons_cons ?_ (h.chain.imp fun _ _ htarget => targets_iff.mp htarget)
    exact targets_iff.mp (h.waiting _ List.mem_cons_self start List.mem_cons_self)
  simple := by
    -- The first class that was entered is at the end of the stack, and it is the start.
    obtain ⟨earlier, last, hsplit⟩ :=
      (List.eq_nil_or_concat' (id :: entered stack)).resolve_left (List.cons_ne_nil _ _)
    have hlast : last = start := by
      refine h.first last ?_
      rw [entered, List.map_cons, hsplit]
      simp
    have hnodup : (id :: entered stack).reverse.Nodup := List.nodup_reverse.mpr h.nodup
    rw [hsplit, hlast, List.reverse_append] at hnodup ⊢
    exact ⟨earlier.reverse, rfl, hnodup⟩

end Way

/-- What the search finds closes a way. -/
theorem closedWalk_of_search {graph : Graph} {start : ClassId} {visited : List ClassId}
    {stack : List (ClassId × List ClassId)} {result : Option (List ClassId)}
    (h : Search graph start visited stack result) (hway : Way graph start visited stack)
    {cycle : List ClassId} (hcycle : result = some cycle) :
    ClosedWalk graph start (cycle ++ [start]) := by
  induction h with
  | exhausted => cases hcycle
  | found =>
      cases hcycle
      exact hway.close
  | leave _ ih => exact ih hway.leave hcycle
  | skip _ _ _ ih => exact ih hway.skip hcycle
  | enter _ hvisited _ ih => exact ih (hway.enter hvisited) hcycle

/-- A search begins with a way that has only its start on it. -/
theorem closedWalk_of_findCycle? {graph : Graph} {start : ClassId} {cycle : List ClassId}
    (h : findCycle? graph start = some cycle) : ClosedWalk graph start (cycle ++ [start]) := by
  refine closedWalk_of_search (search_findCycle? graph start) ?_ h
  exact {
    chain := .singleton start
    first := fun _ hid => (Option.some_inj.mp hid).symm
    nodup := List.nodup_singleton start
    visited := fun _ hid => hid
    waiting := fun frame hframe target htarget => by
      cases List.mem_singleton.mp hframe
      exact htarget }

/-- The converse, by `no_way_back`: where references lead back, the search finds a cycle, although
perhaps another one than the one at hand. -/
theorem exists_findCycle? {graph : Graph} {id : ClassId}
    (h : Relation.TransGen graph.HasReference id id) :
    ∃ cycle, findCycle? graph id = some cycle := by
  rw [← Option.ne_none_iff_exists']
  intro hnone
  exact no_way_back hnone (h.lift (fun list => list) fun _ _ => targets_iff.mpr)

/-! ## Reports -/

/-- Two cycles are the same for the report if they have the same classes. The same classes can be on
two walks, in different order. -/
theorem sameMembers_iff {cycle other : List ClassId} :
    sameMembers cycle other = true ↔ ∀ id, id ∈ cycle ↔ id ∈ other := by
  simp only [sameMembers, Bool.and_eq_true, List.all_eq_true, List.contains_iff_mem]
  exact ⟨fun h id => ⟨h.1 id, h.2 id⟩, fun h => ⟨fun id => (h id).mp, fun id => (h id).mpr⟩⟩

/-- A static list has a batch of static items among `entries`. The search is only made from such
lists. -/
def Filled (graph : Graph) (entries : List (String × Batch)) (id : ClassId) : Prop :=
  ∃ entry ∈ entries, graph.classNamed? entry.1 = some id ∧ entry.2.kind = .static ∧
    (graph.classAt id).stereotype = .static

def cycleFindings (findings : List Diagnostic) : List Diagnostic :=
  findings.filter (·.code == .initStaticCycle)

/-- `cycles`, each with the list it was found from, are what a report on batches adds to the cycles
reported before. -/
structure Reports (graph : Graph) (reported : List (List ClassId))
    (entries : List (String × Batch)) (cycles : List (ClassId × List ClassId)) : Prop where
  /-- Each is found from a static list that has a batch. -/
  found : ∀ cycle ∈ cycles, Filled graph entries cycle.1 ∧ findCycle? graph cycle.1 = some cycle.2
  /-- None has the classes of a cycle reported before. -/
  new : ∀ cycle ∈ cycles, ∀ known ∈ reported, sameMembers cycle.2 known = false
  /-- No two have the same classes. -/
  distinct : cycles.Pairwise fun earlier later => sameMembers later.2 earlier.2 = false
  /-- The classes of every cycle that is found are those of a reported one. -/
  complete : ∀ id cycle, Filled graph entries id → findCycle? graph id = some cycle →
    ∃ known ∈ reported ++ cycles.map (·.2), sameMembers cycle known = true

namespace Reports

variable {graph : Graph} {reported : List (List ClassId)} {entry : String × Batch}
  {entries : List (String × Batch)} {cycles : List (ClassId × List ClassId)}

/-- A batch without a new cycle adds nothing. -/
theorem skip (h : Reports graph reported entries cycles)
    (hnone : ∀ id, graph.classNamed? entry.1 = some id →
      newCycle? graph reported id entry.2 = none) :
    Reports graph reported (entry :: entries) cycles where
  found := by
    intro cycle hcycle
    obtain ⟨⟨other, hother, hfilled⟩, hfound⟩ := h.found cycle hcycle
    exact ⟨⟨other, List.mem_cons_of_mem _ hother, hfilled⟩, hfound⟩
  new := h.new
  distinct := h.distinct
  complete := by
    rintro id cycle ⟨other, hother, hnamed, hkind, hstatic⟩ hfound
    rcases List.mem_cons.mp hother with rfl | hother
    · -- The search has found a cycle, so it is left out because it is known.
      have hknown := hnone id hnamed
      simp only [newCycle?, hkind, hstatic, hfound, beq_self_eq_true, Bool.and_self, if_true,
        Option.filter_eq_none_iff, Option.some.injEq, forall_eq', Bool.not_eq_true,
        Bool.not_eq_false', List.any_eq_true] at hknown
      obtain ⟨known, hmem, hsame⟩ := hknown
      exact ⟨known, List.mem_append_left _ hmem, hsame⟩
    · exact h.complete id cycle ⟨other, hother, hnamed, hkind, hstatic⟩ hfound

/-- A batch with a new cycle adds it. -/
theorem add {id : ClassId} {cycle : List ClassId}
    (h : Reports graph (cycle :: reported) entries cycles)
    (hnamed : graph.classNamed? entry.1 = some id)
    (hcycle : newCycle? graph reported id entry.2 = some cycle) :
    Reports graph reported (entry :: entries) ((id, cycle) :: cycles) := by
  rw [newCycle?] at hcycle
  split at hcycle
  case isFalse => cases hcycle
  next hstatic =>
  simp only [Bool.and_eq_true, beq_iff_eq] at hstatic
  obtain ⟨hfound, hnew⟩ := Option.filter_eq_some_iff.mp hcycle
  simp only [Bool.not_eq_true', List.any_eq_false, Bool.not_eq_true] at hnew
  refine ⟨?_, ?_, ?_, ?_⟩
  · intro other hother
    rcases List.mem_cons.mp hother with rfl | hother
    · exact ⟨⟨entry, List.mem_cons_self, hnamed, hstatic⟩, hfound⟩
    · obtain ⟨⟨source, hsource, hfilled⟩, hother⟩ := h.found other hother
      exact ⟨⟨source, List.mem_cons_of_mem _ hsource, hfilled⟩, hother⟩
  · intro other hother known hknown
    rcases List.mem_cons.mp hother with rfl | hother
    · exact hnew known hknown
    · exact h.new other hother known (List.mem_cons_of_mem _ hknown)
  · exact List.pairwise_cons.mpr
      ⟨fun other hother => h.new other hother cycle List.mem_cons_self, h.distinct⟩
  · rintro other found ⟨source, hsource, hother, hfilled⟩ hsearched
    rcases List.mem_cons.mp hsource with rfl | hsource
    · rw [hnamed] at hother
      cases hother
      rw [hfound] at hsearched
      cases hsearched
      exact ⟨cycle, by simp, sameMembers_iff.mpr fun _ => Iff.rfl⟩
    · obtain ⟨known, hknown, hsame⟩ :=
        h.complete other found ⟨source, hsource, hother, hfilled⟩ hsearched
      refine ⟨known, ?_, hsame⟩
      simp only [List.mem_append, List.mem_cons, List.map_cons] at hknown ⊢
      tauto

end Reports

/-- Everything else that is found about a batch has another code. -/
theorem cycleFindings_batch (c : Graph.Class) (batch : Batch) :
    cycleFindings (kind c batch ++ batch.items.flatMap (item c)) = [] := by
  rw [cycleFindings, List.filter_eq_nil_iff]
  intro diagnostic hmem
  rcases List.mem_append.mp hmem with hkind | hitem
  · rw [kind, findIf] at hkind
    split at hkind
    · cases List.mem_singleton.mp hkind
      exact Bool.false_ne_true
    · exact absurd hkind List.not_mem_nil
  · obtain ⟨row, -, hrow⟩ := List.mem_flatMap.mp hitem
    rcases List.mem_append.mp hrow with hmissing | hunknown
    · obtain ⟨property, -, rfl⟩ := List.mem_map.mp hmissing
      exact Bool.false_ne_true
    · obtain ⟨name, -, rfl⟩ := List.mem_map.mp hunknown
      exact Bool.false_ne_true

/-- The findings about cycles among those about batches. The cycles that have been reported are
handed on from batch to batch, and the induction takes them along. -/
theorem exists_reports (graph : Graph) (source : Option String) (reported : List (List ClassId))
    (entries : List (String × Batch)) :
    ∃ cycles, Reports graph reported entries cycles ∧
      cycleFindings (batches graph source reported entries) =
        cycles.map fun cycle => cycleFinding graph cycle.1 cycle.2 := by
  induction entries generalizing reported with
  | nil =>
      refine ⟨[], ⟨by simp, by simp, .nil, ?_⟩, rfl⟩
      rintro _ _ ⟨_, hentry, -⟩
      exact absurd hentry List.not_mem_nil
  | cons entry rest ih =>
      obtain ⟨name, batch⟩ := entry
      rw [batches]
      -- A batch for an unknown class, one that adds a cycle, and one that adds none.
      split
      · next hunknown =>
        obtain ⟨cycles, hreports, hfindings⟩ := ih reported
        refine ⟨cycles, hreports.skip fun id hid => ?_, hfindings⟩
        rw [hunknown] at hid
        cases hid
      · next id hnamed =>
        rw [cycleFindings, List.filter_append, ← cycleFindings, ← cycleFindings,
          cycleFindings_batch, List.nil_append]
        split
        · next cycle hcycle =>
          obtain ⟨cycles, hreports, hfindings⟩ := ih (cycle :: reported)
          refine ⟨(id, cycle) :: cycles, hreports.add hnamed hcycle, ?_⟩
          rw [List.map_cons, ← hfindings]
          rfl
        · next hnone =>
          obtain ⟨cycles, hreports, hfindings⟩ := ih reported
          refine ⟨cycles, hreports.skip fun other hother => ?_, hfindings⟩
          rw [hnamed] at hother
          cases hother
          exact hnone

/-! ## The report -/

/-- A finding says that a static list with a batch refers back to itself along a path. -/
structure Tells (graph : Graph) (seed : ModelSchema.Seed) (diagnostic : Diagnostic)
    (path : List ClassId) : Prop where
  related : diagnostic.related = path.map fun id => (graph.classAt id).name
  /-- The path is a closed walk from the list that the message names. -/
  walk : ∃ start, Filled graph seed.batches.entries start ∧ ClosedWalk graph start path ∧
    diagnostic.message = "Static list " ++ (graph.classAt start).name ++ " references itself: "
      ++ Text.join " -> " (path.map fun id => (graph.classAt id).name)

/-- The report on cycles of static lists is exact: every finding is about a closed walk from the
list it names, no two of them are about the same classes, and every static list with a batch that
can reach itself is on one of the walks. The search behind it ends from every class. -/
theorem static_cycles_exact (graph : Graph) (seed : ModelSchema.Seed) :
    (∃ paths : List (List ClassId),
      List.Forall₂ (Tells graph seed) (cycleFindings (check graph seed)) paths ∧
        (paths.Pairwise fun path other => path.toFinset ≠ other.toFinset) ∧
        ∀ id, Filled graph seed.batches.entries id →
          Relation.TransGen graph.HasReference id id → ∃ path ∈ paths, id ∈ path) ∧
      ∀ start, Search graph start [start] [(start, targets graph start)]
        (findCycle? graph start) := by
  refine ⟨?_, search_findCycle? graph⟩
  obtain ⟨cycles, hreports, hfindings⟩ :=
    exists_reports graph seed.source [] seed.batches.entries
  have hwalk (cycle : ClassId × List ClassId) (hcycle : cycle ∈ cycles) :
      ClosedWalk graph cycle.1 (cycle.2 ++ [cycle.1]) :=
    closedWalk_of_findCycle? (hreports.found cycle hcycle).2
  -- The class that closes a walk is on the cycle already.
  have hmembers (cycle : ClassId × List ClassId) (hcycle : cycle ∈ cycles) (id : ClassId) :
      id ∈ cycle.2 ++ [cycle.1] ↔ id ∈ cycle.2 := by
    rw [List.mem_append, List.mem_singleton, or_iff_left_iff_imp]
    rintro rfl
    exact (hwalk cycle hcycle).start_mem
  refine ⟨cycles.map fun cycle => cycle.2 ++ [cycle.1], ?_, ?_, ?_⟩
  · rw [check, hfindings, List.forall₂_map_left_iff, List.forall₂_map_right_iff,
      List.forall₂_same]
    intro cycle hcycle
    exact ⟨rfl, cycle.1, (hreports.found cycle hcycle).1, hwalk cycle hcycle, rfl⟩
  · rw [List.pairwise_map]
    refine hreports.distinct.imp_of_mem fun {cycle other} hcycle hother hdistinct hsame => ?_
    have hequal : sameMembers other.2 cycle.2 = true := by
      refine sameMembers_iff.mpr fun id => ?_
      have hid := Finset.ext_iff.mp hsame id
      rw [List.mem_toFinset, List.mem_toFinset, hmembers cycle hcycle, hmembers other hother] at hid
      exact hid.symm
    rw [hdistinct] at hequal
    cases hequal
  · intro id hfilled hback
    obtain ⟨cycle, hcycle⟩ := exists_findCycle? hback
    obtain ⟨known, hknown, hsame⟩ := hreports.complete id cycle hfilled hcycle
    rw [List.nil_append] at hknown
    obtain ⟨reported, hreported, rfl⟩ := List.mem_map.mp hknown
    have hmem := (closedWalk_of_findCycle? hcycle).start_mem
    exact ⟨_, List.mem_map_of_mem hreported,
      List.mem_append_left _ ((sameMembers_iff.mp hsame id).mp hmem)⟩

end ModelSchema.Check.Seed
