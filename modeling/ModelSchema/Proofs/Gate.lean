import ModelSchema.Proofs.Check.Coverage
import ModelSchema.Proofs.Seeding.Rows

/-!
# What checks guarantee

Scripts are written from graphs that have been read, seeded and checked. If the checks find none of
five mistakes (`blockingCodes`), scripts can fail for one reason only: reference lists refer to each
other in a cycle. The parts of the argument:

* every column has a type, so every class has a table (`exists_table`);
* no identifier is too long, so the schema scripts are complete (`error_schema`);
* lists get their items from batches, and a static list with a batch is on no cycle
  (`no_way_back_of_lists`), so a cycle of lists is one of reference lists (`acyclic_lists_iff`).
-/

namespace ModelSchema.Sql

open ModelSchema.Graph (Property)
open Seeding (Refers Acyclic lists order refersTo)

def blockingCodes : List Code :=
  [.propertyMissingDomain, .domainMissingPersistentType, .initStereotypeMismatch,
    .initStaticCycle, .identifierTooLong]

variable {engine : Engine} {settings : Settings} {graph : Graph}

/-! ## Tables

From columns to the whole schema: at each level, the only failures are those that a check reports.
-/

/-- The only way in which a column can fail is that it has no type. -/
theorem exists_columnOf {c : Graph.Class} {property : Property} {name : String}
    (h : (Table.persistentType? graph property).isSome = true) :
    ∃ column, Table.columnOf engine graph c property name = .ok column := by
  obtain ⟨type, htype⟩ := Option.isSome_iff_exists.mp h
  obtain ⟨text, htext⟩ : ∃ text, Table.columnType engine graph c property = .ok text := by
    simp only [Table.columnType, htype]
    split <;> exact ⟨_, rfl⟩
  rw [Table.columnOf, htext]
  exact ⟨_, rfl⟩

/-- A class whose columns have types has a table. Nothing else can go wrong in `Schema.table`. -/
theorem exists_table {id : ClassId}
    (h : ∀ property ∈ (graph.classAt id).properties, property.isColumn = true →
      (Table.persistentType? graph property).isSome = true) :
    ∃ table, Schema.table engine settings graph id = .ok table := by
  have hcolumns : ∀ entry ∈ Table.columnProperties (graph.classAt id),
      ∃ column, Table.columnOf engine graph (graph.classAt id) entry.1 entry.2 = .ok column := by
    intro entry hentry
    obtain ⟨property, hproperty, hcolumn⟩ := List.mem_filterMap.mp hentry
    obtain ⟨column, -, rfl⟩ := Option.map_eq_some_iff.mp hcolumn
    obtain ⟨hmem, hisColumn⟩ := List.mem_filter.mp hproperty
    exact exists_columnOf (h property hmem hisColumn)
  obtain ⟨columns, heq⟩ := exists_mapM hcolumns
  rw [Schema.table, Table.ofClass, heq]
  exact ⟨_, rfl⟩

/-- If every class gets a table, there is no error. -/
theorem error_tables {tableOf : ClassId → Except Error Table} {ids : List ClassId}
    (h : ∀ id ∈ ids, ∃ table, tableOf id = .ok table) :
    (Schema.tables graph tableOf ids).2 = none := by
  induction ids with
  | nil => rfl
  | cons id rest ih =>
      obtain ⟨table, htable⟩ := h id List.mem_cons_self
      rw [Schema.tables, htable]
      exact ih fun other hother => h other (List.mem_cons_of_mem _ hother)

/-- `checkIdentifiers` looks at the same identifiers as `fittingTable` does before it gives a table.
-/
theorem exists_fittingTable {id : ClassId} (hid : id ∈ graph.persistentIds)
    (htable : ∃ table, Schema.table engine settings graph id = .ok table)
    (hclean : ∀ diagnostic ∈ Schema.checkIdentifiers engine settings graph,
      diagnostic.code ≠ .identifierTooLong) :
    ∃ table, Schema.fittingTable engine settings graph id = .ok table := by
  obtain ⟨table, htable⟩ := htable
  have hshort : table.overlongIdentifiers engine (graph.classAt id).isHistorized = [] := by
    apply List.eq_nil_iff_forall_not_mem.mpr
    intro identifier hlong
    refine absurd rfl (hclean (Schema.overlongFinding engine (graph.classAt id) identifier) ?_)
    refine List.mem_flatMap.mpr ⟨id, hid, ?_⟩
    rw [Schema.classFindings, htable]
    exact List.mem_map_of_mem hlong
  rw [Schema.fittingTable, htable]
  simp only [bind, Except.bind, hshort]
  exact ⟨table, rfl⟩

section Complete

variable (htables : ∀ id, ∃ table, Schema.table engine settings graph id = .ok table)
  (hclean : ∀ diagnostic ∈ Schema.checkIdentifiers engine settings graph,
    diagnostic.code ≠ .identifierTooLong)

include htables hclean

/-- The schema scripts are complete if every class has a table with short identifiers. -/
theorem error_schema : (Schema.generate engine settings graph).error = none :=
  error_tables fun _ hid => exists_fittingTable hid (htables _) hclean

/-- After that, an error can come from the order of the lists only. -/
theorem error_generate :
    (generate engine settings graph).error =
      match order graph (lists graph) with
      | .ok _ => none
      | .error error => some error := by
  rw [generate]
  simp only [error_schema htables hclean, Seeding.generate]
  cases order graph (lists graph) with
  | error error => rfl
  | ok ids => exact error_tables fun id _ => htables id

/-- By `order_ok_iff`, lists have an order exactly if none refers back to itself. -/
theorem error_isSome_iff :
    (generate engine settings graph).error.isSome = true ↔ ¬ Acyclic graph (lists graph) := by
  rw [error_generate htables hclean, ← Seeding.order_ok_iff]
  cases order graph (lists graph) with
  | ok ids => simp
  | error error => simp

/-- The error names the lists in the order in which they were left, which is some order of all of
them. -/
theorem unorderable_of_error {error : Error}
    (h : (generate engine settings graph).error = some error) :
    ∃ ids : List ClassId, ids.Perm (lists graph) ∧
      error = .unorderable (ids.map fun id => (graph.classAt id).name) := by
  rw [error_generate htables hclean] at h
  cases horder : order graph (lists graph) with
  | ok ids =>
      rw [horder] at h
      cases h
  | error cause =>
      rw [horder] at h
      cases h
      exact Seeding.order_eq_error horder

end Complete

/-! ## Cycles

The check of seed data searches cycles from static lists, along all references to lists. Scripts
need an order of all lists with items. What one says about the other is worked out here. -/

/-- What holds of everything on a cycle holds along the cycle. -/
theorem transGen_restrict {α : Type} {R : α → α → Prop} {P : α → Prop}
    (hP : ∀ a, Relation.TransGen R a a → P a) {a : α} (h : Relation.TransGen R a a) :
    Relation.TransGen (fun b c => P b ∧ P c ∧ R b c) a a := by
  -- A place between start and end of the cycle is itself on a cycle.
  have honcycle {b : α} (hthere : Relation.TransGen R a b) (hback : Relation.ReflTransGen R b a) :
      P b := hP b (.trans_right hback hthere)
  have hpath (b : α) (hthere : Relation.TransGen R a b) :
      Relation.ReflTransGen R b a →
        Relation.TransGen (fun b c => P b ∧ P c ∧ R b c) a b := by
    induction hthere with
    | single hstep =>
        intro hback
        exact .single ⟨hP a h, honcycle (.single hstep) hback, hstep⟩
    | tail hthere hstep ih =>
        intro hback
        have hbefore := Relation.ReflTransGen.head hstep hback
        exact .tail (ih hbefore)
          ⟨honcycle hthere hbefore, honcycle (.tail hthere hstep) hback, hstep⟩
  exact hpath a h .refl

def referenceLists (graph : Graph) : List ClassId :=
  (lists graph).filter fun id => (graph.classAt id).stereotype == .reference

theorem mem_lists {id : ClassId} (h : id ∈ lists graph) :
    (graph.classAt id).stereotype.isList = true ∧ (graph.classAt id).items ≠ [] := by
  have hlist := (List.mem_filter.mp h).2
  simpa using hlist

/-- What counts as a reference for scripts is one that the check of seed data follows. -/
theorem targets_of_refersTo {id other : ClassId} (h : refersTo graph id other = true) :
    Check.Seed.Targets graph id other := by
  rw [refersTo, Bool.and_eq_true, List.any_eq_true] at h
  obtain ⟨-, property, hproperty, htarget⟩ := h
  exact List.mem_filterMap.mpr ⟨property, hproperty, by simpa using htarget⟩

section Lists

variable (hstatic : ∀ id ∈ lists graph, (graph.classAt id).stereotype = .static →
  ¬ Relation.TransGen (Check.Seed.Targets graph) id id)

include hstatic

/-- A cycle of lists passes through reference lists only, if no static list refers back to
itself. -/
theorem reference_of_cycle {id : ClassId}
    (h : Relation.TransGen (Refers graph (lists graph)) id id) :
    id ∈ lists graph ∧ (graph.classAt id).stereotype = .reference := by
  obtain ⟨_, hstep, -⟩ := Relation.TransGen.head'_iff.mp h
  have hlist := hstep.1
  have hcycle := h.lift (fun list => list) fun _ _ hrefers => targets_of_refersTo hrefers.2.2
  have hisList := (mem_lists hlist).1
  refine ⟨hlist, ?_⟩
  cases hstereotype : (graph.classAt id).stereotype with
  | plain =>
      rw [hstereotype] at hisList
      cases hisList
  | reference => rfl
  | static => exact absurd hcycle (hstatic id hlist hstereotype)

/-- The cycle that an error of the scripts is about lies among the reference lists, by
`transGen_restrict`. -/
theorem acyclic_lists_iff : Acyclic graph (lists graph) ↔ Acyclic graph (referenceLists graph) := by
  constructor
  · intro h id hcycle
    refine h id (hcycle.lift (fun list => list) fun _ _ hrefers => ?_)
    exact ⟨List.mem_of_mem_filter hrefers.1, List.mem_of_mem_filter hrefers.2.1, hrefers.2.2⟩
  · intro h id hcycle
    have hreferences := transGen_restrict (fun _ => reference_of_cycle hstatic) hcycle
    refine h id (hreferences.lift (fun list => list) fun _ _ hrefers => ?_)
    obtain ⟨hfirst, hsecond, -, -, hrefers⟩ := hrefers
    exact ⟨List.mem_filter.mpr ⟨hfirst.1, by simp [hfirst.2]⟩,
      List.mem_filter.mpr ⟨hsecond.1, by simp [hsecond.2]⟩, hrefers⟩

end Lists

/-- The items of a list come from a batch, so a static list refers back to itself only if the check
of seed data says so. -/
theorem no_way_back_of_lists {seed : Seed} (hitems : ∀ id, (graph.classAt id).items = [])
    (hclean : ∀ diagnostic ∈ Check.Seed.check (graph.addSeed seed) seed,
      diagnostic.code ≠ .initStereotypeMismatch ∧ diagnostic.code ≠ .initStaticCycle)
    {id : ClassId} (hid : id ∈ lists (graph.addSeed seed))
    (hstatic : ((graph.addSeed seed).classAt id).stereotype = .static) :
    ¬ Relation.TransGen (Check.Seed.Targets (graph.addSeed seed)) id id := by
  have hseeded := Graph.seeded_addSeed graph seed
  rcases hseeded.classes id with hsame | ⟨entry, hentry, hnamed, -⟩
  · have hnonempty := (mem_lists hid).2
    rw [hsame, hitems id] at hnonempty
    exact absurd rfl hnonempty
  · exact Check.Seed.no_way_back_of_check hclean hentry (hseeded.classNamed? entry.1 ▸ hnamed)
      hstatic

/-! ## The gate -/

/-- Scripts of a graph that has been read, seeded and checked fail exactly if its reference lists
refer to each other in a cycle. The error then says that the lists have no order, and no static list
is on any cycle of lists. -/
theorem error_iff_cycle {suffixes : Naming.Suffixes} {shared : List Graph.Domain}
    {sources : List Reading.Source} {found : List Diagnostic}
    (hread : Reading.read suffixes shared sources = .ok (graph, found)) (seed : Seed)
    (options : Check.Options) (engine : Engine) (settings : Settings)
    (hskip : ∀ c ∈ (graph.addSeed seed).classes, options.allowlist.skips c.name = false)
    (hclean : ∀ diagnostic ∈ (Check.run options (graph.addSeed seed)).1 ++
        Check.Seed.check (graph.addSeed seed) seed ++
        Schema.checkIdentifiers engine settings (graph.addSeed seed),
      diagnostic.code ∉ blockingCodes) :
    ((generate engine settings (graph.addSeed seed)).error.isSome = true ↔
        ∃ id, Relation.TransGen
          (Refers (graph.addSeed seed) (referenceLists (graph.addSeed seed))) id id) ∧
      (∀ error, (generate engine settings (graph.addSeed seed)).error = some error →
        ∃ ids : List ClassId, ids.Perm (lists (graph.addSeed seed)) ∧ error =
          .unorderable (ids.map fun id => ((graph.addSeed seed).classAt id).name)) ∧
      ∀ id, Relation.TransGen (Refers (graph.addSeed seed) (lists (graph.addSeed seed))) id id →
        ((graph.addSeed seed).classAt id).stereotype = .reference := by
  have hcodes (diagnostic : Diagnostic) (h : diagnostic.code ∉ blockingCodes) :
      diagnostic.code ≠ .propertyMissingDomain ∧
        diagnostic.code ≠ .domainMissingPersistentType ∧
        diagnostic.code ≠ .initStereotypeMismatch ∧ diagnostic.code ≠ .initStaticCycle ∧
        diagnostic.code ≠ .identifierTooLong := by
    simpa [blockingCodes] using h
  simp only [List.mem_append] at hclean
  have hwell := (Graph.seeded_addSeed graph seed).wellFormed (Reading.wellFormed_of_read hread)
  have hkeys := (Reading.keysMatch_of_read hread).addSeed seed
  have htables (id : ClassId) :
      ∃ table, Schema.table engine settings (graph.addSeed seed) id = .ok table := by
    refine exists_table fun property hproperty hcolumn => ?_
    refine Check.columns_typed hwell hkeys hskip (fun diagnostic hmem => ?_) hproperty hcolumn
    obtain ⟨hdomain, htype, -⟩ := hcodes diagnostic (hclean diagnostic (.inl (.inl hmem)))
    exact ⟨hdomain, htype⟩
  -- Classes have no items when they are read, so every list has its items from a checked batch.
  have hstatic : ∀ id ∈ lists (graph.addSeed seed),
      ((graph.addSeed seed).classAt id).stereotype = .static →
        ¬ Relation.TransGen (Check.Seed.Targets (graph.addSeed seed)) id id := by
    refine fun id => no_way_back_of_lists (Reading.items_of_read hread) fun diagnostic hmem => ?_
    obtain ⟨-, -, hkind, hcycle, -⟩ := hcodes diagnostic (hclean diagnostic (.inl (.inr hmem)))
    exact ⟨hkind, hcycle⟩
  have hidentifiers : ∀ diagnostic ∈ Schema.checkIdentifiers engine settings (graph.addSeed seed),
      diagnostic.code ≠ .identifierTooLong := fun diagnostic hmem =>
    (hcodes diagnostic (hclean diagnostic (.inr hmem))).2.2.2.2
  refine ⟨?_, fun _ hfailed => unorderable_of_error htables hidentifiers hfailed,
    fun _ hcycle => (reference_of_cycle hstatic hcycle).2⟩
  rw [error_isSome_iff htables hidentifiers, acyclic_lists_iff hstatic, Acyclic, not_forall_not]

def sampleSeed : Seed :=
  (Seed.empty.insert "Color" ⟨"Colors", .reference, [Seeding.sampleItem "Red" "ColorId" 1]⟩).insert
    "Shade" ⟨"Shades", .reference, [Seeding.sampleItem "Dark" "ShadeId" 7]⟩

/-- Options that skip classes of another name. -/
def sampleOptions : Check.Options :=
  ⟨.standard, .sqlServer, ⟨["Legacy*"]⟩⟩

theorem error_of_sample_cycle :
    ∃ graph found, Reading.read .standard [] [Reading.sample] = .ok (graph, found) ∧
      (∀ c ∈ (graph.addSeed sampleSeed).classes,
        sampleOptions.allowlist.skips c.name = false) ∧
      (∀ diagnostic ∈ (Check.run sampleOptions (graph.addSeed sampleSeed)).1 ++
          Check.Seed.check (graph.addSeed sampleSeed) sampleSeed ++
          Schema.checkIdentifiers .sqlServer Seeding.sampleSettings (graph.addSeed sampleSeed),
        diagnostic.code ∉ blockingCodes) ∧
      ∃ error,
        (generate .sqlServer Seeding.sampleSettings (graph.addSeed sampleSeed)).error =
          some error ∧
        (∃ id, Relation.TransGen (Refers (graph.addSeed sampleSeed)
          (referenceLists (graph.addSeed sampleSeed))) id id) ∧
        ∃ ids : List ClassId, ids.Perm (lists (graph.addSeed sampleSeed)) ∧ error =
          .unorderable (ids.map fun id => ((graph.addSeed sampleSeed).classAt id).name) := by
  obtain ⟨graph, found, hread, hchecked⟩ := Reading.exists_read_sample
    (P := fun graph _ =>
      (graph.addSeed sampleSeed).classes.all (fun c => !sampleOptions.allowlist.skips c.name) &&
        ((Check.run sampleOptions (graph.addSeed sampleSeed)).1 ++
          Check.Seed.check (graph.addSeed sampleSeed) sampleSeed ++
          Schema.checkIdentifiers .sqlServer Seeding.sampleSettings
            (graph.addSeed sampleSeed)).all (fun diagnostic =>
              !blockingCodes.contains diagnostic.code) &&
        (generate .sqlServer Seeding.sampleSettings (graph.addSeed sampleSeed)).error.isSome)
    (by
      conv => lhs; arg 2; cbv
      decide +kernel)
  simp only [Bool.and_eq_true, List.all_eq_true, Bool.not_eq_true', List.contains_eq_mem,
    decide_eq_false_iff_not] at hchecked
  obtain ⟨⟨hskip, hclean⟩, hfailed⟩ := hchecked
  obtain ⟨error, herror⟩ := Option.isSome_iff_exists.mp hfailed
  have hgate := error_iff_cycle hread sampleSeed sampleOptions .sqlServer Seeding.sampleSettings
    hskip hclean
  exact ⟨graph, found, hread, hskip, hclean, error, herror, hgate.1.mp hfailed,
    hgate.2.1 error herror⟩

end ModelSchema.Sql
