import ModelSchema.Proofs.Check.Cycle
import ModelSchema.Proofs.Check.Walk
import ModelSchema.Proofs.Reading.Keys
import ModelSchema.Sql.Table

/-!
# What a check covers

What a visit finds is found by the check (`exists_visit`). In a well-formed graph the visits lead to
every class that is not skipped (`exists_findings`), and to every domain (`mem_run_of_domain`). So
if no finding says that a domain or its column type is missing, every column has a type, references
included (`columns_typed`).

Batches of seed data are checked one by one. As long as no cycle is reported, none is left out as
known, so a static list with a batch of its kind is not on any cycle (`no_way_back_of_check`).
-/

namespace ModelSchema.Check

open ModelSchema.Graph (Domain Property)

/-- There is no reason for a finding that is not among the findings. The converse of `mem_findIf`,
by code. -/
theorem reason_eq_false {reason : Bool} {finding : Diagnostic} {code : Code}
    (hcode : finding.code = code)
    (h : ∀ diagnostic ∈ findIf reason finding, diagnostic.code ≠ code) : reason = false := by
  cases reason with
  | false => rfl
  | true => exact absurd hcode (h finding List.mem_cons_self)

/-! ## Classes -/

/-- The findings about each element are among the findings about all. -/
theorem mem_inTurn {α : Type} (check : Registry → α → List Diagnostic × Registry)
    {entries : List α} {entry : α} (h : entry ∈ entries) (registry : Registry) :
    ∃ current, ∀ diagnostic ∈ (check current entry).1,
      diagnostic ∈ (Namespace.inTurn check registry entries).1 := by
  induction entries generalizing registry with
  | nil => exact absurd h List.not_mem_nil
  | cons first rest ih =>
      rcases List.mem_cons.mp h with rfl | h
      · exact ⟨registry, fun _ hfound => List.mem_append_left _ hfound⟩
      · obtain ⟨current, hcurrent⟩ := ih h (check registry first).2
        exact ⟨current, fun diagnostic hfound =>
          List.mem_append_right _ (hcurrent diagnostic hfound)⟩

section Run

variable {options : Options} {graph : Graph}

/-- The findings of every visit are among the findings about a graph. With which registry it is made
does not matter for what follows. -/
theorem exists_visit (options : Options) {v : Visit} (h : v ∈ visits graph) :
    ∃ registry, ∀ diagnostic ∈ (visit options graph registry v).1,
      diagnostic ∈ (run options graph).1 := by
  obtain ⟨registry, hfound⟩ := mem_inTurn (visit options graph) h .empty
  refine ⟨registry, fun diagnostic hmem => ?_⟩
  rw [run_fst]
  exact List.mem_append_right _ (hfound diagnostic hmem)

/-- A class that is not skipped is visited, since every class of a well-formed graph is listed by
its namespace. -/
theorem exists_findings (hgraph : graph.WellFormed) {id : ClassId}
    (hid : id < graph.classes.length)
    (hskip : options.allowlist.skips (graph.classAt id).name = false) :
    ∃ registry, ∀ diagnostic ∈ Class.findings options.engine graph registry id,
      diagnostic ∈ (run options graph).1 := by
  obtain ⟨registry, hfound⟩ :=
    exists_visit options ((member_mem_visits hgraph).mpr (List.mem_range.mpr hid))
  simp only [visit, Class.check, hskip] at hfound
  exact ⟨registry, hfound⟩

/-- The domain of every value is checked. -/
theorem mem_run_of_property (hgraph : graph.WellFormed) {id : ClassId}
    (hskip : options.allowlist.skips (graph.classAt id).name = false) {property : Property}
    (hproperty : property ∈ (graph.classAt id).properties) (hkind : property.kind = .primitive)
    {diagnostic : Diagnostic}
    (h : diagnostic ∈ Property.domain graph (graph.classAt id) property) :
    diagnostic ∈ (run options graph).1 := by
  obtain ⟨registry, hfindings⟩ :=
    exists_findings hgraph (Graph.lt_of_mem_properties hproperty) hskip
  refine hfindings diagnostic (List.mem_append_right _ (List.mem_flatMap.mpr
    ⟨property, hproperty, ?_⟩))
  have hprimitive : property.isPrimitive = true := by simp [Graph.Property.isPrimitive, hkind]
  simp [Property.check, hprimitive, h]

/-! ## Domains -/

/-- Every domain is checked. -/
theorem mem_run_of_domain (hgraph : graph.WellFormed) {code : String} {found : Domain}
    (hfound : graph.domains.get? code = some found) {diagnostic : Diagnostic}
    (h : diagnostic ∈ domain found) : diagnostic ∈ (run options graph).1 := by
  rcases (mem_domains_iff hgraph).mp (Catalog.mem_values_of_get? hfound) with hshared | hown
  · rw [run_fst]
    exact List.mem_append_left _ (List.mem_flatMap.mpr ⟨found, hshared, h⟩)
  · obtain ⟨root, hroot, hmem⟩ := List.mem_flatMap.mp hown
    obtain ⟨registry, hvisit⟩ := exists_visit options (model_mem_visits.mpr hroot)
    exact hvisit diagnostic (List.mem_append_right _ (List.mem_flatMap.mpr ⟨found, hmem, h⟩))

/-! ## Columns -/

/-- Without findings about it, a domain has a column type. -/
theorem persistentType_isSome {found : Domain}
    (h : ∀ diagnostic ∈ domain found, diagnostic.code ≠ .domainMissingPersistentType) :
    found.persistentType.isSome = true := by
  have htype : found.persistentType.isNone = false := reason_eq_false rfl fun diagnostic hmem =>
    h diagnostic (List.mem_append_left _ (List.mem_append_right _ hmem))
  simpa using htype

/-- Without findings about it, a value has a known domain. -/
theorem exists_domain {c : Graph.Class} {property : Property}
    (h : ∀ diagnostic ∈ Property.domain graph c property,
      diagnostic.code ≠ .propertyMissingDomain) :
    ∃ code found, property.domain = some code ∧ graph.domains.get? code = some found := by
  rw [Property.domain] at h
  split at h
  · exact absurd rfl (h _ List.mem_cons_self)
  · next code hcode =>
    split at h
    · exact absurd rfl (h _ List.mem_cons_self)
    · next found hfound => exact ⟨code, found, hcode, hfound⟩

/-- If nothing is said about missing domains and column types, every column has a type. For values
this is what the check looks at. A reference has the domain of the key that it refers to
(`KeysMatch`), and a key is a value. -/
theorem columns_typed (hgraph : graph.WellFormed) (hkeys : Reading.KeysMatch graph)
    (hskip : ∀ c ∈ graph.classes, options.allowlist.skips c.name = false)
    (hclean : ∀ diagnostic ∈ (run options graph).1,
      diagnostic.code ≠ .propertyMissingDomain ∧ diagnostic.code ≠ .domainMissingPersistentType)
    {id : ClassId} {property : Property} (hproperty : property ∈ (graph.classAt id).properties)
    (hcolumn : property.isColumn = true) :
    (Sql.Table.persistentType? graph property).isSome = true := by
  have hvalue {id : ClassId} {value : Property}
      (hmem : value ∈ (graph.classAt id).properties) (hkind : value.kind = .primitive) :
      (Sql.Table.persistentType? graph value).isSome = true := by
    have hchecked := hskip _ (Graph.classAt_mem (Graph.lt_of_mem_properties hmem))
    obtain ⟨code, found, hcode, hfound⟩ := exists_domain fun diagnostic hfinding =>
      (hclean diagnostic (mem_run_of_property hgraph hchecked hmem hkind hfinding)).1
    have htype := persistentType_isSome fun diagnostic hfinding =>
      (hclean diagnostic (mem_run_of_domain hgraph hfound hfinding)).2
    simp [Sql.Table.persistentType?, Graph.domainOf?, hcode, hfound, htype]
  cases hkind : property.kind with
  | primitive => exact hvalue hproperty hkind
  | reference target =>
      -- A reference has the type of a key, which is a value of the other class.
      obtain ⟨key, hkey, hdomain, htype⟩ := hkeys.reference id property hproperty target hkind
      have hmem := List.mem_of_find?_eq_some hkey
      have hsame : Sql.Table.persistentType? graph property =
          Sql.Table.persistentType? graph key := by
        simp only [Sql.Table.persistentType?, Graph.domainOf?, hdomain, htype]
      rw [hsame]
      exact hvalue hmem (hkeys.primitive target key hmem (List.find?_some hkey))
  | referenceList target => simp [Graph.Property.isColumn, hkind] at hcolumn
  | composition target isCollection => simp [Graph.Property.isColumn, hkind] at hcolumn

end Run

/-! ## Batches

Reported cycles are not reported again. So that nothing is found about one batch says little by
itself; that nothing is found about any of them says that every search was made. -/

namespace Seed

variable {graph : Graph}

/-- If no cycle is reported, the kind of every batch has been checked, and every cycle searched. -/
theorem mem_batches {source : Option String} {entries : List (String × ModelSchema.Seed.Batch)}
    (hclean : ∀ diagnostic ∈ batches graph source [] entries, diagnostic.code ≠ .initStaticCycle)
    {entry : String × ModelSchema.Seed.Batch} (hentry : entry ∈ entries) {id : ClassId}
    (hid : graph.classNamed? entry.1 = some id) :
    (∀ diagnostic ∈ kind (graph.classAt id) entry.2,
        diagnostic ∈ batches graph source [] entries) ∧
      newCycle? graph [] id entry.2 = none := by
  -- Without a cycle reported, no class is known to be on one: the list stays empty throughout.
  induction entries with
  | nil => exact absurd hentry List.not_mem_nil
  | cons first rest ih =>
      obtain ⟨name, batch⟩ := first
      rw [batches] at hclean ⊢
      split at hclean
      · next hunknown =>
        rcases List.mem_cons.mp hentry with rfl | hentry
        · rw [hunknown] at hid
          cases hid
        · obtain ⟨hkind, hcycle⟩ := ih
            (fun diagnostic hmem => hclean diagnostic (List.mem_cons_of_mem _ hmem)) hentry
          exact ⟨fun diagnostic hmem => List.mem_cons_of_mem _ (hkind diagnostic hmem), hcycle⟩
      · next other hother =>
        cases hcycle : newCycle? graph [] other batch with
        | some cycle =>
            refine absurd rfl (hclean (cycleFinding graph other cycle) ?_)
            simp [hcycle]
        | none =>
            simp only [hcycle] at hclean ⊢
            rcases List.mem_cons.mp hentry with rfl | hentry
            · rw [hother] at hid
              cases hid
              exact ⟨fun diagnostic hmem => List.mem_append_left _ (List.mem_append_left _ hmem),
                hcycle⟩
            · obtain ⟨hkind, hlater⟩ := ih
                (fun diagnostic hmem => hclean diagnostic (List.mem_append_right _ hmem)) hentry
              exact ⟨fun diagnostic hmem => List.mem_append_right _ (hkind diagnostic hmem), hlater⟩

/-- If seed data has no batch of the wrong kind and no cycle, no static list with a batch refers
back to itself. The kind matters: `newCycle?` searches for batches of static lists only. -/
theorem no_way_back_of_check {seed : ModelSchema.Seed}
    (hclean : ∀ diagnostic ∈ check graph seed,
      diagnostic.code ≠ .initStereotypeMismatch ∧ diagnostic.code ≠ .initStaticCycle)
    {entry : String × ModelSchema.Seed.Batch} (hentry : entry ∈ seed.batches.entries) {id : ClassId}
    (hid : graph.classNamed? entry.1 = some id)
    (hstatic : (graph.classAt id).stereotype = .static) :
    ¬ Relation.TransGen (Targets graph) id id := by
  obtain ⟨hkind, hcycle⟩ :=
    mem_batches (fun diagnostic hmem => (hclean diagnostic hmem).2) hentry hid
  have hfits : (!fits entry.2.kind (graph.classAt id).stereotype) = false :=
    reason_eq_false rfl fun diagnostic hmem => (hclean diagnostic (hkind diagnostic hmem)).1
  -- Cycles are searched for batches of static lists only.
  have hbatch : entry.2.kind = .static := by
    rw [hstatic] at hfits
    cases hentryKind : entry.2.kind with
    | static => rfl
    | reference => simp [fits, hentryKind] at hfits
  apply no_way_back
  rw [Option.eq_none_iff_forall_ne_some]
  simpa [newCycle?, hbatch, hstatic] using hcycle

end Seed

end ModelSchema.Check
