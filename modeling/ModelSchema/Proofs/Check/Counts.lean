import ModelSchema.Proofs.Check.Walk
import ModelSchema.Proofs.Reading.Domains
import ModelSchema.Proofs.Sql.Clashes

/-!
# Counting what a check looks at

A check of a graph that is read looks at every model, domain, namespace and class once, and reports
repeated names exactly: each element that uses a name after another one gives one finding. A finding
about a trigram tells the first class with it (`counted_of_read`).
-/

namespace ModelSchema.Check

open Reading (read)

/-- The first class that claims a trigram, in the order in which classes are visited. Findings have
to name it, whichever class has the trigram again. -/
def firstWith? (options : Options) (graph : Graph) (trigram : String) : Option ClassId :=
  (checkedIds options graph).find? fun id => claimed? graph id == some trigram

/-- The class that has claimed the trigram of a class before it. -/
def earlier? (options : Options) (graph : Graph) (id : ClassId) : Option ClassId :=
  ((claimed? graph id).bind (firstWith? options graph)).filter (· != id)

/-- A check looks at everything once, and counts it. -/
structure Counted (options : Options) (graph : Graph) : Prop where
  /-- What is found comes from the domains that no model declares and from the visits in turn. -/
  walk : (run options graph).1 = (sharedDomains graph).flatMap domain ++
    (Namespace.inTurn (visit options graph) .empty (visits graph)).1
  /-- The visits are one to each model, namespace and class, each kind in the order of the graph. -/
  modelVisits : (visits graph).filterMap Visit.root? = graph.models
  spaceVisits : (visits graph).filterMap Visit.space? = List.range graph.namespaces.length
  memberVisits : (visits graph).filterMap Visit.member? = graph.classIds
  models : (run options graph).2.models = graph.models.length
  domains : (run options graph).2.domains = graph.domains.size
  namespaces : (run options graph).2.namespaces = graph.namespaces.length
  classes : (run options graph).2.classes =
    ((checkedIds options graph).map fun id => (graph.classAt id).name).dedup.length
  /-- Shared and declared domains are all the domains, each once. -/
  domainVisits :
    (sharedDomains graph ++ graph.models.flatMap (ownDomains graph)).Perm graph.domains.values
  namespaceVisits : graph.models.flatMap (·.namespaces) = List.range graph.namespaces.length
  classVisits : (graph.models.flatMap fun root => root.namespaces.flatMap fun n =>
    (graph.namespaceAt n).classes) = graph.classIds
  /-- Every namespace has a new name or gives a finding. -/
  namespaceNames : (run options graph).1.countP (·.code == .namespaceDuplicate) +
    (graph.namespaces.map (·.name)).dedup.length = graph.namespaces.length
  classNames : (run options graph).1.countP (·.code == .classDuplicate) +
      ((checkedIds options graph).map fun id => (graph.classAt id).name).dedup.length =
    (checkedIds options graph).length
  trigrams : (run options graph).1.countP (·.code == .classDuplicateTrigram) +
      ((checkedIds options graph).filterMap (claimed? graph)).dedup.length =
    ((checkedIds options graph).filterMap (claimed? graph)).length
  /-- The findings about trigrams name the first classes with them. -/
  owners : ((run options graph).1.filter (·.code == .classDuplicateTrigram)).map (·.related) =
    ((checkedIds options graph).filterMap (earlier? options graph)).map fun first =>
      [(graph.classAt first).name]

/-! ## Domains -/

/-- Domains stand under their codes, and no code occurs twice. -/
theorem nodup_values {graph : Graph} (hgraph : graph.WellFormed) :
    graph.domains.values.Nodup := by
  have hcodes : graph.domains.values.map (·.code) = graph.domains.names := by
    rw [Catalog.values, Catalog.names, List.map_map]
    exact List.map_congr_left fun entry hentry => (hgraph.code entry hentry).symm
  exact List.Nodup.of_map _ (hcodes ▸ graph.domains.nodup_names)

/-- If no domain is declared twice, every domain is visited once. Reading sees to that:
`nodup_declared_of_read`. -/
theorem perm_domains {graph : Graph} (hgraph : graph.WellFormed)
    (hdeclared : (graph.models.flatMap (·.domains)).Nodup) :
    (sharedDomains graph ++ graph.models.flatMap (ownDomains graph)).Perm
      graph.domains.values := by
  have hown : (graph.models.flatMap (ownDomains graph)).Nodup := by
    rw [flatMap_ownDomains]
    refine hdeclared.filterMap fun code other found hcode hother => ?_
    rw [← hgraph.code_of_get? hcode, hgraph.code_of_get? hother]
  have hnodup : (sharedDomains graph ++ graph.models.flatMap (ownDomains graph)).Nodup := by
    rw [List.nodup_append]
    refine ⟨(nodup_values hgraph).filter _, hown, ?_⟩
    rintro found hshared _ hmem rfl
    rw [flatMap_ownDomains] at hmem
    obtain ⟨code, hcode, hget⟩ := List.mem_filterMap.mp hmem
    have hnot := (List.mem_filter.mp hshared).2
    rw [hgraph.code_of_get? hget] at hnot
    simp [hcode] at hnot
  rw [List.perm_ext_iff_of_nodup hnodup (nodup_values hgraph)]
  intro found
  rw [List.mem_append, mem_domains_iff hgraph]

/-! ## Trigrams -/

/-- The owners of names that are claimed once more are the first that claim them. `reclaimed`
follows the walk with a growing table; here it is said with `find?` on the whole list. -/
theorem reclaimed_filterMap (key : ClassId → Option String) (owner : ClassId → String)
    {done ids : List ClassId} (hnodup : (done ++ ids).Nodup) {known : String → Option String}
    (hknown : ∀ name, known name = (done.find? (key · == some name)).map owner) :
    reclaimed known (ids.filterMap fun id => (key id).map (·, owner id)) =
      (ids.filterMap fun id =>
        ((key id).bind fun name => (done ++ ids).find? (key · == some name)).filter (· != id)).map
          owner := by
  -- On the classes left; `done` are those before, and `known` is what they have claimed.
  induction ids generalizing done known with
  | nil => rfl
  | cons id rest ih =>
      have hsplit : done ++ id :: rest = (done ++ [id]) ++ rest := by simp
      have hfind (name : String) : (done ++ [id]).find? (key · == some name) =
          (done.find? (key · == some name)).or (if key id = some name then some id else none) := by
        rw [List.find?_append, List.find?_singleton]
        simp only [beq_iff_eq]
      rw [hsplit] at hnodup ⊢
      cases hkey : key id with
      | none =>
          have hsame (name : String) :
              known name = ((done ++ [id]).find? (key · == some name)).map owner := by
            rw [hfind, hkey, hknown]
            simp
          rw [List.filterMap_cons_none (by rw [hkey]; rfl),
            List.filterMap_cons_none (by rw [hkey]; rfl)]
          exact ih hnodup hsame
      | some name =>
          have hmore : ∀ other, (known other).or (if other = name then some (owner id) else none) =
              ((done ++ [id]).find? (key · == some other)).map owner := by
            intro other
            rw [hfind, hkey, hknown, Option.map_or]
            by_cases h : other = name
            · simp [h]
            · simp [h, Ne.symm h]
          rw [List.filterMap_cons_some (b := (name, owner id)) (by rw [hkey]; rfl), reclaimed,
            ih hnodup hmore, hknown]
          have hhead : ((key id).bind fun name =>
              (done ++ [id] ++ rest).find? (key · == some name)) =
                (done.find? (key · == some name)).or (some id) := by
            rw [hkey, Option.bind_some, List.find?_append, hfind, if_pos hkey, Option.or_assoc]
            rfl
          cases hfirst : done.find? (key · == some name) with
          | none =>
              -- The first class with this trigram gives no finding.
              rw [hfirst, Option.none_or] at hhead
              rw [List.filterMap_cons_none (by rw [hhead]; simp [Option.filter])]
              rfl
          | some first =>
              have hne : first ≠ id := by
                rintro rfl
                rw [List.append_assoc, List.nodup_append] at hnodup
                exact hnodup.2.2 _ (List.mem_of_find?_eq_some hfirst) _ (by simp) rfl
              rw [hfirst, Option.some_or] at hhead
              rw [List.filterMap_cons_some (b := first) (by rw [hhead]; simp [Option.filter, hne])]
              rfl

/-! ## Graphs that are read -/

/-- The findings of a kind come from the visits; domains without a document add none. -/
theorem among_run (options : Options) (graph : Graph) (kind : NameKind) :
    (run options graph).1.filter (·.code == kind.code) =
      kind.among (Namespace.inTurn (visit options graph) .empty (visits graph)).1 := by
  have hsilent : Silent ((sharedDomains graph).flatMap domain) := by
    simp [domain, NameKind.ofCode?]
  rw [← among_eq_filter, run_fst, among_append, among_of_silent kind hsilent, List.nil_append]

/-- Every claim of a name is a new name or gives a finding. The registry starts empty, so in the end
it has the different names among the claims. -/
theorem count_run (options : Options) (graph : Graph) (kind : NameKind) :
    (run options graph).1.countP (·.code == kind.code) +
        ((claims options graph kind (visits graph)).map (·.1)).dedup.length =
      ((claims options graph kind (visits graph)).map (·.1)).length := by
  have hcount := count_inTurn options graph .empty kind (visits graph)
  have hempty : (Registry.empty.names kind).size = 0 := by cases kind <;> rfl
  rw [size_names_inTurn, ← among_run, ← List.countP_eq_length_filter, hempty] at hcount
  rw [List.length_map]
  omega

/-- A check of a graph that is read looks at everything once, and reports repeated names exactly. -/
theorem counted_of_read {suffixes : Naming.Suffixes} {shared : List Graph.Domain}
    {sources : List Reading.Source} {graph : Graph} {found : List Diagnostic}
    (hread : read suffixes shared sources = .ok (graph, found)) (options : Options) :
    Counted options graph := by
  have hgraph := Reading.wellFormed_of_read hread
  have hdomains := perm_domains hgraph (Reading.nodup_declared_of_read hread)
  have hspaces := count_run options graph .namespaces
  have hclasses := count_run options graph .classes
  have htrigrams := count_run options graph .trigrams
  rw [map_fst_claims_namespaces options hgraph, List.length_map] at hspaces
  rw [map_fst_claims_classes options hgraph, List.length_map] at hclasses
  rw [map_fst_claims_trigrams options hgraph] at htrigrams
  refine ⟨run_fst options graph, roots_visits graph, spaces_visits hgraph, members_visits hgraph,
    ?_, ?_, ?_, ?_, hdomains, hgraph.namespaces, hgraph.flatMap_classes, hspaces, hclasses,
    htrigrams, ?_⟩
  · rw [run_eq]
  · rw [run_eq, ← List.length_append, hdomains.length_eq, Catalog.values, List.length_map,
      Catalog.size]
  · rw [run_eq, hgraph.namespaces, List.length_range]
  · rw [run_eq, ← map_fst_claims_classes options hgraph]
    exact size_names_inTurn options graph .classes (visits graph)
  · -- At the start no trigram is known, and the claims are those of the classes in order.
    have hids : ([] ++ checkedIds options graph).Nodup := List.nodup_range.filter _
    have hstart : ∀ name, (Registry.empty.names .trigrams).get? name =
        (([] : List ClassId).find? (claimed? graph · == some name)).map
          fun id => (graph.classAt id).name := fun _ => rfl
    show ((run options graph).1.filter (·.code == NameKind.trigrams.code)).map (·.related) = _
    rw [among_run, related_inTurn, claims_trigrams options hgraph,
      reclaimed_filterMap (claimed? graph) (fun id => (graph.classAt id).name) hids hstart,
      List.map_map]
    rfl

theorem counted_twice :
    ∃ graph found,
      read .standard [] [Sql.Schema.offers, Sql.Schema.archive] = .ok (graph, found) ∧
      Counted Sql.Schema.strict graph ∧
      (run Sql.Schema.strict graph).2 = ⟨2, 1, 2, 3⟩ ∧
      ((run Sql.Schema.strict graph).1.filter (·.code == .classDuplicateTrigram)).map
        (·.related) = [["Product"]] := by
  obtain ⟨graph, found, hread, hchecked⟩ := Reading.exists_read .standard []
    (.cons Sql.Schema.document_offers (.cons Sql.Schema.document_archive .nil))
    (P := fun graph _ =>
      (run Sql.Schema.strict graph).2 == ⟨2, 1, 2, 3⟩ &&
        ((run Sql.Schema.strict graph).1.filter (·.code == .classDuplicateTrigram)).map
          (·.related) == [["Product"]])
    (by decide +kernel)
  simp only [Bool.and_eq_true, beq_iff_eq] at hchecked
  exact ⟨graph, found, hread, counted_of_read hread Sql.Schema.strict, hchecked⟩

end ModelSchema.Check
