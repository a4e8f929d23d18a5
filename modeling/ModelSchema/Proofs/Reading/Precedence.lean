import ModelSchema.Proofs.Reading.Declarations
import ModelSchema.Proofs.Reading.Shapes

/-!
# Which domain is in effect

Documents may declare domains that are declared already, and properties refer to domains by codes or
by identifiers of their own document. `Precedence` says what comes of it in a graph that is read:

* the first declaration of a code is in effect, and every later one is reported once;
* the codes are divided among the shared domains and the documents;
* the properties of all documents see the domains in effect.

The domains are those of the first pass, and the mistakes of the passes after it are of other kinds
(`duplicates_of_run`).
-/

namespace ModelSchema.Reading

open ModelSchema.Graph (Domain Property)

def domainCode? (outline : Outline) (declared : Outline.Property) : Option String :=
  match declared.domain with
  | some (.id id) => (Assembly.domainScope outline).lookup id
  | some (.code code) => some code
  | none => none

/-- A property shows a declared one, and sees the first domain of its code among `domains`. -/
structure Sees (domains : List Domain) (graph : Graph) (outline : Outline)
    (declared : Outline.Property) (property : Property) : Prop where
  name : property.name = declared.code
  domain : property.domain = domainCode? outline declared
  found : graph.domainOf? property = (domainCode? outline declared).bind (firstOf domains)
  dataType : property.dataType =
    declared.dataType.or (((domainCode? outline declared).bind (firstOf domains)).bind (·.dataType))

def Reports (repetition : Domain × Domain) (diagnostic : Diagnostic) : Prop :=
  diagnostic.file = some repetition.1.file ∧ diagnostic.related = [repetition.2.file]

/-- The first declaration of every code is in effect. -/
structure Precedence (shared : List Domain) (documents : List Document) (graph : Graph)
    (found : List Diagnostic) : Prop where
  first : ∀ code, graph.domains.get? code = firstOf (declaredDomains shared documents) code
  /-- Every later declaration is one mistake, in order. -/
  reported : List.Forall₂ Reports (repetitions (declaredDomains shared documents))
    (found.filter (·.code == .readDuplicateDomain))
  /-- A model lists the codes that its document is the first to declare. -/
  models : graph.models.map (·.domains) = ownCodes shared documents
  /-- Every code is shared or listed by one model: catalogs have no name twice. -/
  codes : graph.domains.names.Perm
    ((shared.map (·.code)).eraseDups ++ graph.models.flatMap (·.domains))
  /-- The declared properties of a class come first. -/
  properties : List.Forall₂ (fun declared c => ∃ own added, c.properties = own ++ added ∧
      List.Forall₂ (Sees (declaredDomains shared documents) graph declared.1.outline)
        declared.2.properties own)
    (declaredClasses documents) graph.classes

namespace Assembly

/-! ## Mistakes of other kinds -/

/-- No mistake of an association is a domain that is declared again. -/
theorem code_of_mem_linkEffects {graph : Graph} {link : Link} {association : Outline.Association}
    {diagnostic : Diagnostic} (h : .mistake diagnostic ∈ linkEffects graph link association) :
    diagnostic.code ≠ .readDuplicateDomain := by
  rcases mem_linkEffects h with ⟨_, hmistake, heq⟩ | heq | ⟨a, b, resolution, -, heq⟩
  · cases heq
    rw [code_of_codeMistake? hmistake]
    exact nofun
  · cases heq
    exact nofun
  · have hfits := fits_effectOf graph link resolution
    rw [← heq] at hfits
    intro hcode
    have hmem : Code.readDuplicateDomain ∈ associationCodes := hcode ▸ hfits
    exact absurd hmem (by decide)

/-- Nor is any mistake of all associations. -/
theorem code_of_mem_associationEffects {graph : Graph} {placed : List (Document × Scope)}
    {diagnostic : Diagnostic}
    (h : diagnostic ∈ (associationEffects graph placed).filterMap Effect.mistake?) :
    diagnostic.code ≠ .readDuplicateDomain := by
  obtain ⟨effect, heffect, hmistake⟩ := List.mem_filterMap.mp h
  obtain ⟨_, -, _, _, -, -, hlink⟩ := mem_associationEffects heffect
  cases effect with
  | property holder target added => cases hmistake
  | mistake _ =>
      cases hmistake
      exact code_of_mem_linkEffects hlink

theorem filter_duplicates_eq_nil {found : List Diagnostic}
    (h : ∀ diagnostic ∈ found, diagnostic.code ≠ .readDuplicateDomain) :
    found.filter (·.code == .readDuplicateDomain) = [] :=
  List.filter_eq_nil_iff.mpr fun diagnostic hdiagnostic => by simpa using h diagnostic hdiagnostic

/-! ## Runs -/

section Run

variable {suffixes : Naming.Suffixes} {shared : List Domain} {documents : List Document}
  {final : Assembly}

/-- `Declares` at the end of the first pass; no later pass changes domains. -/
theorem first_of_run (hrun : run suffixes shared documents = .ok final) (code : String) :
    final.graph.domains.get? code = firstOf (declaredDomains shared documents) code := by
  rw [(grows_of_run hrun).domains, (extends_withClasses suffixes shared documents).domains,
    (declares_withModels shared documents).get]

/-- Only the first pass finds domains that are declared again. -/
theorem duplicates_of_run (hrun : run suffixes shared documents = .ok final) :
    final.diagnostics.filter (·.code == .readDuplicateDomain) =
      (repetitions (declaredDomains shared documents)).map fun repetition =>
        duplicateDomain repetition.1 repetition.2 := by
  rw [(run_eq_ok_iff_known.mp hrun).2, (extends_withClasses suffixes shared documents).diagnostics,
    (declares_withModels shared documents).diagnostics, List.filter_append, List.filter_append,
    List.filter_eq_self.mpr, filter_duplicates_eq_nil, filter_duplicates_eq_nil, List.append_nil,
    List.append_nil]
  · intro diagnostic hassociation
    exact code_of_mem_associationEffects hassociation
  · intro diagnostic hclass
    obtain ⟨_, -, hmistake⟩ := List.mem_filterMap.mp hclass
    rw [code_of_stereotypeMistake? hmistake]
    exact nofun
  · intro diagnostic hdomain
    obtain ⟨_, -, rfl⟩ := List.mem_map.mp hdomain
    rfl

/-- Catalogs have each name once. So a list of the codes without repetition is a permutation of the
names. -/
theorem codes_of_run (hrun : run suffixes shared documents = .ok final) :
    final.graph.domains.names.Perm
      ((shared.map (·.code)).eraseDups ++ final.graph.models.flatMap (·.domains)) := by
  rw [List.flatMap_def, domains_of_run hrun, ← eraseDups_declaredDomains]
  refine (List.perm_ext_iff_of_nodup (Catalog.nodup_names _) (nodup_eraseDups _)).mpr fun code => ?_
  rw [Catalog.mem_names_iff, Catalog.contains, first_of_run hrun, isSome_firstOf_iff,
    List.mem_eraseDups]

/-- A property that shows a declared one sees the domains of the graph. `ShowsProperty` says which
code it has, and `hfirst` which domain that is. -/
theorem sees_of_shows {graph : Graph} {domains : List Domain}
    (hfirst : ∀ code, graph.domains.get? code = firstOf domains code) {outline : Outline}
    {trigram : Option String} {declared : Outline.Property} {property : Property}
    (h : ShowsProperty graph.domains outline trigram declared property) :
    Sees domains graph outline declared property := by
  have hsame : graph.domains.get? = firstOf domains := funext hfirst
  have hdomain : property.domain = domainCode? outline declared := by
    rw [h.domain, domainCode?]
    rcases declared.domain with _ | ⟨id⟩ | code
    · rfl
    · exact (lookup_domainScope outline id).symm
    · rfl
  refine ⟨h.name, hdomain, ?_, ?_⟩
  · rw [Graph.domainOf?, hdomain, hsame]
  · rw [h.dataType, hdomain, hsame]

/-- The fields are those of the first pass, and the properties those of `shows_of_run`. -/
theorem precedence_of_run (hrun : run suffixes shared documents = .ok final) :
    Precedence shared documents final.graph final.diagnostics where
  first := first_of_run hrun
  reported := by
    rw [duplicates_of_run hrun, List.forall₂_map_right_iff, List.forall₂_same]
    intro repetition _
    exact ⟨rfl, rfl⟩
  models := domains_of_run hrun
  codes := codes_of_run hrun
  properties := by
    refine (shows_of_run hrun).2.2.imp ?_
    intro declared c hshows
    obtain ⟨own, added, hproperties, hown⟩ := hshows.properties
    exact ⟨own, added, hproperties, hown.imp fun _ _ => sees_of_shows (first_of_run hrun)⟩

end Run

end Assembly

/-! ## Reading -/

/-- The first declaration of a domain takes precedence: over all documents, in models and in the
properties that refer to it. -/
theorem precedence_of_read {suffixes : Naming.Suffixes} {shared : List Domain}
    {sources : List Source} {graph : Graph} {found : List Diagnostic}
    (h : read suffixes shared sources = .ok (graph, found)) :
    ∃ documents,
      List.Forall₂ (fun source document => source.document = .ok document) sources documents ∧
      Precedence shared documents graph found := by
  obtain ⟨documents, hsources, hrun⟩ := read_eq_ok h
  exact ⟨documents, hsources, Assembly.precedence_of_run hrun⟩

/-- A key that both `sample` and `depot` declare again. -/
def sharedKey : Domain where
  code := "Key"
  label := none
  dataType := some "guid"
  persistentType := some "uuid"
  length := none
  precision := none
  file := "Domains.oom"

theorem precedence_of_read_depot :
    ∃ graph found, read .standard [sharedKey] [sample, depot] = .ok (graph, found) ∧
      (∃ documents,
        List.Forall₂ (fun source document => source.document = .ok document) [sample, depot]
          documents ∧
        Precedence [sharedKey] documents graph found) ∧
      graph.models.map (·.domains) = [[], ["Label"]] ∧
      (found.filter (·.code == .readDuplicateDomain)).map (fun diagnostic =>
        (diagnostic.file, diagnostic.related)) =
          [(some "Shop.oom", ["Domains.oom"]), (some "Depot.oom", ["Domains.oom"])] ∧
      (graph.classAt 2).properties.map (·.dataType) =
        [some "guid", some "string", some "guid"] := by
  obtain ⟨graph, found, hread, hseen⟩ := exists_read_depot [sharedKey]
    (P := fun graph found => graph.models.map (·.domains) == [[], ["Label"]] &&
      (found.filter (·.code == .readDuplicateDomain)).map (fun diagnostic =>
        (diagnostic.file, diagnostic.related)) ==
          [(some "Shop.oom", ["Domains.oom"]), (some "Depot.oom", ["Domains.oom"])] &&
      (graph.classAt 2).properties.map (·.dataType) == [some "guid", some "string", some "guid"])
    (by decide +kernel)
  simp only [Bool.and_eq_true, beq_iff_eq, and_assoc] at hseen
  exact ⟨graph, found, hread, precedence_of_read hread, hseen⟩

end ModelSchema.Reading
