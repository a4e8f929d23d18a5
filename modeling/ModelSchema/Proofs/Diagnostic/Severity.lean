import ModelSchema.Project.Analysis
import ModelSchema.Proofs.Check.Walk
import ModelSchema.Proofs.Reading.Layout
import ModelSchema.Proofs.Sql.Overflow

/-!
# What overrides of categories change

A project may give codes other categories. That changes the categories of its findings and nothing
else, for two reasons:

* every finding is made with the category of its code (`Standard`), whichever check makes it;
* no stage of an analysis looks at the sink: it notes the same findings in every sink and gives the
  same result (`Uniform`).

Both are closed under what stages are built from, so they hold of the whole analysis
(`uniform_analyze`).
-/

namespace ModelSchema

open ModelSchema.Graph (Domain)

/-! ## Standard findings

The lemmas of `Standard` are simp lemmas for the ways in which lists of findings are put together.
-/

namespace Diagnostic

@[simp] theorem category_report (code : Code) (file message : String) :
    (report code file message).category = code.category := rfl

@[simp] theorem category_comparing (finding : Diagnostic) (expected actual : String) :
    (finding.comparing expected actual).category = finding.category := rfl

@[simp] theorem category_relatedTo (finding : Diagnostic) (related : List String) :
    (finding.relatedTo related).category = finding.category := rfl

end Diagnostic

/-- All findings have the categories of their codes. `Diagnostic.report` gives them; the lemmas of
this section say that nothing takes them away. -/
def Standard (found : List Diagnostic) : Prop :=
  ∀ diagnostic ∈ found, diagnostic.category = diagnostic.code.category

namespace Standard

@[simp] theorem nil : Standard [] :=
  fun _ h => absurd h List.not_mem_nil

@[simp] theorem cons_iff {first : Diagnostic} {rest : List Diagnostic} :
    Standard (first :: rest) ↔ first.category = first.code.category ∧ Standard rest :=
  List.forall_mem_cons

@[simp] theorem append_iff {found others : List Diagnostic} :
    Standard (found ++ others) ↔ Standard found ∧ Standard others :=
  List.forall_mem_append

@[simp] theorem flatMap_iff {α : Type} {entries : List α} {found : α → List Diagnostic} :
    Standard (entries.flatMap found) ↔ ∀ entry ∈ entries, Standard (found entry) := by
  simp only [Standard, List.mem_flatMap]
  exact ⟨fun h entry hentry finding hmem => h finding ⟨entry, hentry, hmem⟩,
    fun h finding ⟨entry, hentry, hmem⟩ => h entry hentry finding hmem⟩

@[simp] theorem map_iff {α : Type} {entries : List α} {finding : α → Diagnostic} :
    Standard (entries.map finding) ↔
      ∀ entry ∈ entries, (finding entry).category = (finding entry).code.category := by
  simp [Standard]

@[simp] theorem findIf_iff {reason : Bool} {finding : Diagnostic} :
    Standard (Check.findIf reason finding) ↔
      (reason = true → finding.category = finding.code.category) := by
  cases reason <;> simp [Check.findIf]

end Standard

/-! ## Checks of the model -/

namespace Check

/-- Every finding about a property is made by `Diagnostic.report`, perhaps with `comparing` or
`relatedTo` after it. -/
theorem standard_property (engine : Sql.Engine) (graph : Graph) (id : ClassId) (isCyclic : Bool)
    (property : Graph.Property) : Standard (Property.check engine graph id isCyclic property) := by
  have hdomain (c : Graph.Class) : Standard (Property.domain graph c property) := by
    rw [Property.domain]
    repeat' split
    all_goals simp
  have hcolumn (c : Graph.Class) : Standard (Property.column engine c property) := by
    simp only [Property.column, Property.columnStart]
    repeat' split
    all_goals simp
  have hlink (c : Graph.Class) : Standard (Property.selfLink c id property) := by
    rw [Property.selfLink]
    split <;> simp
  have hinherited (c : Graph.Class) : Standard (Property.inherited graph c id property) := by
    simp only [Property.inherited]
    repeat' split
    all_goals simp
  rw [Property.check]
  repeat' split
  all_goals simp [Property.persistence, hdomain, hcolumn, hlink, hinherited]

theorem standard_persistent (engine : Sql.Engine) (graph : Graph) (registry : Registry)
    (c : Graph.Class) : Standard (Class.persistent engine graph registry c) := by
  have htrigram : Standard (Class.trigram registry c) := by
    rw [Class.trigram]
    repeat' split
    all_goals simp
  rw [Class.persistent]
  split <;> simp [htrigram]

/-- A class that is skipped has no findings, and the parts of any other are standard. -/
theorem standard_class (options : Options) (graph : Graph) (registry : Registry) (id : ClassId) :
    Standard (Class.check options graph registry id).1 := by
  have hduplicate (c : Graph.Class) : Standard (Class.duplicate registry c) := by
    rw [Class.duplicate]
    split <;> simp
  have hancestry (c : Graph.Class) (ancestry : Graph.Ancestry) :
      Standard (Class.ancestry graph c ancestry) := by
    simp only [Class.ancestry]
    split <;> simp [Class.redeclared]
  rw [Class.check]
  split
  · exact .nil
  · simp only [Class.findings]
    split <;>
      simp [Class.documentation, Class.identity, Class.transient, Class.properties, hduplicate,
        hancestry, standard_persistent, standard_property]

/-- Checking elements in turn makes standard findings if every single check does. -/
theorem standard_inTurn {α : Type} {check : Registry → α → List Diagnostic × Registry}
    (h : ∀ registry entry, Standard (check registry entry).1) (registry : Registry)
    (entries : List α) : Standard (Namespace.inTurn check registry entries).1 := by
  induction entries generalizing registry with
  | nil => exact .nil
  | cons entry rest ih => exact Standard.append_iff.mpr ⟨h registry entry, ih _⟩

/-- A check of the model makes standard findings: every visit of its walk does. -/
theorem standard_run (options : Options) (graph : Graph) : Standard (run options graph).1 := by
  have hvisit (registry : Registry) (v : Visit) :
      Standard (visit options graph registry v).1 := by
    have hduplicate (n : Graph.Namespace) : Standard (Namespace.duplicate registry n) := by
      rw [Namespace.duplicate]
      split <;> simp
    cases v with
    | model root => simp [visit, model, domain]
    | space n => simp [visit, Namespace.findings, hduplicate]
    | member id => exact standard_class options graph registry id
  rw [run_fst]
  simp [domain, standard_inTurn hvisit]

/-! ## Checks of seed data and identifiers -/

/-- Cycles reported before only take findings away. -/
theorem Seed.standard_batches (graph : Graph) (source : Option String)
    (reported : List (List ClassId)) (entries : List (String × ModelSchema.Seed.Batch)) :
    Standard (Seed.batches graph source reported entries) := by
  induction entries generalizing reported with
  | nil => exact .nil
  | cons entry rest ih =>
      rw [Seed.batches]
      split
      · exact Standard.cons_iff.mpr ⟨rfl, ih _⟩
      · split <;> simp [Seed.kind, Seed.item, Seed.cycleFinding, ih]

theorem standard_identifiers (engine : Sql.Engine) (settings : Sql.Settings) (graph : Graph) :
    Standard (Sql.Schema.checkIdentifiers engine settings graph) := by
  simp only [Sql.Schema.checkIdentifiers, Standard.flatMap_iff, Sql.Schema.classFindings]
  intro id _
  split <;> simp [Sql.Schema.overlongFinding]

end Check

/-! ## Mistakes found while reading

Reading may stop with an error, and then the mistakes found so far come with it. So for the passes
that can stop, `Standard` is said of `Outcome.found`. -/

namespace Reading.Assembly

variable {assembly : Assembly}

/-- The one way in which assemblies gather mistakes. -/
theorem standard_note {diagnostic : Diagnostic} (h : Standard assembly.diagnostics)
    (hcategory : diagnostic.category = diagnostic.code.category) :
    Standard (assembly.note diagnostic).diagnostics := by
  simp [note, h, hcategory]

/-- A domain whose code is taken is noted; the others leave the mistakes alone. -/
theorem standard_addDomains (h : Standard assembly.diagnostics) (domains : List Domain) :
    Standard (assembly.addDomains domains).1.diagnostics := by
  induction domains generalizing assembly with
  | nil => exact h
  | cons domain rest ih =>
      apply ih
      rw [addDomain]
      split
      · exact standard_note h rfl
      · exact h

theorem standard_addNamespace (h : Standard assembly.diagnostics) (suffixes : Naming.Suffixes)
    (position : Nat) (document : Document) (declared : Outline.Namespace) :
    Standard (assembly.addNamespace suffixes position document declared).diagnostics := by
  refine Standard.append_iff.mpr ⟨h, fun diagnostic hmem => ?_⟩
  obtain ⟨c, -, hmistake⟩ := List.mem_filterMap.mp hmem
  rw [stereotypeMistake?] at hmistake
  split at hmistake <;> cases hmistake
  rfl

theorem standard_addDocuments (h : Standard assembly.diagnostics) (suffixes : Naming.Suffixes)
    (position : Nat) (documents : List Document) :
    Standard (assembly.addDocuments suffixes position documents).1.diagnostics := by
  induction documents generalizing assembly position with
  | nil => exact h
  | cons document rest ih =>
      apply ih
      exact List.foldlRecOn (motive := fun assembly : Assembly => Standard assembly.diagnostics) _ _ h
        fun _ hbefore declared _ =>
          standard_addNamespace hbefore suffixes position document declared

/-- The passes that cannot stop, in order. -/
theorem standard_withClasses (suffixes : Naming.Suffixes) (shared : List Domain)
    (documents : List Document) :
    Standard (withClasses suffixes shared documents).1.diagnostics := by
  apply standard_addDocuments
  exact List.foldlRecOn (motive := fun assembly : Assembly => Standard assembly.diagnostics) _ _
    (standard_addDomains .nil shared) fun _ hbefore document _ =>
      standard_addDomains hbefore (document.outline.domains.map (domainOf document.path))

/-- Each way to resolve an association notes one mistake at most. -/
theorem standard_apply (h : Standard assembly.diagnostics) (link : Link)
    (resolution : Association.Resolution) :
    Standard (assembly.apply link resolution).diagnostics := by
  rw [apply_eq]
  cases resolution with
  | foreignKey holder isRequired =>
      simp only [effectOf]
      split
      · exact h
      · exact standard_note h rfl
  | foreignKeyList holder isPersistent => exact h
  | composedChild owner isCollection => exact h
  | rejected holder reason => cases reason <;> exact standard_note h rfl

theorem standard_addLink (h : Standard assembly.diagnostics) (link : Link)
    (association : Outline.Association) :
    Standard (assembly.addLink link association).diagnostics := by
  have hcode : Standard (assembly.noteCode link association).diagnostics := by
    refine Standard.append_iff.mpr ⟨h, ?_⟩
    simp only [codeMistake?]
    repeat' split
    all_goals simp
  rw [addLink_eq]
  split
  · exact List.foldlRecOn (motive := fun assembly : Assembly => Standard assembly.diagnostics) _ _ hcode
      fun _ hbefore resolution _ => standard_apply hbefore link resolution
  · exact standard_note hcode rfl

/-- The mistakes found by the time an assembly is complete or stops. -/
def Outcome.found : Outcome → List Diagnostic
  | .ok assembly => assembly.diagnostics
  | .error (_, found) => found

/-- `Outcome` is a monad of errors, in which an error keeps the mistakes found before it. -/
theorem standard_bind {first : Outcome} {next : Assembly → Outcome} (h : Standard first.found)
    (hnext : ∀ before : Assembly, Standard before.diagnostics → Standard (next before).found) :
    Standard (Outcome.found (first >>= next)) := by
  cases first with
  | error stop => exact h
  | ok before => exact hnext before h

/-- Steps that keep to standard mistakes do so over a whole list, wherever it stops. -/
theorem standard_foldlM {α : Type} {step : Assembly → α → Outcome}
    (hstep : ∀ entry, ∀ before : Assembly, Standard before.diagnostics →
      Standard (step before entry).found)
    (entries : List α) (assembly : Assembly) (h : Standard assembly.diagnostics) :
    Standard (Outcome.found (entries.foldlM step assembly)) := by
  induction entries generalizing assembly with
  | nil => exact h
  | cons entry rest ih =>
      rw [List.foldlM_cons]
      exact standard_bind (hstep entry assembly h) ih

theorem standard_addGeneralization (document : Document) (scope : Scope)
    (link : Outline.Generalization) (before : Assembly) (h : Standard before.diagnostics) :
    Standard (addGeneralization document scope before link).found := by
  simp only [addGeneralization]
  split <;> exact h

theorem standard_addAssociation (document : Document) (scope : Scope)
    (association : Outline.Association) (before : Assembly) (h : Standard before.diagnostics) :
    Standard (addAssociation document scope before association).found := by
  simp only [addAssociation]
  split
  · exact standard_addLink h _ association
  · exact h

/-- The passes over links may stop, and the mistakes found until then are still reported. -/
theorem standard_run (suffixes : Naming.Suffixes) (shared : List Domain)
    (documents : List Document) : Standard (run suffixes shared documents).found := by
  have hparents := standard_foldlM
    (fun entry : Document × Scope => standard_foldlM
      (standard_addGeneralization entry.1 entry.2) entry.1.outline.generalizations)
  have hproperties := standard_foldlM
    (fun entry : Document × Scope => standard_foldlM
      (standard_addAssociation entry.1 entry.2) entry.1.outline.associations)
  exact standard_bind
    (hparents (withClasses suffixes shared documents).2 _
      (standard_withClasses suffixes shared documents))
    (hproperties (withClasses suffixes shared documents).2)

end Reading.Assembly

def Reading.found : Except (Reading.Error × List Diagnostic) (Graph × List Diagnostic) →
    List Diagnostic
  | .ok (_, found) => found
  | .error (_, found) => found

/-- Reading makes standard findings, also where it stops. -/
theorem Reading.standard_read (suffixes : Naming.Suffixes) (shared : List Domain)
    (sources : List Source) : Standard (Reading.found (read suffixes shared sources)) := by
  rw [read]
  cases sources.mapM Source.document with
  | error error => exact .nil
  | ok documents =>
      have hrun := Assembly.standard_run suffixes shared documents
      show Standard (Reading.found (Assembly.run suffixes shared documents >>= _))
      cases hassembly : Assembly.run suffixes shared documents with
      | error stop =>
          rw [hassembly] at hrun
          exact hrun
      | ok assembly =>
          rw [hassembly] at hrun
          exact hrun

/-! ## Stages

A stage is a function on sinks. What it does with a sink can be told apart from the sink: it gives a
result and appends findings. -/

namespace Stage

/-- A stage that gives the same result with every sink, and notes the same standard findings. -/
structure Uniform {α : Type} (stage : Stage α) (result : α) (found : List Diagnostic) : Prop where
  run : ∀ sink, stage.run sink = (result, sink.append found)
  standard : Standard found

/-- Together with `Uniform.bind`, that stages are built by `pure` and `>>=` from `note`. -/
theorem uniform_pure {α : Type} (result : α) : Uniform (pure result) result [] := by
  refine ⟨fun sink => ?_, .nil⟩
  rw [Sink.append_nil]
  rfl

/-- Stages that follow each other are a stage. -/
theorem Uniform.bind {α β : Type} {first : Stage α} {next : α → Stage β} {value : α} {result : β}
    {found others : List Diagnostic} (hfirst : Uniform first value found)
    (hnext : Uniform (next value) result others) :
    Uniform (first >>= next) result (found ++ others) := by
  refine ⟨fun sink => ?_, Standard.append_iff.mpr ⟨hfirst.standard, hnext.standard⟩⟩
  rw [StateT.run_bind, hfirst.run]
  show (next value).run (sink.append found) = _
  rw [hnext.run, Sink.append_append]

/-- The only stage that uses its sink. It appends, and does not look at what is there. -/
theorem uniform_note {found : List Diagnostic} (h : Standard found) :
    Uniform (note found) () found :=
  ⟨fun _ => rfl, h⟩

/-- Findings that are noted before a result is given. -/
theorem uniform_result {α : Type} {found : List Diagnostic} (h : Standard found) (result : α) :
    Uniform (do note found; return result) result found :=
  ⟨fun _ => rfl, h⟩

/-- The three checks follow each other, and what they find is appended in this order. -/
theorem uniform_check (options : Check.Options) (engine : Sql.Engine) (settings : Sql.Settings)
    (seed : Seed) (graph : Graph) :
    ∃ survey found, Uniform (check options engine settings seed graph) survey found := by
  have hmodel : Uniform (checkModel options graph) _ _ :=
    uniform_result (Check.standard_run options graph) (Check.run options graph).2
  have hseed : Uniform (checkSeed graph seed) _ _ :=
    uniform_note (Check.Seed.standard_batches graph seed.source [] seed.batches.entries)
  have hidentifiers : Uniform (checkIdentifiers engine settings graph) _ _ :=
    ⟨run_checkIdentifiers engine settings graph, Check.standard_identifiers engine settings graph⟩
  exact ⟨_, _, hmodel.bind (hseed.bind (hidentifiers.bind (uniform_pure _)))⟩

/-- The whole analysis gives one result and one list of findings, whatever sink it starts with. A
sink holds the overrides, so this is what makes them irrelevant. -/
theorem uniform_analyze (suffixes : Naming.Suffixes) (shared : List Domain)
    (sources : List Reading.Source) (seed : Seed) (options : Check.Options) (engine : Sql.Engine)
    (settings : Sql.Settings) :
    ∃ result found,
      Uniform (analyze suffixes shared sources seed options engine settings) result found := by
  have hread := Reading.standard_read suffixes shared sources
  rw [analyze]
  cases hsources : Reading.read suffixes shared sources with
  | error stop =>
      have hstop : Uniform (read suffixes shared sources) (.error stop.1) stop.2 := by
        rw [read, hsources]
        rw [hsources] at hread
        exact uniform_result hread _
      exact ⟨_, _, hstop.bind (uniform_pure _)⟩
  | ok result =>
      have hgraph : Uniform (read suffixes shared sources) (.ok result.1) result.2 := by
        rw [read, hsources]
        rw [hsources] at hread
        exact uniform_result hread _
      obtain ⟨survey, found, hcheck⟩ :=
        uniform_check options engine settings seed (result.1.addSeed seed)
      exact ⟨_, _, hgraph.bind (hcheck.bind (uniform_pure _))⟩

/-- Where documents can be read, `analyze` goes on from the mistakes that `Reading.read` has found.
-/
theorem run_analyze_of_read {suffixes : Naming.Suffixes} {shared : List Domain}
    {sources : List Reading.Source} {graph : Graph} {found : List Diagnostic}
    (h : Reading.read suffixes shared sources = .ok (graph, found)) (seed : Seed)
    (options : Check.Options) (engine : Sql.Engine) (settings : Sql.Settings) (sink : Sink) :
    let checked := (check options engine settings seed (graph.addSeed seed)).run (sink.append found)
    (analyze suffixes shared sources seed options engine settings).run sink =
      (.ok checked.1, checked.2) := by
  rw [analyze, read, h]
  rfl

/-- What a project makes of documents that can be read is such an analysis, with the settings of the
project for its arguments. -/
theorem run_analyze_of_config {config : Config} {shared : List Domain}
    {sources : List Reading.Source} {graph : Graph} {found : List Diagnostic}
    (h : Reading.read config.suffixes shared sources = .ok (graph, found)) (seed : Seed) :
    let analysis := Analysis.ofContent config (.new config.severity graph found seed)
    (analyze config.suffixes shared sources seed
        ⟨config.suffixes, config.engine, config.allowlist⟩ config.engine config.sqlSettings).run
        (.empty config.severity) =
      (.ok ⟨analysis.graph, analysis.stats, analysis.overlong⟩, analysis.sink) :=
  run_analyze_of_read h seed _ _ _ _

end Stage

def SameButCategory (a b : Diagnostic) : Prop :=
  a = { b with category := a.category }

/-- For all documents, shared domains, seed data, options of the checks, engines and settings: an
analysis that starts with an empty sink gives the same result whatever the categories of codes are,
and the same findings in the same order up to their categories. The category of a finding is the one
that overrides give its code, or else that of the code itself. -/
theorem overrides_change_categories_only (suffixes : Naming.Suffixes) (shared : List Domain)
    (sources : List Reading.Source) (seed : Seed) (options : Check.Options) (engine : Sql.Engine)
    (settings : Sql.Settings) (first second : Severity) :
    let analysis := fun severity =>
      (Stage.analyze suffixes shared sources seed options engine settings).run (.empty severity)
    (analysis first).1 = (analysis second).1 ∧
      List.Forall₂ SameButCategory (analysis first).2.diagnostics
        (analysis second).2.diagnostics ∧
      ∀ severity, ∀ diagnostic ∈ (analysis severity).2.diagnostics,
        diagnostic.category =
          (severity.overrides.get? diagnostic.code.name).getD diagnostic.code.category := by
  obtain ⟨result, found, huniform⟩ :=
    Stage.uniform_analyze suffixes shared sources seed options engine settings
  simp only [huniform.run, true_and]
  refine ⟨?_, fun severity diagnostic hmem => ?_⟩
  · simp only [Sink.append, Sink.empty, List.nil_append, List.forall₂_map_left_iff,
      List.forall₂_map_right_iff]
    exact List.forall₂_same.mpr fun diagnostic _ => rfl
  · obtain ⟨made, hmade, rfl⟩ := List.mem_map.mp hmem
    show (severity.overrides.get? made.code.name).getD made.category = _
    rw [huniform.standard made hmade]
    rfl

/-- Associations that cannot be implemented need documenting only, and labels must not be missing.
-/
def exchanged : Severity :=
  (Severity.standard.override .readUnimplementableAssociation .doc).override .missingLabel .fatal

/-- The analysis of documents for an engine with sequences. -/
def sampleAnalysis (sources : List Reading.Source) (severity : Severity) :
    Except Reading.Error Survey × Sink :=
  (Stage.analyze .standard [] sources .empty ⟨.standard, .oracle, ⟨[]⟩⟩ .oracle
    Sql.Seeding.sampleSettings).run (.empty severity)

/-- The document `Reading.sample` has 21 findings. Two overrides move four of them to other
categories, among them the only one that reading makes. -/
theorem overrides_change_categories_sample :
    let analysis := sampleAnalysis [Reading.sample]
    (analysis .standard).2.size = 21 ∧
      (analysis .standard).2.diagnostics.head?.map (·.category) = some .bug ∧
      (analysis exchanged).2.diagnostics.head?.map (·.category) = some .doc ∧
      (analysis .standard).2.count .fatal = 0 ∧
      (analysis exchanged).2.count .fatal = 3 ∧
      (analysis .standard).1 = (analysis exchanged).1 ∧
      List.Forall₂ SameButCategory (analysis .standard).2.diagnostics
        (analysis exchanged).2.diagnostics := by
  obtain ⟨graph, found, hread, hchecked⟩ := Reading.exists_read_sample
    (P := fun graph found =>
      let checked := fun severity =>
        (Stage.check ⟨.standard, .oracle, ⟨[]⟩⟩ .oracle Sql.Seeding.sampleSettings .empty
          (graph.addSeed .empty)).run ((Sink.empty severity).append found)
      (checked .standard).2.size == 21 &&
        (checked .standard).2.diagnostics.head?.map (·.category) == some .bug &&
        (checked exchanged).2.diagnostics.head?.map (·.category) == some .doc &&
        (checked .standard).2.count .fatal == 0 && (checked exchanged).2.count .fatal == 3)
    (by decide +kernel)
  -- For all documents, so that nothing evaluates the analysis of this one again.
  have hsame (sources : List Reading.Source) :
      (sampleAnalysis sources .standard).1 = (sampleAnalysis sources exchanged).1 ∧
        List.Forall₂ SameButCategory (sampleAnalysis sources .standard).2.diagnostics
          (sampleAnalysis sources exchanged).2.diagnostics :=
    have h := overrides_change_categories_only .standard [] sources .empty
      ⟨.standard, .oracle, ⟨[]⟩⟩ .oracle Sql.Seeding.sampleSettings .standard exchanged
    ⟨h.1, h.2.1⟩
  have hrun (severity : Severity) : (sampleAnalysis [Reading.sample] severity).2 =
      ((Stage.check ⟨.standard, .oracle, ⟨[]⟩⟩ .oracle Sql.Seeding.sampleSettings .empty
        (graph.addSeed .empty)).run ((Sink.empty severity).append found)).2 := by
    rw [sampleAnalysis, Stage.run_analyze_of_read hread]
  simp only [Bool.and_eq_true, beq_iff_eq] at hchecked
  rw [← hrun .standard, ← hrun exchanged] at hchecked
  obtain ⟨⟨⟨⟨hsize, hbug⟩, hdoc⟩, hnone⟩, hthree⟩ := hchecked
  exact ⟨hsize, hbug, hdoc, hnone, hthree, hsame [Reading.sample]⟩

end ModelSchema
