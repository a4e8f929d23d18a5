import Mathlib
import ModelSchema.Check.Model
import ModelSchema.Proofs.Graph.WellFormed

/-!
# The walk of a check

A check goes from model to model, from namespace to namespace and from class to class, and hands on
the names in use. Seen as one sequence of visits, it counts the models and namespaces that it visits
(`run_eq`), and each visit claims at most one name of each kind, and reports the name if it is
taken. From this it follows for a whole walk:

* every name belongs to the first element that claims it (`get?_names_inTurn`), so there are as many
  names as different ones are claimed (`size_names_inTurn`);
* the findings about names that are taken tell the first owners (`related_inTurn`), and every claim
  adds either a name or a finding (`count_inTurn`);
* there is no finding exactly if the elements on their own give none and no name is claimed twice
  (`inTurn_eq_nil_iff`).
-/

namespace ModelSchema.Check

open Namespace (inTurn)

theorem findIf_eq_nil_iff {reason : Bool} {finding : Diagnostic} :
    findIf reason finding = [] ↔ reason = false := by
  cases reason <;> simp [findIf]

/-! ## Elements in turn -/

section InTurn

variable {α β : Type} (check : Registry → α → List Diagnostic × Registry)

theorem inTurn_cons (registry : Registry) (first : α) (rest : List α) :
    inTurn check registry (first :: rest) =
      ((check registry first).1 ++ (inTurn check (check registry first).2 rest).1,
        (inTurn check (check registry first).2 rest).2) := rfl

/-- Checking two lists in turn is checking one after the other, with the registry handed on. This
and `inTurn_flatMap` flatten the nested loops of a check. -/
theorem inTurn_append (registry : Registry) (entries others : List α) :
    inTurn check registry (entries ++ others) =
      ((inTurn check registry entries).1
          ++ (inTurn check (inTurn check registry entries).2 others).1,
        (inTurn check (inTurn check registry entries).2 others).2) := by
  induction entries generalizing registry with
  | nil => rfl
  | cons first rest ih => simp [inTurn_cons, ih]

/-- A loop in a loop is one loop. -/
theorem inTurn_flatMap (f : β → List α) (registry : Registry) (entries : List β) :
    inTurn check registry (entries.flatMap f) =
      inTurn (fun registry entry => inTurn check registry (f entry)) registry entries := by
  induction entries generalizing registry with
  | nil => rfl
  | cons first rest ih => simp [inTurn_cons, inTurn_append, ih]

theorem inTurn_map (f : β → α) (registry : Registry) (entries : List β) :
    inTurn check registry (entries.map f) =
      inTurn (fun registry entry => check registry (f entry)) registry entries := by
  induction entries generalizing registry with
  | nil => rfl
  | cons first rest ih => simp [inTurn_cons, ih]

end InTurn

/-- What a check looks at next: a model with the domains it declares, a namespace, or a class. -/
inductive Visit where
  | model (root : Graph.Model)
  | space (id : NamespaceId)
  | member (id : ClassId)

/-- What is visited in a model: the model itself before its namespaces, each of them before its
classes. -/
def visitsIn (graph : Graph) (root : Graph.Model) : List Visit :=
  .model root :: root.namespaces.flatMap fun n =>
    .space n :: (graph.namespaceAt n).classes.map .member

def visits (graph : Graph) : List Visit :=
  graph.models.flatMap (visitsIn graph)

/-- The findings of one visit, and the names in use after it. -/
def visit (options : Options) (graph : Graph) (registry : Registry) :
    Visit → List Diagnostic × Registry
  | .model root => (model root ++ (ownDomains graph root).flatMap domain, registry)
  | .space n =>
    let space := graph.namespaceAt n
    (Namespace.findings options.suffixes registry space,
      registry.claimNamespace space.name space.file)
  | .member id => Class.check options graph registry id

/-! ## Counted visits -/

section Progress

variable (options : Options) (graph : Graph)

/-- The loop over domains in closed form: findings are appended, and each domain is counted. -/
theorem foldl_domain (progress : Progress) (domains : List Graph.Domain) :
    domains.foldl Progress.domain progress =
      { progress with
        found := progress.found ++ domains.flatMap domain
        stats := { progress.stats with domains := progress.stats.domains + domains.length } } := by
  induction domains generalizing progress with
  | nil => simp
  | cons first rest ih =>
      rw [List.foldl_cons, ih]
      simp only [Progress.domain, List.flatMap_cons, List.append_assoc, List.length_cons]
      congr 2
      omega

/-- The loop over namespaces in closed form. The registry goes from one to the next. -/
theorem foldl_space (progress : Progress) (ids : List NamespaceId) :
    ids.foldl (Progress.space options graph) progress =
      let walk := inTurn (Namespace.check options graph) progress.registry ids
      { found := progress.found ++ walk.1
        registry := walk.2
        stats := { progress.stats with
          namespaces := progress.stats.namespaces + ids.length } } := by
  induction ids generalizing progress with
  | nil => simp [inTurn]
  | cons first rest ih =>
      rw [List.foldl_cons, ih]
      simp only [Progress.space, inTurn_cons, List.append_assoc, List.length_cons]
      congr 2
      omega

/-- A model is looked at with one visit to itself and one to each namespace and class in it. -/
theorem inTurn_visitsIn (registry : Registry) (root : Graph.Model) :
    inTurn (visit options graph) registry (visitsIn graph root) =
      let walk := inTurn (Namespace.check options graph) registry root.namespaces
      (model root ++ (ownDomains graph root).flatMap domain ++ walk.1, walk.2) := by
  have hspace (registry : Registry) (n : NamespaceId) :
      inTurn (visit options graph) registry
          (.space n :: (graph.namespaceAt n).classes.map .member) =
        Namespace.check options graph registry n := by
    rw [inTurn_cons, inTurn_map]
    rfl
  rw [visitsIn, inTurn_cons, inTurn_flatMap]
  simp only [hspace]
  rfl

/-- One round of the loop over models in closed form, with the nested visits as one walk. -/
theorem document_eq (progress : Progress) (root : Graph.Model) :
    Progress.document options graph progress root =
      let walk := inTurn (visit options graph) progress.registry (visitsIn graph root)
      let stats := progress.stats
      { found := progress.found ++ walk.1
        registry := walk.2
        stats := ⟨stats.models + 1, stats.domains + (ownDomains graph root).length,
          stats.namespaces + root.namespaces.length, stats.classes⟩ } := by
  rw [Progress.document, foldl_domain, foldl_space, inTurn_visitsIn]
  simp [Progress.model]

/-- The whole loop over models in closed form. -/
theorem foldl_document (progress : Progress) (models : List Graph.Model) :
    models.foldl (Progress.document options graph) progress =
      let walk := inTurn (visit options graph) progress.registry (models.flatMap (visitsIn graph))
      let stats := progress.stats
      { found := progress.found ++ walk.1
        registry := walk.2
        stats := ⟨stats.models + models.length,
          stats.domains + (models.flatMap (ownDomains graph)).length,
          stats.namespaces + (models.flatMap (·.namespaces)).length, stats.classes⟩ } := by
  -- On the models. The counters add up, and `inTurn_append` joins the walks.
  induction models generalizing progress with
  | nil => simp [inTurn]
  | cons root rest ih =>
      rw [List.foldl_cons, ih, document_eq]
      simp only [List.flatMap_cons, inTurn_append, List.append_assoc, List.length_cons,
        List.length_append]
      congr 2 <;> omega

/-- A check finds what its visits find in turn, after the domains that no document declares. It
counts the models, domains and namespaces that it visits, and the names that classes have claimed
in the end. -/
theorem run_eq :
    run options graph =
      let walk := inTurn (visit options graph) .empty (visits graph)
      ((sharedDomains graph).flatMap domain ++ walk.1,
        { models := graph.models.length
          domains := (sharedDomains graph).length + (graph.models.flatMap (ownDomains graph)).length
          namespaces := (graph.models.flatMap (·.namespaces)).length
          classes := walk.2.classes.size }) := by
  rw [run, foldl_domain, foldl_document]
  simp [Progress.start, visits]

/-- What most proofs need of `run_eq`: where findings come from. -/
theorem run_fst :
    (run options graph).1 = (sharedDomains graph).flatMap domain ++
      (inTurn (visit options graph) .empty (visits graph)).1 := by
  rw [run_eq]

end Progress

/-! ## Claims

A registry has one table for each kind of names. A visit claims at most one name of a kind, so the
tables after a walk and the findings about names can both be read off the list of claims. -/

/-- The kinds of names that no two elements share. For each there is a table in the `Registry` and a
code for findings, and all that follows is said once for the three of them. -/
inductive NameKind where
  | namespaces
  | classes
  | trigrams
deriving DecidableEq

def Registry.names (registry : Registry) : NameKind → Catalog String
  | .namespaces => registry.namespaces
  | .classes => registry.classes
  | .trigrams => registry.trigrams

/-- The kind of the names that a finding says are taken. -/
def NameKind.ofCode? : Code → Option NameKind
  | .namespaceDuplicate => some .namespaces
  | .classDuplicate => some .classes
  | .classDuplicateTrigram => some .trigrams
  | _ => none

/-- The code of the findings that a name of a kind is taken. -/
def NameKind.code : NameKind → Code
  | .namespaces => .namespaceDuplicate
  | .classes => .classDuplicate
  | .trigrams => .classDuplicateTrigram

/-- `ofCode?` is the partial inverse of `NameKind.code`. -/
theorem NameKind.ofCode?_eq_some_iff {code : Code} {kind : NameKind} :
    NameKind.ofCode? code = some kind ↔ code = kind.code := by
  constructor
  · intro h
    unfold ofCode? at h
    split at h <;> cases h <;> rfl
  · rintro rfl
    cases kind <;> rfl

/-- The trigram that a class claims. -/
def claimed? (graph : Graph) (id : ClassId) : Option String :=
  if (graph.classAt id).isPersistent then (graph.classAt id).trigram else none

/-- The name of a kind that a visit claims, and for whom. This is all that a visit does to the
registry (`names_visit`) and all that it asks of it (`related_visit`). -/
def claim? (options : Options) (graph : Graph) : NameKind → Visit → Option (String × String)
  | .namespaces, .space n => some ((graph.namespaceAt n).name, (graph.namespaceAt n).file)
  | .classes, .member id =>
    if options.allowlist.skips (graph.classAt id).name then none
    else some ((graph.classAt id).name, (graph.classAt id).file)
  | .trigrams, .member id =>
    if options.allowlist.skips (graph.classAt id).name then none
    else (claimed? graph id).map (·, (graph.classAt id).name)
  | _, _ => none

section Claim

variable (names : Catalog String) (name owner : String)

/-- The law of `Registry.claim`: a name that is taken keeps its owner. -/
theorem get?_claim (other : String) :
    (Registry.claim names name owner).get? other =
      (names.get? other).or (if other = name then some owner else none) := by
  rw [Registry.claim]
  split
  · next hknown =>
    obtain ⟨first, hfirst⟩ := Option.isSome_iff_exists.mp hknown
    split
    · next heq => simp [heq, hfirst]
    · simp
  · next hnew =>
    rw [Catalog.get?_insert]
    split
    · next heq => simp_all [Catalog.contains]
    · simp

/-- A claim makes the table larger, or the name has an owner; one of both, and never both. -/
theorem size_claim :
    (Registry.claim names name owner).size + (names.get? name).toList.length =
      names.size + 1 := by
  rw [Registry.claim]
  split
  · next hknown =>
    obtain ⟨first, hfirst⟩ := Option.isSome_iff_exists.mp hknown
    rw [hfirst]
    rfl
  · next hnew =>
    have hfree : names.get? name = none := by simpa [Catalog.contains] using hnew
    rw [Catalog.size_insert names owner (by simpa using hnew), hfree]
    rfl

end Claim

section Visit

variable (options : Options) (graph : Graph) (registry : Registry) (kind : NameKind) (v : Visit)

/-- A visit registers the names that it claims. The step lemma of everything about the registry. -/
theorem names_visit :
    (visit options graph registry v).2.names kind =
      (claim? options graph kind v).elim (registry.names kind) fun claim =>
        Registry.claim (registry.names kind) claim.1 claim.2 := by
  cases v with
  | model root => cases kind <;> rfl
  | space n => cases kind <;> rfl
  | member id =>
      by_cases hskip : options.allowlist.skips (graph.classAt id).name = true
      · cases kind <;> simp [visit, Class.check, hskip, claim?]
      -- Trigrams are claimed by persistent classes only, and only if there is one.
      · cases hpersistent : (graph.classAt id).isPersistent <;>
          cases htrigram : (graph.classAt id).trigram <;> cases kind <;>
          simp [visit, Class.check, hskip, claim?, claimed?, hpersistent, htrigram, Class.claims,
            Registry.names, Registry.claimClass, Registry.claimTrigram]

/-! ## Findings about names

Most findings of a visit have nothing to do with the registry (`Silent`). What is left, for each
kind of names, is at most one finding, and it tells the owner of the name (`related_visit`). -/

/-- None of the findings is about a name that is taken. -/
def Silent (findings : List Diagnostic) : Prop :=
  ∀ finding ∈ findings, NameKind.ofCode? finding.code = none

end Visit

@[simp] theorem silent_nil : Silent [] :=
  fun _ h => absurd h List.not_mem_nil

@[simp] theorem silent_singleton {finding : Diagnostic} :
    Silent [finding] ↔ NameKind.ofCode? finding.code = none := by
  simp [Silent]

@[simp] theorem silent_append {findings others : List Diagnostic} :
    Silent (findings ++ others) ↔ Silent findings ∧ Silent others := by
  simp only [Silent, List.mem_append, or_imp, forall_and]

@[simp] theorem silent_flatMap {α : Type} {entries : List α} {findings : α → List Diagnostic} :
    Silent (entries.flatMap findings) ↔ ∀ entry ∈ entries, Silent (findings entry) := by
  simp only [Silent, List.mem_flatMap]
  exact ⟨fun h entry hentry finding hmem => h finding ⟨entry, hentry, hmem⟩,
    fun h finding ⟨entry, hentry, hmem⟩ => h entry hentry finding hmem⟩

@[simp] theorem silent_findIf {reason : Bool} {finding : Diagnostic} :
    Silent (findIf reason finding) ↔
      (reason = true → NameKind.ofCode? finding.code = none) := by
  cases reason <;> simp [findIf]

@[simp] theorem silent_map {α : Type} {entries : List α} {finding : α → Diagnostic} :
    Silent (entries.map finding) ↔
      ∀ entry ∈ entries, NameKind.ofCode? (finding entry).code = none := by
  simp [Silent]

@[simp] theorem code_report (code : Code) (file message : String) :
    (Diagnostic.report code file message).code = code := rfl

@[simp] theorem code_comparing (finding : Diagnostic) (expected actual : String) :
    (finding.comparing expected actual).code = finding.code := rfl

@[simp] theorem code_relatedTo (finding : Diagnostic) (related : List String) :
    (finding.relatedTo related).code = finding.code := rfl

/-- No finding about a property is about a name that is taken. -/
theorem silent_property (engine : Sql.Engine) (graph : Graph) (id : ClassId) (isCyclic : Bool)
    (property : Graph.Property) : Silent (Property.check engine graph id isCyclic property) := by
  have hdomain (c : Graph.Class) : Silent (Property.domain graph c property) := by
    rw [Property.domain]
    repeat' split
    all_goals simp [NameKind.ofCode?]
  have hcolumn (c : Graph.Class) : Silent (Property.column engine c property) := by
    simp only [Property.column, Property.columnStart]
    repeat' split
    all_goals simp [NameKind.ofCode?]
  have hlink (c : Graph.Class) : Silent (Property.selfLink c id property) := by
    rw [Property.selfLink]
    split <;> simp [NameKind.ofCode?]
  have hinherited (c : Graph.Class) : Silent (Property.inherited graph c id property) := by
    simp only [Property.inherited]
    repeat' split
    all_goals simp [NameKind.ofCode?]
  rw [Property.check]
  cases property.isPrimitive <;> cases isCyclic <;>
    simp [Property.persistence, NameKind.ofCode?, hdomain, hcolumn, hlink, hinherited]

theorem silent_ancestry (graph : Graph) (c : Graph.Class) (ancestry : Graph.Ancestry) :
    Silent (Class.ancestry graph c ancestry) := by
  simp only [Class.ancestry]
  split
  · simp [NameKind.ofCode?]
  · simp [Class.redeclared, NameKind.ofCode?]

/-- The findings about names of a kind that are taken. -/
def NameKind.among (kind : NameKind) (findings : List Diagnostic) : List Diagnostic :=
  findings.filter fun finding => NameKind.ofCode? finding.code == some kind

@[simp] theorem among_nil (kind : NameKind) : kind.among [] = [] := rfl

@[simp] theorem among_append (kind : NameKind) (findings others : List Diagnostic) :
    kind.among (findings ++ others) = kind.among findings ++ kind.among others :=
  List.filter_append ..

@[simp] theorem among_cons (kind : NameKind) (finding : Diagnostic) (rest : List Diagnostic) :
    kind.among (finding :: rest) =
      if NameKind.ofCode? finding.code = some kind then finding :: kind.among rest
      else kind.among rest := by
  simp [NameKind.among, List.filter_cons]

@[simp] theorem among_findIf (kind : NameKind) (reason : Bool) (finding : Diagnostic) :
    kind.among (findIf reason finding) =
      if NameKind.ofCode? finding.code = some kind then findIf reason finding else [] := by
  cases reason <;> simp [findIf]

/-- `among` filters by kind; reports are counted by code. -/
theorem among_eq_filter (kind : NameKind) (findings : List Diagnostic) :
    kind.among findings = findings.filter (·.code == kind.code) := by
  refine List.filter_congr fun finding _ => ?_
  rw [Bool.eq_iff_iff, beq_iff_eq, beq_iff_eq, NameKind.ofCode?_eq_some_iff]

/-- What is silent adds nothing to the findings about names. -/
theorem among_of_silent (kind : NameKind) {findings : List Diagnostic} (h : Silent findings) :
    kind.among findings = [] := by
  refine List.filter_eq_nil_iff.mpr fun finding hfinding => ?_
  simp [h finding hfinding]

section Related

variable (options : Options) (graph : Graph) (registry : Registry) (kind : NameKind)

/-- Among the findings about the identity of a class, only that of its name counts here, and
likewise only that of its trigram in `among_persistent`. -/
theorem among_identity (home : Graph.Namespace) (c : Graph.Class) :
    kind.among (Class.identity registry home c) = kind.among (Class.duplicate registry c) := by
  simp [Class.identity, NameKind.ofCode?]

theorem among_persistent (engine : Sql.Engine) (c : Graph.Class) :
    kind.among (Class.persistent engine graph registry c) =
      kind.among (Class.trigram registry c) := by
  rw [Class.persistent]
  cases c.parent <;> simp [NameKind.ofCode?]

theorem among_transient (c : Graph.Class) : kind.among (Class.transient c) = [] :=
  among_of_silent kind (by simp [Class.transient, NameKind.ofCode?])

/-- What matters about a class are its name and its trigram. -/
theorem among_findings (id : ClassId) :
    kind.among (Class.findings options.engine graph registry id) =
      kind.among (Class.duplicate registry (graph.classAt id)) ++
        if (graph.classAt id).isPersistent then
          kind.among (Class.trigram registry (graph.classAt id))
        else [] := by
  have hdocumentation : Silent (Class.documentation (graph.classAt id)) := by
    simp [Class.documentation, NameKind.ofCode?]
  have hproperties : Silent (Class.properties (graph.classAt id)) := by
    simp [Class.properties, NameKind.ofCode?]
  have hancestry := silent_ancestry graph (graph.classAt id) (graph.ancestors id)
  have hchecks : Silent ((graph.classAt id).properties.flatMap
      (Property.check options.engine graph id (graph.ancestors id).isCyclic)) :=
    silent_flatMap.mpr fun property _ => silent_property _ _ _ _ property
  simp only [Class.findings, among_append, among_of_silent kind hdocumentation,
    among_of_silent kind hproperties, among_of_silent kind hancestry, among_of_silent kind hchecks,
    List.append_nil, List.nil_append, among_identity]
  split
  · rw [among_persistent]
  · rw [among_transient]

/-- The owner of the name of a class, if it is taken. -/
theorem related_duplicate (c : Graph.Class) :
    (kind.among (Class.duplicate registry c)).map (·.related) =
      if kind = .classes then (registry.classes.get? c.name).toList.map ([·]) else [] := by
  rw [Class.duplicate]
  cases registry.classes.get? c.name <;> cases kind <;>
    simp [NameKind.ofCode?, Diagnostic.relatedTo]

theorem related_trigram (c : Graph.Class) :
    (kind.among (Class.trigram registry c)).map (·.related) =
      if kind = .trigrams then (c.trigram.bind registry.trigrams.get?).toList.map ([·])
      else [] := by
  rw [Class.trigram]
  cases c.trigram with
  | none => cases kind <;> simp [NameKind.ofCode?]
  | some trigram =>
      cases hfound : registry.trigrams.get? trigram <;> cases kind <;>
        simp [NameKind.ofCode?, Diagnostic.relatedTo, hfound]

/-- A visit that claims a name which is taken reports it, and tells the owner. -/
theorem related_visit (v : Visit) :
    (kind.among (visit options graph registry v).1).map (·.related) =
      ((claim? options graph kind v).bind fun claim =>
        (registry.names kind).get? claim.1).toList.map ([·]) := by
  cases v with
  | model root =>
      have hsilent : Silent (visit options graph registry (.model root)).1 := by
        simp [visit, model, domain, NameKind.ofCode?]
      rw [among_of_silent kind hsilent]
      cases kind <;> rfl
  | space n =>
      simp only [visit, Namespace.findings, Namespace.duplicate]
      cases hfound : registry.namespaces.get? (graph.namespaceAt n).name <;> cases kind <;>
        simp [NameKind.ofCode?, claim?, Registry.names, Diagnostic.relatedTo, hfound]
  | member id =>
      by_cases hskip : options.allowlist.skips (graph.classAt id).name = true
      · cases kind <;> simp [visit, Class.check, hskip, claim?]
      · have hvisit : (visit options graph registry (.member id)).1 =
            Class.findings options.engine graph registry id := by
          simp [visit, Class.check, hskip]
        rw [hvisit, among_findings, List.map_append, related_duplicate, apply_ite (List.map _),
          related_trigram]
        cases hpersistent : (graph.classAt id).isPersistent <;> cases kind <;>
          simp [claim?, hskip, claimed?, hpersistent, Registry.names, Option.bind_map]

/-- No finding about the name of a class says that the name is free. -/
theorem duplicate_eq_nil_iff (c : Graph.Class) :
    Class.duplicate registry c = [] ↔ registry.classes.contains c.name = false := by
  rw [Class.duplicate, Catalog.contains]
  cases registry.classes.get? c.name <;> simp

theorem trigram_eq_nil_iff (c : Graph.Class) :
    Class.trigram registry c = [] ↔ Class.trigram .empty c = [] ∧
      ∀ trigram, c.trigram = some trigram → registry.trigrams.contains trigram = false := by
  simp only [Class.trigram]
  cases c.trigram with
  | none => simp
  | some trigram =>
      have hempty : Registry.empty.trigrams.get? trigram = none := rfl
      cases hfound : registry.trigrams.get? trigram <;>
        simp [Catalog.contains, hfound, hempty]

/-- The registry matters to the findings about a class only through its name and its trigram.
Compared to the empty registry, two conditions are added. -/
theorem findings_eq_nil_iff (engine : Sql.Engine) (id : ClassId) :
    Class.findings engine graph registry id = [] ↔
      Class.findings engine graph .empty id = [] ∧
        registry.classes.contains (graph.classAt id).name = false ∧
        ∀ trigram, claimed? graph id = some trigram →
          registry.trigrams.contains trigram = false := by
  have hduplicate : Class.duplicate .empty (graph.classAt id) = [] := rfl
  have hname := duplicate_eq_nil_iff registry (graph.classAt id)
  have htrigram := trigram_eq_nil_iff registry (graph.classAt id)
  simp only [Class.findings, Class.identity, claimed?, List.append_eq_nil_iff, hname, hduplicate]
  cases (graph.classAt id).isPersistent with
  | false => simp; tauto
  | true =>
      simp only [if_true, Class.persistent, List.append_eq_nil_iff, htrigram]
      tauto

/-- A namespace claims its name, and nothing of the other kinds. -/
theorem forall_claim?_space (n : NamespaceId) :
    (∀ kind claim, claim? options graph kind (.space n) = some claim →
        (registry.names kind).contains claim.1 = false) ↔
      registry.namespaces.contains (graph.namespaceAt n).name = false := by
  constructor
  · intro h
    exact h .namespaces _ rfl
  · rintro h (_ | _ | _) claim hclaim
    · cases hclaim
      exact h
    · cases hclaim
    · cases hclaim

/-- A class that is checked claims its name and, if it has one that counts, its trigram. -/
theorem forall_claim?_member {id : ClassId}
    (hskip : ¬ options.allowlist.skips (graph.classAt id).name = true) :
    (∀ kind claim, claim? options graph kind (.member id) = some claim →
        (registry.names kind).contains claim.1 = false) ↔
      registry.classes.contains (graph.classAt id).name = false ∧
        ∀ trigram, claimed? graph id = some trigram →
          registry.trigrams.contains trigram = false := by
  constructor
  · intro h
    refine ⟨h .classes ((graph.classAt id).name, (graph.classAt id).file) ?_,
      fun trigram htrigram => h .trigrams (trigram, (graph.classAt id).name) ?_⟩
    · simp [claim?, hskip]
    · simp [claim?, hskip, htrigram]
  -- Namespaces, classes and trigrams: a class claims none of the first.
  · rintro ⟨hname, htrigram⟩ (_ | _ | _) claim hclaim
    · cases hclaim
    · simp only [claim?, hskip] at hclaim
      cases hclaim
      exact hname
    · simp only [claim?, hskip] at hclaim
      obtain ⟨trigram, hclaimed, rfl⟩ := Option.map_eq_some_iff.mp hclaim
      exact htrigram trigram hclaimed

/-- A visit has no findings exactly if it has none of its own and the names it claims are free. -/
theorem visit_eq_nil_iff (v : Visit) :
    (visit options graph registry v).1 = [] ↔
      (visit options graph .empty v).1 = [] ∧
        ∀ kind claim, claim? options graph kind v = some claim →
          (registry.names kind).contains claim.1 = false := by
  cases v with
  | model root =>
      have hnone (kind : NameKind) : claim? options graph kind (.model root) = none := by
        cases kind <;> rfl
      simp [visit, hnone]
  | space n =>
      have hempty : Registry.empty.namespaces.get? (graph.namespaceAt n).name = none := rfl
      rw [forall_claim?_space, Catalog.contains]
      simp only [visit, Namespace.findings, Namespace.duplicate, hempty, List.append_nil]
      cases registry.namespaces.get? (graph.namespaceAt n).name <;> simp
  | member id =>
      by_cases hskip : options.allowlist.skips (graph.classAt id).name = true
      · have hnone (kind : NameKind) : claim? options graph kind (.member id) = none := by
          cases kind <;> simp [claim?, hskip]
        simp [visit, Class.check, hskip, hnone]
      · rw [forall_claim?_member options graph registry hskip]
        simp only [visit, Class.check, hskip]
        exact findings_eq_nil_iff graph registry options.engine id

end Related

/-! ## Walks

The step lemmas of the last two sections along a walk. Each proof is an induction on the visits for
every registry, since a visit changes what the next one sees. -/

section Walk

variable (options : Options) (graph : Graph) (registry : Registry) (kind : NameKind)

def claims (walk : List Visit) : List (String × String) :=
  walk.filterMap (claim? options graph kind)

theorem claims_cons (v : Visit) (rest : List Visit) :
    claims options graph kind (v :: rest) =
      (claim? options graph kind v).toList ++ claims options graph kind rest := by
  cases h : claim? options graph kind v <;> simp [claims, h]

/-- A name belongs to the first who claims it, in the order of the walk. -/
theorem get?_names_inTurn (walk : List Visit) (name : String) :
    ((inTurn (visit options graph) registry walk).2.names kind).get? name =
      ((registry.names kind).get? name).or ((claims options graph kind walk).lookup name) := by
  induction walk generalizing registry with
  | nil => simp [inTurn, claims]
  | cons v rest ih =>
      rw [inTurn_cons, ih, names_visit, claims_cons]
      cases claim? options graph kind v with
      | none => simp
      | some claim =>
          obtain ⟨own, owner⟩ := claim
          simp only [Option.elim_some, get?_claim, Option.toList_some, List.cons_append,
            List.nil_append, Catalog.lookup_cons_eq_ite, Option.or_assoc]
          congr 1
          split <;> simp

/-- Every claim adds a name or gives a finding. `size_claim` along the walk. -/
theorem count_inTurn (walk : List Visit) :
    ((inTurn (visit options graph) registry walk).2.names kind).size +
        (kind.among (inTurn (visit options graph) registry walk).1).length =
      (registry.names kind).size + (claims options graph kind walk).length := by
  induction walk generalizing registry with
  | nil => rfl
  | cons v rest ih =>
      have hrest := ih (visit options graph registry v).2
      have hfound := congrArg List.length (related_visit options graph registry kind v)
      rw [names_visit] at hrest
      rw [List.length_map] at hfound
      rw [inTurn_cons, claims_cons, among_append, List.length_append, List.length_append, hfound]
      cases hclaim : claim? options graph kind v with
      | none =>
          simp only [hclaim, Option.elim_none] at hrest
          simpa using hrest
      | some claim =>
          have hsize := size_claim (registry.names kind) claim.1 claim.2
          simp only [hclaim, Option.elim_some] at hrest
          simp only [Option.bind_some, Option.toList_some, List.length_map, List.length_singleton]
          omega

/-- There are as many names as different ones have been claimed. -/
theorem size_names_inTurn (walk : List Visit) :
    ((inTurn (visit options graph) .empty walk).2.names kind).size =
      ((claims options graph kind walk).map (·.1)).dedup.length := by
  set names := (inTurn (visit options graph) .empty walk).2.names kind with hnames
  have hperm : names.names.Perm ((claims options graph kind walk).map (·.1)).dedup := by
    rw [List.perm_ext_iff_of_nodup names.nodup_names (List.nodup_dedup _)]
    intro name
    have hempty : (Registry.empty.names kind).get? name = none := by cases kind <;> rfl
    rw [Catalog.mem_names_iff, Catalog.contains, hnames, get?_names_inTurn, hempty,
      Option.none_or, List.mem_dedup, List.lookup_isSome_iff, List.mem_map]
    simp only [beq_iff_eq, eq_comm (a := name)]
  rw [← hperm.length_eq, Catalog.names, List.length_map, Catalog.size]

/-- The owners of the names that are claimed once more, given those known before. -/
def reclaimed (known : String → Option String) : List (String × String) → List String
  | [] => []
  | (name, owner) :: rest =>
    (known name).toList
      ++ reclaimed (fun other => (known other).or (if other = name then some owner else none)) rest

/-- The findings about names that are taken tell the owners, in the order of the walk. -/
theorem related_inTurn (walk : List Visit) :
    (kind.among (inTurn (visit options graph) registry walk).1).map (·.related) =
      (reclaimed (registry.names kind).get? (claims options graph kind walk)).map ([·]) := by
  induction walk generalizing registry with
  | nil => rfl
  | cons v rest ih =>
      rw [inTurn_cons, among_append, List.map_append, related_visit, ih, names_visit, claims_cons]
      cases claim? options graph kind v with
      | none => rfl
      | some claim =>
          obtain ⟨name, owner⟩ := claim
          rw [Option.elim_some, funext (get?_claim (registry.names kind) name owner)]
          simp [reclaimed]

/-- A walk finds nothing exactly if every visit on its own finds nothing and, for each kind, the
names claimed are different and were free. So cleanliness of a walk is a property of the elements
and of three lists of names. -/
theorem inTurn_eq_nil_iff (walk : List Visit) :
    (inTurn (visit options graph) registry walk).1 = [] ↔
      (∀ v ∈ walk, (visit options graph .empty v).1 = []) ∧
        ∀ kind, ((claims options graph kind walk).map (·.1)).Nodup ∧
          ∀ claim ∈ claims options graph kind walk,
            (registry.names kind).contains claim.1 = false := by
  induction walk generalizing registry with
  | nil => simp [inTurn, claims]
  | cons v rest ih =>
      -- For each kind: the name claimed here is free, and not claimed again later.
      have hkind (kind : NameKind) :
          ((∀ claim, claim? options graph kind v = some claim →
              (registry.names kind).contains claim.1 = false) ∧
            ((claims options graph kind rest).map (·.1)).Nodup ∧
              ∀ claim ∈ claims options graph kind rest,
                ((visit options graph registry v).2.names kind).contains claim.1 = false) ↔
          ((claims options graph kind (v :: rest)).map (·.1)).Nodup ∧
            ∀ claim ∈ claims options graph kind (v :: rest),
              (registry.names kind).contains claim.1 = false := by
        rw [names_visit, claims_cons]
        cases claim? options graph kind v with
        | none => simp
        | some claim =>
            have hcontains (name : String) :
                (Registry.claim (registry.names kind) claim.1 claim.2).contains name = false ↔
                  (registry.names kind).contains name = false ∧ name ≠ claim.1 := by
              rw [Catalog.contains, get?_claim, Option.isSome_or, Catalog.contains]
              by_cases h : name = claim.1 <;> simp [h]
            have hlater : claim.1 ∉ (claims options graph kind rest).map (·.1) ↔
                ∀ later ∈ claims options graph kind rest, later.1 ≠ claim.1 := by
              simp only [List.mem_map, not_exists, not_and]
            simp only [Option.elim_some, hcontains, Option.toList_some, List.cons_append,
              List.nil_append, List.map_cons, List.nodup_cons, hlater, List.forall_mem_cons,
              Option.some.injEq, forall_eq', forall_and]
            tauto
      rw [inTurn_cons, List.append_eq_nil_iff, visit_eq_nil_iff, ih, List.forall_mem_cons]
      simp only [← hkind, forall_and]
      tauto

end Walk

/-! ## Well-formed graphs -/

def checkedIds (options : Options) (graph : Graph) : List ClassId :=
  graph.classIds.filter fun id => !options.allowlist.skips (graph.classAt id).name

namespace Visit

def root? : Visit → Option Graph.Model
  | .model root => some root
  | _ => none

def space? : Visit → Option NamespaceId
  | .space n => some n
  | _ => none

def member? : Visit → Option ClassId
  | .member id => some id
  | _ => none

end Visit

theorem model_mem_visits {graph : Graph} {root : Graph.Model} :
    .model root ∈ visits graph ↔ root ∈ graph.models := by
  simp [visits, visitsIn]

/-- Every model is visited once, in the order of the graph. -/
theorem roots_visits (graph : Graph) : (visits graph).filterMap Visit.root? = graph.models := by
  have hroot (root : Graph.Model) : (visitsIn graph root).filterMap Visit.root? = [root] := by
    simp [visitsIn, Visit.root?, List.filterMap_cons, List.filterMap_flatMap, List.filterMap_map,
      Function.comp_def]
  rw [visits, List.filterMap_flatMap]
  simp only [hroot, List.flatMap_singleton']

theorem flatMap_ownDomains (graph : Graph) :
    graph.models.flatMap (ownDomains graph) =
      (graph.models.flatMap (·.domains)).filterMap graph.domains.get? := by
  rw [List.filterMap_flatMap]
  rfl

section WellFormed

variable (options : Options) {graph : Graph} (hgraph : graph.WellFormed)

include hgraph

/-- Every namespace is visited once, in the order of the graph. -/
theorem spaces_visits :
    (visits graph).filterMap Visit.space? = List.range graph.namespaces.length := by
  have hspace (n : NamespaceId) :
      (Visit.space n :: (graph.namespaceAt n).classes.map .member).filterMap Visit.space? =
        [n] := by
    simp [Visit.space?, List.filterMap_map, Function.comp_def]
  have hroot (root : Graph.Model) :
      (visitsIn graph root).filterMap Visit.space? = root.namespaces := by
    rw [visitsIn, List.filterMap_cons_none rfl, List.filterMap_flatMap]
    simp only [hspace, List.flatMap_singleton']
  rw [visits, List.filterMap_flatMap, ← hgraph.namespaces]
  simp only [hroot]

/-- Every class is visited once, in the order of the graph. -/
theorem members_visits : (visits graph).filterMap Visit.member? = graph.classIds := by
  have hspace (n : NamespaceId) :
      (Visit.space n :: (graph.namespaceAt n).classes.map .member).filterMap Visit.member? =
        (graph.namespaceAt n).classes := by
    simp [List.filterMap_cons, Visit.member?, List.filterMap_map, Function.comp_def]
  have hroot (root : Graph.Model) :
      (visitsIn graph root).filterMap Visit.member? =
        root.namespaces.flatMap fun n => (graph.namespaceAt n).classes := by
    rw [visitsIn, List.filterMap_cons_none rfl, List.filterMap_flatMap]
    simp only [hspace]
  rw [visits, List.filterMap_flatMap]
  simp only [hroot]
  exact hgraph.flatMap_classes

theorem space_mem_visits {n : NamespaceId} :
    .space n ∈ visits graph ↔ n ∈ List.range graph.namespaces.length := by
  rw [← spaces_visits hgraph, List.mem_filterMap]
  refine ⟨fun h => ⟨_, h, rfl⟩, ?_⟩
  rintro ⟨_ | _ | _, h, heq⟩ <;> cases heq
  exact h

theorem member_mem_visits {id : ClassId} : .member id ∈ visits graph ↔ id ∈ graph.classIds := by
  rw [← members_visits hgraph, List.mem_filterMap]
  refine ⟨fun h => ⟨_, h, rfl⟩, ?_⟩
  rintro ⟨_ | _ | _, h, heq⟩ <;> cases heq
  exact h

/-- What holds of all visits holds of all models, namespaces and classes. -/
theorem forall_visits {P : Visit → Prop} :
    (∀ v ∈ visits graph, P v) ↔
      (∀ root ∈ graph.models, P (.model root)) ∧
        (∀ n ∈ List.range graph.namespaces.length, P (.space n)) ∧
        ∀ id ∈ graph.classIds, P (.member id) := by
  constructor
  · intro h
    exact ⟨fun root hroot => h _ (model_mem_visits.mpr hroot),
      fun n hn => h _ ((space_mem_visits hgraph).mpr hn),
      fun id hid => h _ ((member_mem_visits hgraph).mpr hid)⟩
  · rintro ⟨hmodels, hspaces, hmembers⟩ (root | n | id) hv
    · exact hmodels root (model_mem_visits.mp hv)
    · exact hspaces n ((space_mem_visits hgraph).mp hv)
    · exact hmembers id ((member_mem_visits hgraph).mp hv)

/-- Every domain is visited, with a model that declares it or before all models. -/
theorem mem_domains_iff {found : Graph.Domain} :
    found ∈ graph.domains.values ↔
      found ∈ sharedDomains graph ∨ found ∈ graph.models.flatMap (ownDomains graph) := by
  have hget : found ∈ graph.domains.values ↔ graph.domains.get? found.code = some found := by
    refine ⟨fun h => ?_, Catalog.mem_values_of_get?⟩
    obtain ⟨entry, hentry, rfl⟩ := List.mem_map.mp h
    rw [← hgraph.code entry hentry]
    exact Catalog.get?_of_mem_entries hentry
  have hown : found ∈ graph.models.flatMap (ownDomains graph) ↔
      found.code ∈ graph.models.flatMap (·.domains) ∧
        graph.domains.get? found.code = some found := by
    rw [flatMap_ownDomains, List.mem_filterMap]
    constructor
    · rintro ⟨code, hcode, hfound⟩
      rw [hgraph.code_of_get? hfound]
      exact ⟨hcode, hfound⟩
    · rintro ⟨hcode, hfound⟩
      exact ⟨found.code, hcode, hfound⟩
  simp only [sharedDomains, List.mem_filter, hown, hget, Bool.not_eq_true', List.contains_eq_mem,
    decide_eq_false_iff_not]
  tauto

theorem claims_namespaces :
    claims options graph .namespaces (visits graph) =
      graph.namespaces.map fun space => (space.name, space.file) := by
  have hclaim : claim? options graph .namespaces = fun v => v.space?.map fun n =>
      ((graph.namespaceAt n).name, (graph.namespaceAt n).file) := by
    funext v
    cases v <;> rfl
  rw [claims, hclaim, ← List.map_filterMap, spaces_visits hgraph, ← Graph.map_namespaceAt graph,
    List.map_map, Graph.map_namespaceAt]
  rfl

/-- A kind of names that only classes claim is claimed in the order of the classes. -/
theorem claims_members {kind : NameKind} (f : ClassId → Option (String × String))
    (hf : ∀ id, claim? options graph kind (.member id) =
      if options.allowlist.skips (graph.classAt id).name then none else f id)
    (hother : ∀ v, v.member? = none → claim? options graph kind v = none) :
    claims options graph kind (visits graph) = (checkedIds options graph).filterMap f := by
  have hclaim : claim? options graph kind = fun v => v.member?.bind fun id =>
      if options.allowlist.skips (graph.classAt id).name then none else f id := by
    funext v
    cases v with
    | member id => exact hf id
    | model root => exact hother _ rfl
    | space n => exact hother _ rfl
  rw [claims, hclaim, ← List.filterMap_filterMap, members_visits hgraph, checkedIds,
    List.filterMap_filter]
  congr 1
  funext id
  cases options.allowlist.skips (graph.classAt id).name <;> rfl

theorem claims_classes :
    claims options graph .classes (visits graph) =
      (checkedIds options graph).map fun id =>
        ((graph.classAt id).name, (graph.classAt id).file) := by
  rw [claims_members options hgraph (fun id => some _) (fun _ => rfl) ?_,
    ← List.filterMap_eq_map]
  · rfl
  · rintro (_ | _ | _) h
    · rfl
    · rfl
    · cases h

/-- Transient classes and classes without trigram claim none. -/
theorem claims_trigrams :
    claims options graph .trigrams (visits graph) =
      (checkedIds options graph).filterMap fun id =>
        (claimed? graph id).map (·, (graph.classAt id).name) := by
  refine claims_members options hgraph _ (fun _ => rfl) ?_
  rintro (_ | _ | _) h
  · rfl
  · rfl
  · cases h

theorem map_fst_claims_namespaces :
    (claims options graph .namespaces (visits graph)).map (·.1) =
      graph.namespaces.map (·.name) := by
  rw [claims_namespaces options hgraph, List.map_map]
  rfl

/-- The names claimed are those of the classes that are checked. -/
theorem map_fst_claims_classes :
    (claims options graph .classes (visits graph)).map (·.1) =
      (checkedIds options graph).map fun id => (graph.classAt id).name := by
  rw [claims_classes options hgraph, List.map_map]
  rfl

theorem map_fst_claims_trigrams :
    (claims options graph .trigrams (visits graph)).map (·.1) =
      (checkedIds options graph).filterMap (claimed? graph) := by
  rw [claims_trigrams options hgraph, List.map_filterMap]
  simp [Function.comp_def]

end WellFormed

end ModelSchema.Check
