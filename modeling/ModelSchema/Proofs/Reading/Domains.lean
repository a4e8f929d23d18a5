import ModelSchema.Proofs.Reading.Layout

/-!
# The first declaration of a domain

Domains are declared one after the other: those that all documents share, then those of each
document. The first declaration of a code is in effect (`firstOf`), and every later one is a mistake
(`repetitions`). A document lists the codes that it is the first to declare (`newCodes`).

`Assembly.Declares` says this of an assembly and the declarations so far. One more declaration keeps
it (`Declares.addDomain`), so the first pass can be read off the list of all declarations
(`declares_withModels`, `domains_withModels`). No code is listed twice, neither by one document nor
by two (`nodup_declared_of_read`).
-/

namespace ModelSchema.Reading

open ModelSchema.Graph (Domain)

/-! ## Declarations in order

Lists of declarations, without assemblies. Each definition comes with its equation for one more
declaration at the end, since this is how the first pass goes. -/

def Document.domains (document : Document) : List Domain :=
  document.outline.domains.map (domainOf document.path)

/-- All domains that are declared, the shared ones first. Everything about domains in an assembly is
a function of this list. -/
def declaredDomains (shared : List Domain) (documents : List Document) : List Domain :=
  shared ++ documents.flatMap fun document => document.outline.domains.map (domainOf document.path)

theorem declaredDomains_concat (shared : List Domain) (documents : List Document)
    (document : Document) :
    declaredDomains shared (documents ++ [document]) =
      declaredDomains shared documents ++ document.domains := by
  simp [declaredDomains, Document.domains]

def firstOf (domains : List Domain) (code : String) : Option Domain :=
  domains.find? (·.code == code)

theorem isSome_firstOf_iff {domains : List Domain} {code : String} :
    (firstOf domains code).isSome = true ↔ code ∈ domains.map (·.code) := by
  simp [firstOf]

theorem firstOf_eq_none_iff {domains : List Domain} {code : String} :
    firstOf domains code = none ↔ code ∉ domains.map (·.code) := by
  rw [← isSome_firstOf_iff, Bool.not_eq_true, Option.isSome_eq_false_iff, Option.isNone_iff_eq_none]

/-- A later domain matters only if there was none before. -/
theorem firstOf_concat (domains : List Domain) (domain : Domain) (code : String) :
    firstOf (domains ++ [domain]) code =
      (firstOf domains code).or (if code = domain.code then some domain else none) := by
  rw [firstOf, List.find?_append, List.find?_singleton, firstOf]
  by_cases hcode : code = domain.code
  · rw [if_pos hcode, if_pos (beq_iff_eq.mpr hcode.symm)]
  · rw [if_neg hcode, if_neg fun htest => hcode (beq_iff_eq.mp htest).symm]

/-- If no code is declared twice, every domain is the first of its code. -/
theorem firstOf_eq_some_iff {domains : List Domain} (hcodes : (domains.map (·.code)).Nodup)
    {code : String} {domain : Domain} :
    firstOf domains code = some domain ↔ domain ∈ domains ∧ domain.code = code := by
  constructor
  · intro hfirst
    exact ⟨List.mem_of_find?_eq_some hfirst, by simpa using List.find?_some hfirst⟩
  · rintro ⟨hmem, rfl⟩
    obtain ⟨first, hfirst⟩ := Option.isSome_iff_exists.mp
      (isSome_firstOf_iff.mpr (List.mem_map.mpr ⟨domain, hmem, rfl⟩))
    have hcode : first.code = domain.code := by simpa using List.find?_some hfirst
    rw [hfirst, List.inj_on_of_nodup_map hcodes (List.mem_of_find?_eq_some hfirst) hmem hcode]

def withEarlier {α : Type} (as : List α) : List (α × List α) :=
  as.zipIdx.map fun entry => (entry.1, as.take entry.2)

theorem withEarlier_concat {α : Type} (as : List α) (a : α) :
    withEarlier (as ++ [a]) = withEarlier as ++ [(a, as)] := by
  rw [withEarlier, List.zipIdx_append, List.map_append, withEarlier]
  refine congrArg₂ _ (List.map_congr_left fun entry hentry => ?_) (by simp)
  rw [List.take_append_of_le_length (Nat.le_of_lt (List.snd_lt_of_mem_zipIdx hentry))]

/-- The declarations of codes that are known already, each with the first one of its code. -/
def repetitions (domains : List Domain) : List (Domain × Domain) :=
  (withEarlier domains).filterMap fun entry =>
    (firstOf entry.2 entry.1.code).map (entry.1, ·)

/-- One more declaration repeats the first one of its code, if there is one. This and
`firstOf_concat` are the equations that `Declares.addDomain` needs. -/
theorem repetitions_concat (domains : List Domain) (domain : Domain) :
    repetitions (domains ++ [domain]) =
      repetitions domains ++ ((firstOf domains domain.code).map (domain, ·)).toList := by
  rw [repetitions, withEarlier_concat, List.filterMap_append, repetitions]
  cases hfirst : firstOf domains domain.code <;> simp [hfirst]

/-- The codes that are declared once give no mistakes. -/
theorem repetitions_eq_nil {domains : List Domain} (hcodes : (domains.map (·.code)).Nodup) :
    repetitions domains = [] := by
  induction domains using List.reverseRecOn with
  | nil => rfl
  | append_singleton domains domain ih =>
      rw [List.map_append, List.nodup_append] at hcodes
      have hnew : domain.code ∉ domains.map (·.code) := fun hmem =>
        hcodes.2.2 _ hmem _ (List.mem_singleton_self _) rfl
      rw [repetitions_concat, ih hcodes.1, firstOf_eq_none_iff.mpr hnew]
      rfl

/-- The codes of some domains that no earlier one has, each once. In closed form, without going
through the domains with a growing list of codes. -/
def newCodes (earlier domains : List Domain) : List String :=
  ((domains.map (·.code)).removeAll (earlier.map (·.code))).eraseDups

theorem removeAll_concat (codes known : List String) (code : String) :
    codes.removeAll (known ++ [code]) = (codes.removeAll known).filter fun other =>
      !other == code := by
  rw [List.removeAll, List.removeAll, List.filter_filter]
  refine List.filter_congr fun other _ => Bool.eq_iff_iff.mpr ?_
  simp [and_comm]

/-- The recursion that `addDomains` follows: a code is known from here on, be it new or not. -/
theorem newCodes_cons (earlier : List Domain) (domain : Domain) (rest : List Domain) :
    newCodes earlier (domain :: rest) =
      if domain.code ∈ earlier.map (·.code) then newCodes (earlier ++ [domain]) rest
      else domain.code :: newCodes (earlier ++ [domain]) rest := by
  simp only [newCodes, List.map_cons, List.map_append, List.map_nil, List.cons_removeAll,
    removeAll_concat]
  generalize rest.map (·.code) = later
  generalize earlier.map (·.code) = known
  by_cases hknown : domain.code ∈ known
  · -- Codes that are not known are different from it already.
    have hsame : (later.removeAll known).filter (fun other => !other == domain.code) =
        later.removeAll known := by
      refine List.filter_eq_self.mpr fun other hother => ?_
      have hunknown : other ∉ known := by simpa using (List.mem_filter.mp hother).2
      have hne : other ≠ domain.code := fun heq => hunknown (heq ▸ hknown)
      simpa using hne
    rw [if_pos hknown, if_neg (by simpa using hknown), hsame]
  · rw [if_neg hknown, if_pos (by simpa using hknown), List.eraseDups_cons]

/-- The codes that each document is the first to declare. -/
def ownCodes (shared : List Domain) (documents : List Document) : List (List String) :=
  (withEarlier documents).map fun entry =>
    newCodes (declaredDomains shared entry.2) entry.1.domains

theorem ownCodes_concat (shared : List Domain) (documents : List Document) (document : Document) :
    ownCodes shared (documents ++ [document]) =
      ownCodes shared documents ++
        [newCodes (declaredDomains shared documents) document.domains] := by
  rw [ownCodes, withEarlier_concat, List.map_append]
  rfl

/-- Every code is one of the shared ones, or a document is the first to declare it. So the codes
that models list are different (`nodup_declared_of_read`). -/
theorem eraseDups_declaredDomains (shared : List Domain) (documents : List Document) :
    ((declaredDomains shared documents).map (·.code)).eraseDups =
      (shared.map (·.code)).eraseDups ++ (ownCodes shared documents).flatten := by
  induction documents using List.reverseRecOn with
  | nil => simp [declaredDomains, ownCodes, withEarlier]
  | append_singleton documents document ih =>
      rw [declaredDomains_concat, List.map_append, List.eraseDups_append, ih, ownCodes_concat,
        List.flatten_append, List.append_assoc, List.flatten_singleton]
      rfl

theorem nodup_eraseDups (codes : List String) : codes.eraseDups.Nodup := by
  induction codes using List.reverseRecOn with
  | nil => exact List.nodup_nil
  | append_singleton codes code ih =>
      rw [List.eraseDups_append, List.cons_removeAll, List.nil_removeAll]
      split
      · next hnew =>
        have hother : code ∉ codes := by simpa using hnew
        rw [List.nodup_append]
        refine ⟨ih, List.nodup_singleton code, ?_⟩
        rintro other hmem _ hcode rfl
        rw [List.mem_eraseDups] at hmem
        exact hother (List.mem_singleton.mp hcode ▸ hmem)
      · rw [List.eraseDups_nil, List.append_nil]
        exact ih

/-! ## The first pass -/

namespace Assembly

/-- An assembly has the first domain of each code, and a mistake for every other one. This is all
that the first pass does with domains. -/
structure Declares (assembly : Assembly) (domains : List Domain) : Prop where
  get : ∀ code, assembly.graph.domains.get? code = firstOf domains code
  diagnostics : assembly.diagnostics =
    (repetitions domains).map fun repetition => duplicateDomain repetition.1 repetition.2

namespace Declares

variable {assembly : Assembly} {domains : List Domain}

theorem contains_iff (h : assembly.Declares domains) {code : String} :
    assembly.graph.domains.contains code = true ↔ code ∈ domains.map (·.code) := by
  rw [Catalog.contains, h.get, isSome_firstOf_iff]

/-- One step of the first pass. If the code is known, the domain in effect stays, and the mistake
names both. -/
theorem addDomain (h : assembly.Declares domains) (domain : Domain) :
    (assembly.addDomain domain).Declares (domains ++ [domain]) := by
  have hget := h.get domain.code
  cases hfirst : firstOf domains domain.code with
  | some first =>
      rw [Assembly.addDomain, hget, hfirst]
      refine ⟨fun code => (h.get code).trans ?_, ?_⟩
      · -- The code is known, so the new domain is not the first of any.
        rw [firstOf_concat]
        by_cases hcode : code = domain.code
        · rw [hcode, hfirst, Option.some_or]
        · rw [if_neg hcode, Option.or_none]
      · rw [repetitions_concat, hfirst, List.map_append, ← h.diagnostics]
        rfl
  | none =>
      rw [Assembly.addDomain, hget, hfirst]
      refine ⟨fun code => ?_, ?_⟩
      · rw [Catalog.get?_insert, firstOf_concat, h.get]
        by_cases hcode : code = domain.code
        · rw [if_pos hcode, if_pos hcode, hcode, hfirst, Option.none_or]
        · rw [if_neg hcode, if_neg hcode, Option.or_none]
      · rw [repetitions_concat, hfirst, List.map_append, ← h.diagnostics]
        exact (List.append_nil _).symm

theorem addDomains (h : assembly.Declares domains) (added : List Domain) :
    (assembly.addDomains added).1.Declares (domains ++ added) := by
  induction added generalizing assembly domains with
  | nil =>
      rw [List.append_nil]
      exact h
  | cons domain rest ih =>
      rw [List.append_cons]
      exact ih (h.addDomain domain)

/-- The codes that were unknown are given, each once. -/
theorem codes_addDomains (h : assembly.Declares domains) (added : List Domain) :
    (assembly.addDomains added).2 = newCodes domains added := by
  induction added generalizing assembly domains with
  | nil => rfl
  | cons domain rest ih =>
      simp only [Assembly.addDomains, ih (h.addDomain domain), h.contains_iff, newCodes_cons]

theorem addModel (h : assembly.Declares domains) (document : Document) :
    (assembly.addModel document).Declares (domains ++ document.domains) := by
  obtain ⟨hget, hdiagnostics⟩ := h.addDomains document.domains
  exact ⟨hget, hdiagnostics⟩

/-- The new model lists the codes that were unknown. -/
theorem domains_addModel (h : assembly.Declares domains) (document : Document) :
    (assembly.addModel document).graph.models.map (·.domains) =
      assembly.graph.models.map (·.domains) ++ [newCodes domains document.domains] := by
  have hmodels : (assembly.addDomains document.domains).1.graph.models = assembly.graph.models := by
    rw [(addsDomains_addDomains document.domains assembly).rest]
  rw [← h.codes_addDomains, ← hmodels]
  exact List.map_append

end Declares

/-- The first pass takes documents in order, so inductions add a document at the end. -/
theorem withModels_concat (shared : List Domain) (documents : List Document) (document : Document) :
    withModels shared (documents ++ [document]) = (withModels shared documents).addModel document :=
  List.foldl_concat ..

theorem declares_withModels (shared : List Domain) (documents : List Document) :
    (withModels shared documents).Declares (declaredDomains shared documents) := by
  induction documents using List.reverseRecOn with
  | nil =>
      have hempty : empty.Declares [] := ⟨fun _ => rfl, rfl⟩
      rw [declaredDomains, List.flatMap_nil, List.append_nil]
      exact hempty.addDomains shared
  | append_singleton documents document ih =>
      rw [withModels_concat, declaredDomains_concat]
      exact ih.addModel document

/-- A model lists the codes that its document is the first to declare. -/
theorem domains_withModels (shared : List Domain) (documents : List Document) :
    (withModels shared documents).graph.models.map (·.domains) = ownCodes shared documents := by
  induction documents using List.reverseRecOn with
  | nil =>
      have hmodels := (listed_withModels shared []).models
      rw [List.forall₂_nil_left_iff.mp hmodels]
      rfl
  | append_singleton documents document ih =>
      rw [withModels_concat, (declares_withModels shared documents).domains_addModel, ih,
        ownCodes_concat]

/-! ## The passes after it

Namespaces and links leave alone which domains a model lists. -/

theorem domains_addNamespace (suffixes : Naming.Suffixes) (position : Nat) (document : Document)
    (assembly : Assembly) (declared : Outline.Namespace) :
    (addNamespace suffixes position document assembly declared).graph.models.map (·.domains) =
      assembly.graph.models.map (·.domains) := by
  refine List.ext_getElem? fun i => ?_
  simp only [addNamespace, List.getElem?_map, List.getElem?_modify]
  cases assembly.graph.models[i]? with
  | none => rfl
  | some model => by_cases hi : position = i <;> simp [hi]

theorem domains_addDocuments (suffixes : Naming.Suffixes) (documents : List Document)
    (assembly : Assembly) (position : Nat) :
    (addDocuments suffixes assembly position documents).1.graph.models.map (·.domains) =
      assembly.graph.models.map (·.domains) := by
  induction documents generalizing assembly position with
  | nil => rfl
  | cons document rest ih =>
      have hfold (spaces : List Outline.Namespace) (current : Assembly) :
          (spaces.foldl (addNamespace suffixes position document) current).graph.models.map
            (·.domains) = current.graph.models.map (·.domains) := by
        induction spaces generalizing current with
        | nil => rfl
        | cons space rest ih => rw [List.foldl_cons, ih, domains_addNamespace]
      rw [addDocuments_cons]
      exact (ih _ _).trans (hfold document.outline.namespaces assembly)

/-- The links add no domains, and no namespaces to models. -/
theorem domains_of_run {suffixes : Naming.Suffixes} {shared : List Domain}
    {documents : List Document} {final : Assembly}
    (hrun : run suffixes shared documents = .ok final) :
    final.graph.models.map (·.domains) = ownCodes shared documents := by
  rw [(grows_of_run hrun).models, withClasses, domains_addDocuments, domains_withModels]

end Assembly

/-- No domain is declared by two models, and none twice by one. -/
theorem nodup_declared_of_read {suffixes : Naming.Suffixes} {shared : List Domain}
    {sources : List Source} {graph : Graph} {found : List Diagnostic}
    (h : read suffixes shared sources = .ok (graph, found)) :
    (graph.models.flatMap (·.domains)).Nodup := by
  obtain ⟨documents, -, hrun⟩ := read_eq_ok h
  have hcodes := nodup_eraseDups ((declaredDomains shared documents).map (·.code))
  rw [eraseDups_declaredDomains, List.nodup_append] at hcodes
  rw [List.flatMap_def, Assembly.domains_of_run hrun]
  exact hcodes.2.1

end ModelSchema.Reading
