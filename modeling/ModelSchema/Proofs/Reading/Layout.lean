import ModelSchema.Proofs.Reading.Effect

/-!
# The layout of graphs that are read

A graph that is read is well-formed, and shows its documents in order: one model for each document,
the namespaces of all documents, and their classes. The first two passes lay the graph out
(`laid_withClasses`). The links that follow change parents, properties and dependencies only, so
whatever holds of the layout and is kept by a single link holds of the result (`run_keeps`).
-/

namespace ModelSchema.Reading

open ModelSchema.Graph (Domain Property)

/-! ## Showing declarations

What a graph keeps of a declaration. The structures list every field, so that a field which reading
leaves out or mixes up shows. -/

structure ShowsDocument (document : Document) (model : Graph.Model) : Prop where
  file : model.file = document.path
  name : model.name = document.outline.name
  label : model.label = document.outline.label

structure ShowsNamespace (declared : Document × Outline.Namespace) (space : Graph.Namespace) :
    Prop where
  file : space.file = declared.1.path
  name : space.name = declared.2.code
  size : space.classes.length = declared.2.classes.length

/-- The code that an identifier stands for in a document: shortcuts are added after domains, and the
last one counts. -/
def standsFor? (outline : Outline) (id : String) : Option String :=
  ((outline.domainShortcuts.reverse.find? (·.id == id)).map (·.code)).or
    ((outline.domains.reverse.find? (·.id == id)).map (·.code))

def referredDomain? (outline : Outline) : Outline.DomainRef → Option String
  | .id id => standsFor? outline id
  | .code code => some code

/-- A property shows a declared one of a class with the trigram `trigram`. Every field of
`Graph.Property` is here, as the documents or the rules for derived values have it. -/
structure ShowsProperty (domains : Catalog Domain) (outline : Outline) (trigram : Option String)
    (declared : Outline.Property) (property : Property) : Prop where
  name : property.name = declared.code
  comment : property.comment = declared.comment
  domain : property.domain = declared.domain.bind (referredDomain? outline)
  /-- A property without data type has that of its domain. -/
  dataType : property.dataType =
    declared.dataType.or ((property.domain.bind domains.get?).bind (·.dataType))
  column : property.column = if declared.isPersistent then
    some (declared.persistentCode.getD (Naming.columnName trigram declared.code)) else none
  isRequired : property.isRequired = true ↔ declared.multiplicity = some "1..1"
  isPrimaryKey : property.isPrimaryKey = declared.isPrimaryKey
  isUnique : property.isUnique = declared.isUnique
  isUniqueMany : property.isUniqueMany = declared.isUniqueMany
  isPersistent : property.isPersistent = declared.isPersistent
  isOrdered : property.isOrdered = declared.isOrdered
  persistentType : property.persistentType = declared.persistentType
  role : property.role = none
  kind : property.kind = .primitive

/-- A class shows a declared one. Its parent is not part of the declaration, nor are the properties
that associations have added since. -/
structure ShowsClass (domains : Catalog Domain) (declared : Document × Outline.Class)
    (c : Graph.Class) : Prop where
  file : c.file = declared.1.path
  name : c.name = declared.2.code
  label : c.label = declared.2.label
  comment : c.comment = declared.2.comment
  /-- A stereotype that cannot be read counts as plain. -/
  stereotype : c.stereotype = (Stereotype.parse declared.2.stereotype).toOption.getD .plain
  table : c.table = declared.2.persistentCode.getD (Naming.upperSnake declared.2.code)
  isPersistent : c.isPersistent = declared.2.isPersistent
  trigram : c.trigram = declared.2.trigram
  storage : c.storage = declared.2.storage
  isHistorized : c.isHistorized = declared.2.isHistorized
  isAudited : c.isAudited = declared.2.isAudited
  isExportDelta : c.isExportDelta = declared.2.isExportDelta
  items : c.items = []
  properties : ∃ own added, c.properties = own ++ added ∧
    List.Forall₂ (ShowsProperty domains declared.1.outline declared.2.trigram)
      declared.2.properties own

namespace Assembly

/-! ## Domains

The first pass: domains and models. `AddsDomains` says what adding domains does to a graph, and
`Listed` what holds between two documents. -/

/-- Domains have been added to a graph, those with new codes among them. -/
structure AddsDomains (before after : Graph) (codes : List String) : Prop where
  rest : after = { before with domains := after.domains }
  code : (∀ entry ∈ before.domains.entries, entry.1 = entry.2.code) →
    ∀ entry ∈ after.domains.entries, entry.1 = entry.2.code
  keeps : ∀ code, before.domains.contains code = true → after.domains.contains code = true
  new : ∀ code ∈ codes, after.domains.contains code = true

/-- A domain whose code is taken changes nothing but the mistakes, and its code is known then as
well. -/
theorem addsDomains_addDomain (assembly : Assembly) (domain : Domain) :
    AddsDomains assembly.graph (assembly.addDomain domain).graph [domain.code] := by
  rw [addDomain]
  split
  · next first hfirst =>
    refine ⟨rfl, id, fun _ h => h, ?_⟩
    simp [note, Catalog.contains, hfirst]
  · refine ⟨rfl, ?_, ?_, ?_⟩
    · intro hcode entry hentry
      rcases Catalog.mem_insertEntry hentry with rfl | hold
      · rfl
      · exact hcode entry hold
    · intro code h
      exact (Catalog.contains_insert ..).mpr (.inr h)
    · intro code h
      exact (Catalog.contains_insert ..).mpr (.inl (List.mem_singleton.mp h))

/-- The codes that `addDomains` gives back are known after it. Models list these codes, and so they
list no unknown ones. -/
theorem addsDomains_addDomains (domains : List Domain) (assembly : Assembly) :
    AddsDomains assembly.graph (assembly.addDomains domains).1.graph
      (assembly.addDomains domains).2 := by
  -- On the domains, for every assembly: a code may be taken by an earlier one.
  induction domains generalizing assembly with
  | nil => exact ⟨rfl, id, fun _ h => h, fun _ h => absurd h List.not_mem_nil⟩
  | cons domain rest ih =>
      have hfirst := addsDomains_addDomain assembly domain
      have hrest := ih (assembly.addDomain domain)
      refine ⟨?_, fun h => hrest.code (hfirst.code h),
        fun code h => hrest.keeps code (hfirst.keeps code h), ?_⟩
      · have hsame := hrest.rest
        rw [hfirst.rest] at hsame
        exact hsame
      · -- A code is new with this domain or with a later one.
        intro code h
        have hcase : code = domain.code ∨
            code ∈ ((assembly.addDomain domain).addDomains rest).2 := by
          simp only [addDomains] at h
          split at h
          · exact .inr h
          · exact List.mem_cons.mp h
        rcases hcase with rfl | hlater
        · exact hrest.keeps _ (hfirst.new _ List.mem_cons_self)
        · exact hrest.new code hlater

/-- The graph after the first pass: models that show documents, without namespaces yet. -/
structure Listed (documents : List Document) (graph : Graph) : Prop where
  models : List.Forall₂ ShowsDocument documents graph.models
  bare : ∀ model ∈ graph.models, model.namespaces = []
  namespaces : graph.namespaces = []
  classes : graph.classes = []
  code : ∀ entry ∈ graph.domains.entries, entry.1 = entry.2.code
  declared : ∀ model ∈ graph.models, ∀ code ∈ model.domains, graph.domains.contains code = true

theorem Listed.addDomains {documents : List Document} {assembly : Assembly}
    (h : Listed documents assembly.graph) (domains : List Domain) :
    Listed documents (assembly.addDomains domains).1.graph := by
  have hadds := addsDomains_addDomains domains assembly
  rw [hadds.rest]
  exact ⟨h.models, h.bare, h.namespaces, h.classes, hadds.code h.code,
    fun model hmodel code hcode => hadds.keeps code (h.declared model hmodel code hcode)⟩

/-- One round of the first pass. The new model has no namespaces; its domains have just been added.
-/
theorem Listed.addModel {documents : List Document} {assembly : Assembly}
    (h : Listed documents assembly.graph) (document : Document) :
    Listed (documents ++ [document]) (assembly.addModel document).graph := by
  have hadds := addsDomains_addDomains (document.outline.domains.map (domainOf document.path))
    assembly
  have hbefore := h.addDomains (document.outline.domains.map (domainOf document.path))
  refine ⟨?_, ?_, hbefore.namespaces, hbefore.classes, hbefore.code, ?_⟩
  · exact List.rel_append hbefore.models (.cons ⟨rfl, rfl, rfl⟩ .nil)
  · intro model hmodel
    rcases List.mem_append.mp hmodel with hold | hnew
    · exact hbefore.bare model hold
    · cases List.mem_singleton.mp hnew
      rfl
  · intro model hmodel
    rcases List.mem_append.mp hmodel with hold | hnew
    · exact hbefore.declared model hold
    · cases List.mem_singleton.mp hnew
      exact hadds.new

/-- The first pass lists every document. It starts from the shared domains, which belong to no
document. -/
theorem listed_withModels (shared : List Domain) (documents : List Document) :
    Listed documents (withModels shared documents).graph := by
  have hempty : Listed [] empty.graph :=
    ⟨.nil, by simp [empty, Graph.empty], rfl, rfl, by simp [empty, Graph.empty],
      by simp [empty, Graph.empty]⟩
  have hstart : Listed [] (empty.addDomains shared).1.graph :=
    hempty.addDomains shared
  have hfold (rest done : List Document) (assembly : Assembly) (h : Listed done assembly.graph) :
      Listed (done ++ rest) (rest.foldl Assembly.addModel assembly).graph := by
    induction rest generalizing done assembly with
    | nil => simpa using h
    | cons document rest ih => simpa using ih _ _ (h.addModel document)
  simpa [withModels] using hfold documents [] _ hstart

/-! ## Classes

The second pass: namespaces and classes. `Laid` is its invariant, `Laid.addNamespace` the step, and
`laid_withClasses` the whole pass. -/

/-- The only mistake that is noted about a class itself. -/
theorem code_of_stereotypeMistake? {path : String} {declared : Outline.Class}
    {diagnostic : Diagnostic} (h : stereotypeMistake? path declared = some diagnostic) :
    diagnostic.code = .readUnknownStereotype := by
  rw [stereotypeMistake?] at h
  split at h <;> cases h
  rfl

/-- Looking a text up in a list of pairs, where the pairs are made from records. -/
theorem lookup_map {α : Type} (key value : α → String) (entries : List α) (id : String) :
    (entries.map fun entry => (key entry, value entry)).lookup id =
      (entries.find? (key · == id)).map value := by
  induction entries with
  | nil => rfl
  | cons entry rest ih =>
      rw [List.map_cons, List.lookup_cons, List.find?_cons, ih, BEq.comm]
      split <;> simp_all

/-- `domainScope` lists domains and shortcuts with the last one first, so that `lookup` finds it. -/
theorem lookup_domainScope (outline : Outline) (id : String) :
    (domainScope outline).lookup id = standsFor? outline id := by
  rw [domainScope, standsFor?, List.reverse_append, ← List.map_reverse, ← List.map_reverse,
    List.lookup_append, lookup_map, lookup_map]

/-- `propertyOf` field by field. `ShowsProperty` is its specification, in terms of the document
instead of a scope. -/
theorem showsProperty_propertyOf (domains : Catalog Domain) (outline : Outline)
    (trigram : Option String) (declared : Outline.Property) :
    ShowsProperty domains outline trigram declared
      (propertyOf domains (domainScope outline) trigram declared) := by
  refine ⟨rfl, rfl, ?_, rfl, rfl, ?_, rfl, rfl, rfl, rfl, rfl, rfl, rfl, rfl⟩
  · rcases hdomain : declared.domain with _ | ⟨id⟩ | code
    · simp [propertyOf, hdomain, Property.plain]
    · simp [propertyOf, hdomain, Property.plain, referredDomain?, lookup_domainScope]
    · simp [propertyOf, hdomain, Property.plain, referredDomain?]
  · exact beq_iff_eq

/-- A class is as declared, without parent and without links. Only its home is left open, which
`Graph.WellFormed` ties to the namespaces. -/
def IsDeclared (domains : Catalog Domain) (declared : Document × Outline.Class)
    (c : Graph.Class) : Prop :=
  c = classOf domains declared.1 c.home declared.2

/-- A class that has grown since it was made of a declaration shows it still. -/
theorem showsClass_of_grows {domains : Catalog Domain} {declared : Document × Outline.Class}
    {home : NamespaceId} {c : Graph.Class}
    (h : (classOf domains declared.1 home declared.2).Grows c) : ShowsClass domains declared c := by
  obtain ⟨parent, added, rfl⟩ := h
  refine ⟨rfl, rfl, rfl, rfl, ?_, rfl, rfl, rfl, rfl, rfl, rfl, rfl, rfl, _, added, rfl, ?_⟩
  · show stereotypeOf declared.2 = _
    rw [stereotypeOf]
    cases Stereotype.parse declared.2.stereotype <;> rfl
  · exact List.forall₂_map_right_iff.mpr
      (List.forall₂_same.mpr fun property _ => showsProperty_propertyOf ..)

/-- The graph in the middle of the second pass: the namespaces in `done` have been added, and no
model after `position` has any. -/
structure Laid (documents : List Document) (position : Nat)
    (done : List (Document × Outline.Namespace)) (graph : Graph) : Prop where
  wellFormed : graph.WellFormed
  models : List.Forall₂ ShowsDocument documents graph.models
  later : ∀ i model, position < i → graph.models[i]? = some model → model.namespaces = []
  namespaces : List.Forall₂ ShowsNamespace done graph.namespaces
  classes : List.Forall₂ (IsDeclared graph.domains) (classesOf done) graph.classes

/-- Classes that are as declared have no links. -/
theorem no_links {graph : Graph} {declared : List (Document × Outline.Class)}
    (h : List.Forall₂ (IsDeclared graph.domains) declared graph.classes) (id : ClassId) :
    (graph.classAt id).parent = none ∧
      ∀ property ∈ (graph.classAt id).properties, property.kind = .primitive := by
  by_cases hid : id < graph.classes.length
  · obtain ⟨found, -, heq⟩ := exists_of_forall₂ h _ (Graph.classAt_mem hid)
    rw [heq]
    refine ⟨rfl, fun property hproperty => ?_⟩
    obtain ⟨_, _, rfl⟩ := List.mem_map.mp hproperty
    rfl
  · rw [Graph.classAt_eq_default (Nat.le_of_not_lt hid)]
    exact ⟨rfl, fun property hproperty => absurd hproperty List.not_mem_nil⟩

/-- Before there are links, all of them lead to classes of the graph. Together with `no_links` this
is why the layout is well-formed, whatever the documents declare. -/
theorem links_lt {graph : Graph} {declared : List (Document × Outline.Class)}
    (h : List.Forall₂ (IsDeclared graph.domains) declared graph.classes) :
    (∀ id parent, (graph.classAt id).parent = some parent → parent < graph.classes.length) ∧
      ∀ id, ∀ property ∈ (graph.classAt id).properties, ∀ target,
        property.kind.linked? = some target → target < graph.classes.length := by
  constructor
  · intro id parent hparent
    rw [(no_links h id).1] at hparent
    cases hparent
  · intro id property hproperty target htarget
    rw [(no_links h id).2 property hproperty] at htarget
    cases htarget

/-- The namespaces of all models in order, after one is added to the model at `position`. As no
later model has any, it is the last. -/
theorem flatMap_modify_namespaces (models : List Graph.Model) (position : Nat) (id : NamespaceId)
    (hposition : position < models.length)
    (later : ∀ i model, position < i → models[i]? = some model → model.namespaces = []) :
    (models.modify position fun model =>
        { model with namespaces := model.namespaces ++ [id] }).flatMap (·.namespaces) =
      models.flatMap (·.namespaces) ++ [id] := by
  -- On the models before `position`; the lists after it are empty.
  induction models generalizing position with
  | nil => exact absurd hposition (Nat.not_lt_zero _)
  | cons model rest ih =>
      cases position with
      | zero =>
          have hrest : rest.flatMap (·.namespaces) = [] := by
            apply List.flatMap_eq_nil_iff.mpr
            intro other hother
            obtain ⟨i, hi⟩ := List.mem_iff_getElem?.mp hother
            exact later (i + 1) other (Nat.succ_pos i) (by simpa using hi)
          simp [hrest]
      | succ position =>
          have hlater := ih position (Nat.lt_of_succ_lt_succ hposition) fun i other hi hother =>
            later (i + 1) other (Nat.succ_lt_succ hi) (by simpa using hother)
          simp [hlater]

theorem exists_of_mem_modify {α : Type} {f : α → α} {entries : List α} {i : Nat} {a : α}
    (h : a ∈ entries.modify i f) : ∃ b ∈ entries, a = b ∨ a = f b := by
  obtain ⟨j, hj⟩ := List.mem_iff_getElem?.mp h
  rw [List.getElem?_modify] at hj
  obtain ⟨b, hb, heq⟩ := Option.map_eq_some_iff.mp hj
  refine ⟨b, List.mem_of_getElem? hb, ?_⟩
  split at heq
  · exact .inr heq.symm
  · exact .inl heq.symm

/-- Changing an entry keeps what entries show, if the change keeps it for each. -/
theorem forall₂_modify {α β : Type} {R : α → β → Prop} {f : β → β} (hf : ∀ a b, R a b → R a (f b))
    {as : List α} {bs : List β} (h : List.Forall₂ R as bs) (i : Nat) :
    List.Forall₂ R as (bs.modify i f) := by
  induction h generalizing i with
  | nil => simp
  | cons hab hrest ih =>
      cases i with
      | zero => exact .cons (hf _ _ hab) hrest
      | succ i => exact .cons hab (ih i)

section AddNamespace

variable {documents : List Document} {position : Nat}
  {done : List (Document × Outline.Namespace)} {assembly : Assembly}

/-- The classes of a namespace come after all others, with the namespace as their home. -/
theorem classAt_addNamespace (suffixes : Naming.Suffixes) (document : Document)
    (declared : Outline.Namespace) (id : ClassId) :
    (addNamespace suffixes position document assembly declared).graph.classAt id =
      if id < assembly.graph.classes.length then assembly.graph.classAt id
      else
        ((declared.classes[id - assembly.graph.classes.length]?).map
          (classOf assembly.graph.domains document assembly.graph.namespaces.length)).getD
            default := by
  simp only [addNamespace, Graph.classAt, List.getD_eq_getElem?_getD, List.getElem?_append]
  split <;> simp

/-- A class is at home in the namespace that lists it, be it an old one or the new one. Namespaces
beyond the new one are empty by default. -/
theorem home_addNamespace (hgraph : assembly.graph.WellFormed) (suffixes : Naming.Suffixes)
    (document : Document) (declared : Outline.Namespace) {n : NamespaceId} {id : ClassId}
    (hid : id ∈ ((addNamespace suffixes position document assembly declared).graph.namespaceAt
      n).classes) :
    ((addNamespace suffixes position document assembly declared).graph.classAt id).home = n := by
  rw [classAt_addNamespace]
  simp only [Graph.namespaceAt, addNamespace, List.getD_eq_getElem?_getD,
    List.getElem?_append] at hid
  split at hid
  · next hn =>
    have hold : id ∈ (assembly.graph.namespaceAt n).classes := by
      simpa [Graph.namespaceAt] using hid
    rw [if_pos (hgraph.lt_of_listed hold)]
    exact hgraph.home n id hold
  · next hn =>
    -- Only the new namespace is left, and it lists the classes after all others.
    by_cases hnew : n = assembly.graph.namespaces.length
    · subst hnew
      simp only [Nat.sub_self, List.getElem?_cons_zero, Option.getD_some,
        List.mem_range'_1] at hid
      have hdeclared : id - assembly.graph.classes.length < declared.classes.length :=
        Nat.sub_lt_left_of_lt_add hid.1 hid.2
      rw [if_neg (Nat.not_lt_of_le hid.1), List.getElem?_eq_getElem hdeclared]
      rfl
    · have hbeyond : 0 < n - assembly.graph.namespaces.length :=
        Nat.sub_pos_of_lt (Nat.lt_of_le_of_ne (Nat.le_of_not_lt hn) (Ne.symm hnew))
      rw [List.getElem?_eq_none hbeyond] at hid
      exact absurd hid List.not_mem_nil

/-- One step of the second pass keeps `Laid`. Most of the work is `WellFormed`, whose fields are
about positions that shift. -/
theorem Laid.addNamespace (h : Laid documents position done assembly.graph)
    (hposition : position < documents.length) (suffixes : Naming.Suffixes) (document : Document)
    (declared : Outline.Namespace) :
    Laid documents position (done ++ [(document, declared)])
      (addNamespace suffixes position document assembly declared).graph := by
  have hmodels : position < assembly.graph.models.length := h.models.length_eq ▸ hposition
  have hclasses : List.Forall₂ (IsDeclared assembly.graph.domains)
      (classesOf (done ++ [(document, declared)]))
      (assembly.graph.classes ++ declared.classes.map
        (classOf assembly.graph.domains document assembly.graph.namespaces.length)) := by
    rw [classesOf_append, classesOf_singleton]
    refine List.rel_append h.classes ?_
    rw [List.forall₂_map_left_iff, List.forall₂_map_right_iff, List.forall₂_same]
    intro c _
    rfl
  refine ⟨⟨?_, ?_, ?_, (links_lt hclasses).1, (links_lt hclasses).2, h.wellFormed.code, ?_⟩,
    ?_, ?_, ?_, hclasses⟩
  · -- The models after this one have no namespaces yet, so the new one is the last of all.
    simp only [Assembly.addNamespace]
    rw [flatMap_modify_namespaces _ _ _ hmodels h.later, h.wellFormed.namespaces,
      List.length_append, List.length_singleton, List.range_succ]
  · simp only [Assembly.addNamespace]
    rw [List.flatMap_append, h.wellFormed.classes, List.flatMap_cons, List.flatMap_nil,
      List.append_nil, List.length_append, List.length_map, List.range_eq_range',
      List.range_eq_range', ← List.range'_append_1, Nat.zero_add]
  · intro n id hid
    exact home_addNamespace h.wellFormed suffixes document declared hid
  · intro model hmodel
    obtain ⟨other, hother, heq⟩ := exists_of_mem_modify hmodel
    rw [show model.domains = other.domains by rcases heq with rfl | rfl <;> rfl]
    exact h.wellFormed.declared other hother
  · exact forall₂_modify (fun _ _ hshows => ⟨hshows.file, hshows.name, hshows.label⟩) h.models
      position
  · intro i model hi hmodel
    simp only [Assembly.addNamespace, List.getElem?_modify_ne _ _ (Nat.ne_of_lt hi)] at hmodel
    exact h.later i model hi hmodel
  · refine List.rel_append h.namespaces (.cons ⟨rfl, rfl, ?_⟩ .nil)
    simp

end AddNamespace

/-- All namespaces of a document, by induction on them. -/
theorem Laid.addNamespaces {documents : List Document} {position : Nat}
    {done : List (Document × Outline.Namespace)} {assembly : Assembly}
    (h : Laid documents position done assembly.graph) (hposition : position < documents.length)
    (suffixes : Naming.Suffixes) (document : Document) (spaces : List Outline.Namespace) :
    Laid documents position (done ++ spaces.map (document, ·))
      (spaces.foldl (Assembly.addNamespace suffixes position document) assembly).graph := by
  induction spaces generalizing done assembly with
  | nil => simpa using h
  | cons space rest ih =>
      simpa using ih (h.addNamespace hposition suffixes document space)

/-- The graph lists as many classes as have been added. -/
theorem Laid.size {documents : List Document} {position : Nat}
    {done : List (Document × Outline.Namespace)} {graph : Graph}
    (h : Laid documents position done graph) : graph.classes.length = (classesOf done).length :=
  h.classes.length_eq.symm

/-- A class that has been added is as declared. -/
theorem Laid.classAt {documents : List Document} {position : Nat}
    {done : List (Document × Outline.Namespace)} {graph : Graph}
    (h : Laid documents position done graph) {id : ClassId} {declared : Document × Outline.Class}
    (hdeclared : (classesOf done)[id]? = some declared) :
    IsDeclared graph.domains declared (graph.classAt id) := by
  obtain ⟨hid, rfl⟩ := List.getElem?_eq_some_iff.mp hdeclared
  have hlt : id < graph.classes.length := h.size ▸ hid
  rw [Graph.classAt_eq_get hlt]
  exact (List.forall₂_iff_get.mp h.classes).2 id hid hlt

/-- Going on to the next document: fewer models have to be without namespaces. -/
theorem Laid.advance {documents : List Document} {position : Nat}
    {done : List (Document × Outline.Namespace)} {graph : Graph}
    (h : Laid documents position done graph) : Laid documents (position + 1) done graph :=
  { h with later := fun i model hi => h.later i model (Nat.lt_of_succ_lt hi) }

/-- The identifiers of a document stand for the classes that it has added. -/
theorem within_addDocument {documents : List Document} {position : Nat}
    {done : List (Document × Outline.Namespace)} {assembly : Assembly}
    (h : Laid documents position done assembly.graph) (hposition : position < documents.length)
    (suffixes : Naming.Suffixes) (document : Document) :
    (assembly.addDocument suffixes position document).2.Within
      (assembly.addDocument suffixes position document).1.graph.classes.length := by
  intro entry hentry
  have hsize := (h.addNamespaces hposition suffixes document document.outline.namespaces).size
  rw [classesOf_append, List.length_append, ← h.size] at hsize
  obtain ⟨name, id⟩ := entry
  simp only [addDocument, List.mem_reverse] at hentry ⊢
  have hid := List.mem_range'_1.mp (List.of_mem_zip hentry).2
  rw [hsize]
  simpa [classesOf, List.flatMap_map, List.length_flatMap] using hid.2

/-- One round of the second pass: the first document, then the others from where it ends. -/
theorem addDocuments_cons (suffixes : Naming.Suffixes) (assembly : Assembly) (position : Nat)
    (document : Document) (rest : List Document) :
    addDocuments suffixes assembly position (document :: rest) =
      let first := assembly.addDocument suffixes position document
      let later := addDocuments suffixes first.1 (position + 1) rest
      (later.1, (document, first.2) :: later.2) := rfl

/-- The second pass lays out all classes, and gives every document a scope. -/
theorem laid_addDocuments {documents : List Document} (suffixes : Naming.Suffixes)
    (rest : List Document) (position : Nat) (done : List (Document × Outline.Namespace))
    (assembly : Assembly) (h : Laid documents position done assembly.graph)
    (hrest : position + rest.length ≤ documents.length) :
    Laid documents (position + rest.length) (done ++ declaredNamespaces rest)
        (addDocuments suffixes assembly position rest).1.graph ∧
      ∀ entry ∈ (addDocuments suffixes assembly position rest).2,
        entry.2.Within (addDocuments suffixes assembly position rest).1.graph.classes.length := by
  -- On the documents left. `position` and `done` say how far the pass has come.
  induction rest generalizing position done assembly with
  | nil =>
      simp only [addDocuments, declaredNamespaces, List.flatMap_nil, List.append_nil]
      exact ⟨h, fun _ hentry => absurd hentry List.not_mem_nil⟩
  | cons document rest ih =>
      rw [List.length_cons] at hrest
      have hposition : position < documents.length := by omega
      have hlaid := h.addNamespaces hposition suffixes document document.outline.namespaces
      obtain ⟨hlater, hwithin⟩ := ih (position + 1) _
        (assembly.addDocument suffixes position document).1 hlaid.advance (by omega)
      rw [addDocuments_cons]
      constructor
      · rw [List.length_cons, Nat.add_comm rest.length, ← Nat.add_assoc]
        rw [List.append_assoc] at hlater
        exact hlater
      · intro entry hentry
        rcases List.mem_cons.mp hentry with rfl | hentry
        · -- Classes are only added, so the first scope stays within bounds.
          intro declared hdeclared
          have hfirst := within_addDocument h hposition suffixes document declared hdeclared
          refine Nat.lt_of_lt_of_le hfirst ?_
          calc (assembly.addDocument suffixes position document).1.graph.classes.length
              = (classesOf (done ++ document.outline.namespaces.map (document, ·))).length :=
                hlaid.size
            _ ≤ _ := by
                rw [hlater.size, classesOf_append _ (declaredNamespaces rest), List.length_append]
                exact Nat.le_add_right _ _
        · exact hwithin entry hentry

/-- The layout is complete, and the identifiers of every document stand for classes. The pass starts
with what `Listed` says. -/
theorem laid_withClasses (suffixes : Naming.Suffixes) (shared : List Domain)
    (documents : List Document) :
    Laid documents documents.length (declaredNamespaces documents)
        (withClasses suffixes shared documents).1.graph ∧
      ∀ entry ∈ (withClasses suffixes shared documents).2,
        entry.2.Within (withClasses suffixes shared documents).1.graph.classes.length := by
  have hlisted := listed_withModels shared documents
  have hclasses : List.Forall₂ (IsDeclared (withModels shared documents).graph.domains) []
      (withModels shared documents).graph.classes := by
    rw [hlisted.classes]
    exact .nil
  have hstart : Laid documents 0 [] (withModels shared documents).graph := by
    refine ⟨⟨?_, ?_, ?_, (links_lt hclasses).1, (links_lt hclasses).2, hlisted.code,
      hlisted.declared⟩, hlisted.models, ?_, ?_, hclasses⟩
    · rw [hlisted.namespaces]
      exact List.flatMap_eq_nil_iff.mpr hlisted.bare
    · rw [hlisted.namespaces, hlisted.classes]
      rfl
    · intro n id hid
      rw [Graph.namespaceAt, hlisted.namespaces] at hid
      exact absurd hid List.not_mem_nil
    · intro i model _ hmodel
      exact hlisted.bare model (List.mem_of_getElem? hmodel)
    · rw [hlisted.namespaces]
      exact .nil
  have h := laid_addDocuments suffixes documents 0 [] _ hstart (Nat.le_of_eq (Nat.zero_add _))
  rw [Nat.zero_add, List.nil_append] at h
  exact h

/-! ## Links

The third and the fourth pass. What they do is in `run_keeps`, and everything else about them
follows from that. -/

/-- A declared link comes with the scope of a document. -/
theorem mem_of_mem_declaredLinks {α : Type} {links : Outline → List α}
    {placed : List (Document × Scope)} {declared : Declared α}
    (h : declared ∈ declaredLinks links placed) :
    (declared.document, declared.scope) ∈ placed := by
  obtain ⟨⟨document, scope⟩, hplaced, hdeclared⟩ := List.mem_flatMap.mp h
  obtain ⟨link, -, rfl⟩ := List.mem_map.mp hdeclared
  exact hplaced

/-- What links between classes of the graph keep holds after a run, if it holds of the layout. The
two hypotheses on `P` are the two ways in which a graph changes: a parent is set, or a property is
added; both add a use. -/
theorem run_keeps {P : Graph → Prop}
    (hparent : ∀ (graph : Graph) (child parent : ClassId), parent < graph.classes.length →
      P graph →
      P ((graph.modifyClass child fun c => { c with parent := some parent }).addUse child parent))
    (hproperty : ∀ (graph : Graph) (holder target : ClassId) (property : Property),
      target < graph.classes.length → Derived graph target property → P graph →
      P ((graph.addProperty holder property).addUse holder target))
    {suffixes : Naming.Suffixes} {shared : List Domain} {documents : List Document}
    {final : Assembly} (hrun : run suffixes shared documents = .ok final)
    (hstart : P (withClasses suffixes shared documents).1.graph) : P final.graph := by
  obtain ⟨linked, hgeneralizations, hassociations⟩ := run_eq_ok_iff.mp hrun
  have hwithin := (laid_withClasses suffixes shared documents).2
  -- No link adds a class, so the scopes of the second pass stay valid.
  let size := (withClasses suffixes shared documents).1.graph.classes.length
  let Kept (assembly : Assembly) : Prop := assembly.graph.classes.length = size ∧ P assembly.graph
  have hlinked : Kept linked := by
    refine foldlM_keeps (P := Kept) ?_ hgeneralizations ⟨rfl, hstart⟩
    rintro assembly declared hdeclared next ⟨hsize, hkept⟩ hnext
    obtain ⟨parent, child, hfound, -, rfl⟩ := addGeneralization_eq_ok hnext
    have hscope := hwithin _ (mem_of_mem_declaredLinks hdeclared)
    exact ⟨by simpa using hsize, hparent _ child parent (find?_lt (hsize ▸ hscope) hfound) hkept⟩
  refine (foldlM_keeps (P := Kept) ?_ hassociations hlinked).2
  rintro assembly declared hdeclared next hkept hnext
  obtain ⟨a, b, ha, hb, rfl⟩ := addAssociation_eq_ok hnext
  have hscope := hwithin _ (mem_of_mem_declaredLinks hdeclared)
  have hends (side : Side) :
      (linkOf declared.document declared.link a b).classAt side < size := by
    rw [← hkept.1]
    cases side with
    | a => exact find?_lt (hkept.1 ▸ hscope) ha
    | b => exact find?_lt (hkept.1 ▸ hscope) hb
  obtain ⟨effects, -, henacts⟩ :=
    enacts_addLink assembly (linkOf declared.document declared.link a b) declared.link
  refine henacts.keeps (P := Kept) ?_ hkept
  rintro current effect hfits ⟨hsize, hcurrent⟩
  cases effect with
  | property holder target added =>
      obtain ⟨side, -, rfl, hderived⟩ := hfits
      refine ⟨?_, hproperty _ _ _ added (hsize ▸ hends _) hderived hcurrent⟩
      simpa [Effect.apply, addReference, Graph.addProperty] using hsize
  | mistake diagnostic => exact ⟨hsize, hcurrent⟩

section Run

variable {suffixes : Naming.Suffixes} {shared : List Domain} {documents : List Document}
  {final : Assembly}

/-- After its classes are there, a graph only grows. -/
theorem grows_of_run (hrun : run suffixes shared documents = .ok final) :
    (withClasses suffixes shared documents).1.graph.Grows final.graph :=
  run_keeps (P := fun graph => (withClasses suffixes shared documents).1.graph.Grows graph)
    (fun graph child parent _ hkept =>
      hkept.trans ((Graph.Grows.setParent graph child parent).trans (.addUse ..)))
    (fun graph holder _ added _ _ hkept =>
      hkept.trans ((Graph.Grows.addProperty graph holder added).trans (.addUse ..)))
    hrun (.refl _)

/-- Links lead to classes of the graph and are used by namespaces, so they keep a graph well-formed.
-/
theorem wellFormed_of_run (hrun : run suffixes shared documents = .ok final) :
    final.graph.WellFormed := by
  refine run_keeps (P := Graph.WellFormed) ?_ ?_ hrun
    (laid_withClasses suffixes shared documents).1.wellFormed
  · intro graph child parent hparent hgraph
    exact (hgraph.setParent child hparent).addUse child parent
  · intro graph holder target added htarget hderived hgraph
    refine (hgraph.addProperty holder fun other hother => ?_).addUse holder target
    rw [hderived.linked] at hother
    cases hother
    exact htarget

/-- The declared part of a class is never touched again: `Class.Grows` allows for a parent and for
properties at the end. -/
theorem shows_of_run (hrun : run suffixes shared documents = .ok final) :
    List.Forall₂ ShowsDocument documents final.graph.models ∧
      List.Forall₂ ShowsNamespace (declaredNamespaces documents) final.graph.namespaces ∧
      List.Forall₂ (ShowsClass final.graph.domains) (declaredClasses documents)
        final.graph.classes := by
  have hlaid := (laid_withClasses suffixes shared documents).1
  have hgrows := grows_of_run hrun
  refine ⟨hgrows.models ▸ hlaid.models, ?_, ?_⟩
  · -- Growth compares namespaces without their dependencies, which no declaration shows.
    have hshows (declared : Document × Outline.Namespace) (space : Graph.Namespace) :
        ShowsNamespace declared space.withoutUses ↔ ShowsNamespace declared space :=
      ⟨fun h => ⟨h.file, h.name, h.size⟩, fun h => ⟨h.file, h.name, h.size⟩⟩
    have hkept := List.forall₂_map_right_iff.mpr
      (hlaid.namespaces.imp fun declared space => (hshows declared space).mpr)
    rw [← hgrows.namespaces, List.forall₂_map_right_iff] at hkept
    exact hkept.imp fun declared space => (hshows declared space).mp
  · rw [hgrows.domains, declaredClasses, List.forall₂_iff_get]
    refine ⟨hlaid.size.symm.trans hgrows.size.symm, fun id hdeclared hid => ?_⟩
    have hbefore : IsDeclared _ _ _ := hlaid.classAt (List.getElem?_eq_getElem hdeclared)
    have hclass := hgrows.classes id
    rw [hbefore, Graph.classAt_eq_get hid] at hclass
    exact showsClass_of_grows hclass

end Run

end Assembly

/-! ## Reading -/

/-- Reading that succeeds has read every source, and assembled the documents. Most statements about
`read` are proved for `Assembly.run` and carried over by this. -/
theorem read_eq_ok {suffixes : Naming.Suffixes} {shared : List Domain} {sources : List Source}
    {graph : Graph} {found : List Diagnostic}
    (h : read suffixes shared sources = .ok (graph, found)) :
    ∃ documents,
      List.Forall₂ (fun source document => source.document = .ok document) sources documents ∧
        Assembly.run suffixes shared documents = .ok ⟨graph, found⟩ := by
  obtain ⟨documents, hdocuments, h⟩ := bind_eq_ok_iff.mp h
  obtain ⟨final, hfinal, h⟩ := bind_eq_ok_iff.mp h
  cases h
  refine ⟨documents, forall₂_of_mapM ?_, hfinal⟩
  cases hparsed : sources.mapM Source.document with
  | error _ =>
      rw [hparsed] at hdocuments
      cases hdocuments
  | ok _ =>
      rw [hparsed] at hdocuments
      cases hdocuments
      rfl

/-- The converse of `read_eq_ok`. -/
theorem read_of_run {suffixes : Naming.Suffixes} {shared : List Domain} {sources : List Source}
    {documents : List Document} {final : Assembly}
    (hsources : List.Forall₂ (fun source document => source.document = .ok document) sources
      documents) (hrun : Assembly.run suffixes shared documents = .ok final) :
    read suffixes shared sources = .ok (final.graph, final.diagnostics) := by
  rw [read, mapM_of_forall₂ hsources]
  exact bind_eq_ok_iff.mpr ⟨documents, rfl, bind_eq_ok_iff.mpr ⟨final, hrun, rfl⟩⟩

/-- What holds of the graph assembled from outlines holds of the one read from texts. Samples use
it: the outline is small enough to be evaluated, and the text is read once. -/
theorem exists_read (suffixes : Naming.Suffixes) (shared : List Domain) {sources : List Source}
    {documents : List Document}
    (hsources : List.Forall₂ (fun source document => source.document = .ok document) sources
      documents) {P : Graph → List Diagnostic → Bool}
    (h : (Assembly.run suffixes shared documents).toOption.any
      (fun final => P final.graph final.diagnostics) = true) :
    ∃ graph found, read suffixes shared sources = .ok (graph, found) ∧ P graph found = true := by
  obtain ⟨final, hrun, hfinal⟩ := exists_ok_of_any h
  exact ⟨final.graph, final.diagnostics, read_of_run hsources hrun, hfinal⟩

/-- A graph that is read is well-formed. It has one model for each source in order, and its
namespaces and classes are those that the sources declare, in order. -/
theorem layout_of_read {suffixes : Naming.Suffixes} {shared : List Domain} {sources : List Source}
    {graph : Graph} {found : List Diagnostic}
    (h : read suffixes shared sources = .ok (graph, found)) :
    graph.WellFormed ∧ ∃ documents,
      List.Forall₂ (fun source document => source.document = .ok document) sources documents ∧
      List.Forall₂ ShowsDocument documents graph.models ∧
      List.Forall₂ ShowsNamespace (declaredNamespaces documents) graph.namespaces ∧
      List.Forall₂ (ShowsClass graph.domains) (declaredClasses documents) graph.classes := by
  obtain ⟨documents, hsources, hrun⟩ := read_eq_ok h
  exact ⟨Assembly.wellFormed_of_run hrun, documents, hsources, Assembly.shows_of_run hrun⟩

/-! ## A document -/

/-- A document with two classes: one extends the other, each refers to the other, and a further
association between them cannot be implemented. -/
def sample : Source where
  path := "Shop.oom"
  format := .objectModel
  content :=
    "<Model><Code>Shop</Code>
      <Domains><Domain Id='d'>
        <Code>Key</Code><PersistentDataType>int</PersistentDataType>
      </Domain></Domains>
      <Packages><Package Id='p'><Code>Stock</Code><Classes>
        <Class Id='x'>
          <Code>Color</Code><Stereotype>Reference</Stereotype><Persistent>1</Persistent>
          <Attributes><Attribute Id='i'>
            <Code>ColorId</Code><Persistent>1</Persistent><PrimaryIdentifier>1</PrimaryIdentifier>
            <Domain><Domain Ref='d'/></Domain>
          </Attribute></Attributes>
        </Class>
        <Class Id='y'>
          <Code>Shade</Code><Stereotype>Reference</Stereotype><Persistent>1</Persistent>
          <Attributes><Attribute Id='j'>
            <Code>ShadeId</Code><Persistent>1</Persistent><PrimaryIdentifier>1</PrimaryIdentifier>
            <Domain><Domain Ref='d'/></Domain>
          </Attribute></Attributes>
        </Class>
      </Classes></Package></Packages>
      <Generalizations><Generalization Id='g'>
        <Object1><Class Ref='x'/></Object1><Object2><Class Ref='y'/></Object2>
      </Generalization></Generalizations>
      <Associations>
        <Association Id='s'>
          <RoleAMultiplicity>1..1</RoleAMultiplicity><RoleBMultiplicity>0..1</RoleBMultiplicity>
          <Object1><Class Ref='x'/></Object1><Object2><Class Ref='y'/></Object2>
        </Association>
        <Association Id='m'>
          <RoleAMultiplicity>0..*</RoleAMultiplicity><RoleBMultiplicity>0..*</RoleBMultiplicity>
          <Object1><Class Ref='x'/></Object1><Object2><Class Ref='y'/></Object2>
        </Association>
      </Associations></Model>"

def sampleClass (id code keyId key : String) : Outline.Class where
  id := id
  code := code
  label := none
  comment := none
  stereotype := some "Reference"
  isPersistent := true
  persistentCode := none
  trigram := none
  storage := none
  isHistorized := false
  isAudited := false
  isExportDelta := false
  properties := [{
    id := keyId
    code := key
    comment := none
    dataType := none
    isPersistent := true
    multiplicity := none
    domain := some (.id "d")
    isPrimaryKey := true
    isUnique := false
    isUniqueMany := false
    isOrdered := false
    persistentCode := none
    persistentType := none }]

def sampleOutline : Outline where
  name := "Shop"
  label := none
  domains := [⟨"d", "Key", none, none, some "int", none, none⟩]
  domainShortcuts := []
  namespaces := [⟨"p", "Stock", none, none, none,
    [sampleClass "x" "Color" "i" "ColorId", sampleClass "y" "Shade" "j" "ShadeId"]⟩]
  classShortcuts := []
  generalizations := [⟨"g", "x", "y"⟩]
  associations := [
    ⟨"s", none, none, ⟨"x", "1..1", none⟩, ⟨"y", "0..1", none⟩, none⟩,
    ⟨"m", none, none, ⟨"x", "0..N", none⟩, ⟨"y", "0..N", none⟩, none⟩]

/-- `Xml.parse?` on characters, so that a proof need not evaluate `String.toList`. -/
theorem parse?_ofList (chars : List Char) :
    Xml.parse? (String.ofList chars) = (do
      let tokens ← Xml.tokenize? chars
      (← tokens.foldlM Xml.Progress.step? .start).finish?) := by
  rw [Xml.parse?, String.toList_ofList]

set_option maxRecDepth 20000 in
theorem document_sample : sample.document = .ok ⟨"Shop.oom", sampleOutline⟩ := by
  -- As a list of characters the text can be evaluated.
  rw [Source.document, Source.outline, show Xml.parse? sample.content = _ from parse?_ofList _]
  decide +kernel

/-- What holds of the graph assembled from the outline holds of the one read from the text. -/
theorem exists_read_sample {P : Graph → List Diagnostic → Bool}
    (h : (Assembly.run .standard [] [⟨"Shop.oom", sampleOutline⟩]).toOption.any
      (fun final => P final.graph final.diagnostics) = true) :
    ∃ graph found, read .standard [] [sample] = .ok (graph, found) ∧ P graph found = true :=
  exists_read .standard [] (.cons document_sample .nil) h

theorem layout_of_read_sample :
    ∃ graph found, read .standard [] [sample] = .ok (graph, found) ∧
      (graph.WellFormed ∧ ∃ documents,
        List.Forall₂ (fun source document => source.document = .ok document) [sample] documents ∧
        List.Forall₂ ShowsDocument documents graph.models ∧
        List.Forall₂ ShowsNamespace (declaredNamespaces documents) graph.namespaces ∧
        List.Forall₂ (ShowsClass graph.domains) (declaredClasses documents) graph.classes) ∧
      graph.classes.map (·.parent) = [none, some 0] ∧
      graph.classes.map (·.properties.length) = [2, 2] := by
  obtain ⟨graph, found, hread, hlinks⟩ := exists_read_sample
    (P := fun graph _ => graph.classes.map (·.parent) == [none, some 0] &&
      graph.classes.map (·.properties.length) == [2, 2]) (by cbv)
  simp only [Bool.and_eq_true, beq_iff_eq] at hlinks
  exact ⟨graph, found, hread, layout_of_read hread, hlinks⟩

end ModelSchema.Reading
