import ModelSchema.Proofs.Reading.Domains
import ModelSchema.Proofs.Reading.Links

/-!
# What documents declare

The layout of a graph, said without positions. If no code is declared twice,

* the domains of the graph are those declared (`knows_withModels`);
* namespaces and classes are as declared (`holds_withClasses`);
* an identifier stands for the class with a certain name (`find?_byName`).

None of this depends on the order of the documents.
-/

namespace ModelSchema.Reading

open ModelSchema.Graph (Domain Property Tie)

def classCodes (space : Outline.Namespace) : List String :=
  space.classes.map (·.code)

/-- Class by class or namespace by namespace, the codes are the same list. -/
theorem map_code_declaredClasses (documents : List Document) :
    (declaredClasses documents).map (·.2.code) =
      (declaredNamespaces documents).flatMap fun declared => classCodes declared.2 := by
  simp [declaredClasses, classesOf, classCodes, List.map_flatMap, Function.comp_def]

def Document.classes (document : Document) : List Outline.Class :=
  document.outline.namespaces.flatMap (·.classes)

/-- A scope in which all identifiers of a document stand for names of classes. Scopes of a run stand
for positions, which depend on the documents before; this one does not. -/
def Document.byName (document : Document) : Scope where
  classes := []
  shortcuts := (document.classes.map fun c => (c.id, c.code)).reverse ++
    (document.outline.classShortcuts.map fun shortcut => (shortcut.id, shortcut.code)).reverse

namespace Assembly

/-! ## Domains -/

/-- The assembly has exactly these domains, and none was declared again. -/
structure Knows (assembly : Assembly) (domains : List Domain) : Prop where
  diagnostics : assembly.diagnostics = []
  get : ∀ code domain, assembly.graph.domains.get? code = some domain ↔
    domain ∈ domains ∧ domain.code = code

/-- `Declares` for codes that are declared once: the first domain of a code is the only one. -/
theorem knows_withModels {shared : List Domain} {documents : List Document}
    (hcodes : ((declaredDomains shared documents).map (·.code)).Nodup) :
    (withModels shared documents).Knows (declaredDomains shared documents) := by
  have hdeclares := declares_withModels shared documents
  refine ⟨?_, fun code domain => ?_⟩
  · rw [hdeclares.diagnostics, repetitions_eq_nil hcodes, List.map_nil]
  · rw [hdeclares.get, firstOf_eq_some_iff hcodes]

/-! ## Namespaces

A namespace notes the positions of its classes, which depend on the order of the documents.
Everything else about it is `spaceOf` its declaration. -/

/-- A declared namespace, without its classes. -/
def spaceOf (suffixes : Naming.Suffixes) (declared : Document × Outline.Namespace) :
    Graph.Namespace where
  name := declared.2.code
  label := declared.2.label
  comment := declared.2.comment
  creator := declared.2.creator
  isPersistent := suffixes.isPersistent declared.2.code
  file := declared.1.path
  classes := []
  uses := .empty

/-- Namespaces have been added to an assembly, with their classes. The namespaces are compared
without the positions of their classes. -/
structure Extends (suffixes : Naming.Suffixes) (before after : Assembly)
    (added : List (Document × Outline.Namespace)) : Prop where
  domains : after.graph.domains = before.graph.domains
  size : after.graph.classes.length = before.graph.classes.length + (classesOf added).length
  namespaces : after.graph.namespaces.map (fun space => { space with classes := [] }) =
    before.graph.namespaces.map (fun space => { space with classes := [] }) ++
      added.map (spaceOf suffixes)
  diagnostics : after.diagnostics = before.diagnostics ++
    (classesOf added).filterMap fun declared => stereotypeMistake? declared.1.path declared.2

namespace Extends

variable {suffixes : Naming.Suffixes}

theorem refl (assembly : Assembly) : Extends suffixes assembly assembly [] :=
  ⟨rfl, rfl, (List.append_nil _).symm, (List.append_nil _).symm⟩

/-- Additions follow each other; all four fields are appended. -/
theorem trans {a b c : Assembly} {first second : List (Document × Outline.Namespace)}
    (hab : Extends suffixes a b first) (hbc : Extends suffixes b c second) :
    Extends suffixes a c (first ++ second) where
  domains := hbc.domains.trans hab.domains
  size := by rw [hbc.size, hab.size, classesOf_append, List.length_append, Nat.add_assoc]
  namespaces := by rw [hbc.namespaces, hab.namespaces, List.map_append, List.append_assoc]
  diagnostics := by
    rw [hbc.diagnostics, hab.diagnostics, classesOf_append, List.filterMap_append,
      List.append_assoc]

variable (suffixes)

theorem addNamespace (assembly : Assembly) (position : Nat) (document : Document)
    (declared : Outline.Namespace) :
    Extends suffixes assembly (assembly.addNamespace suffixes position document declared)
      [(document, declared)] := by
  refine ⟨rfl, ?_, ?_, ?_⟩
  · simp [Assembly.addNamespace, classesOf_singleton]
  · simp [Assembly.addNamespace, spaceOf]
  · rw [classesOf_singleton, List.filterMap_map]
    rfl

theorem addDocument (assembly : Assembly) (position : Nat) (document : Document) :
    Extends suffixes assembly (assembly.addDocument suffixes position document).1
      (document.outline.namespaces.map (document, ·)) := by
  have hfold (spaces : List Outline.Namespace) (current : Assembly) :
      Extends suffixes current
        (spaces.foldl (Assembly.addNamespace suffixes position document) current)
        (spaces.map (document, ·)) := by
    induction spaces generalizing current with
    | nil => exact .refl current
    | cons space rest ih =>
        exact (addNamespace suffixes current position document space).trans (ih _)
  exact hfold document.outline.namespaces assembly

/-- The whole second pass, by induction on the documents. -/
theorem addDocuments (documents : List Document) (assembly : Assembly) (position : Nat) :
    Extends suffixes assembly (addDocuments suffixes assembly position documents).1
      (declaredNamespaces documents) := by
  induction documents generalizing assembly position with
  | nil => exact .refl assembly
  | cons document rest ih =>
      rw [addDocuments_cons]
      exact (addDocument suffixes assembly position document).trans (ih _ _)

end Extends

theorem extends_withClasses (suffixes : Naming.Suffixes) (shared : List Domain)
    (documents : List Document) :
    Extends suffixes (withModels shared documents) (withClasses suffixes shared documents).1
      (declaredNamespaces documents) :=
  .addDocuments suffixes documents _ 0

/-- Lists that are equal after each other, with parts of the same lengths, have equal parts. -/
theorem forall₂_of_flatMap_eq {α β γ : Type} {f : α → List γ} {g : β → List γ} {as : List α}
    {bs : List β} (hlength : List.Forall₂ (fun a b => (f a).length = (g b).length) as bs)
    (h : as.flatMap f = bs.flatMap g) : List.Forall₂ (fun a b => f a = g b) as bs := by
  induction hlength with
  | nil => exact .nil
  | cons hfirst _ ih =>
      rw [List.flatMap_cons, List.flatMap_cons] at h
      obtain ⟨hhead, htail⟩ := List.append_inj h hfirst
      exact .cons hhead (ih htail)

/-- A graph without links holds the namespaces and classes that documents declare. -/
structure Holds (suffixes : Naming.Suffixes) (documents : List Document) (graph : Graph) :
    Prop where
  wellFormed : graph.WellFormed
  names : graph.classes.map (·.name) = (declaredClasses documents).map (·.2.code)
  classes : ∀ id < graph.classes.length, ∃ declared ∈ declaredClasses documents,
    IsDeclared graph.domains declared (graph.classAt id)
  unlinked : ∀ id, (graph.classAt id).parent = none ∧
    ∀ property ∈ (graph.classAt id).properties, property.kind = .primitive
  /-- The namespace of a class is as declared, and lists the classes with the declared codes. -/
  spaces : ∀ id < graph.classes.length, ∃ declared ∈ declaredNamespaces documents,
    (graph.classAt id).name ∈ classCodes declared.2 ∧
    graph.namespaceOf id =
      { spaceOf suffixes declared with classes := (graph.namespaceOf id).classes } ∧
    ((graph.namespaceOf id).classes.map fun listed => (graph.classAt listed).name) =
      classCodes declared.2

section Laid

variable {documents : List Document} {position : Nat} {graph : Graph}

/-- Classes stand in the order of their declarations. -/
theorem Laid.names (h : Laid documents position (declaredNamespaces documents) graph) :
    graph.classes.map (·.name) = (declaredClasses documents).map (·.2.code) := by
  refine (map_eq_of_forall₂ h.classes ?_).symm
  intro declared c hc
  rw [hc]
  rfl

/-- Every namespace lists the classes with the declared codes. By `Laid`, both sides give the same
list for all namespaces together, and namespaces have the declared sizes; so `forall₂_of_flatMap_eq`
applies. -/
theorem Laid.codes (h : Laid documents position (declaredNamespaces documents) graph) :
    List.Forall₂ (fun declared space => classCodes declared.2 =
        space.classes.map fun id => (graph.classAt id).name)
      (declaredNamespaces documents) graph.namespaces := by
  refine forall₂_of_flatMap_eq (h.namespaces.imp fun declared space hshows => ?_) ?_
  · rw [classCodes, List.length_map, List.length_map, hshows.size]
  · -- The classes of all namespaces are all classes, in order.
    rw [← map_code_declaredClasses, ← h.names, ← List.map_flatMap, h.wellFormed.classes]
    refine List.ext_getElem? fun id => ?_
    rw [List.getElem?_map, List.getElem?_map]
    by_cases hid : id < graph.classes.length
    · rw [Graph.getElem?_classes hid, List.getElem?_range hid]
      rfl
    · rw [List.getElem?_eq_none (Nat.le_of_not_lt hid), List.getElem?_eq_none (by simpa using hid)]
      rfl

end Laid

/-- What the layout says without positions. `Laid` and `Extends` are both about the same lists, and
here they are read at the home of a class. -/
theorem holds_withClasses (suffixes : Naming.Suffixes) (shared : List Domain)
    (documents : List Document) :
    Holds suffixes documents (withClasses suffixes shared documents).1.graph := by
  have hlaid := (laid_withClasses suffixes shared documents).1
  have hspaces := (extends_withClasses suffixes shared documents).namespaces
  rw [(listed_withModels shared documents).namespaces, List.map_nil, List.nil_append] at hspaces
  generalize (withClasses suffixes shared documents).1.graph = graph at hlaid hspaces
  refine ⟨hlaid.wellFormed, hlaid.names, fun id hid => ?_, no_links hlaid.classes,
    fun id hid => ?_⟩
  · have hlt : id < (declaredClasses documents).length := hlaid.size ▸ hid
    exact ⟨_, List.getElem_mem hlt, hlaid.classAt (List.getElem?_eq_getElem hlt)⟩
  · have hlisted := hlaid.wellFormed.mem_namespaceOf hid
    have hhome := hlaid.wellFormed.home_lt hid
    obtain ⟨hlength, hget⟩ := List.forall₂_iff_get.mp hlaid.codes
    have hdeclared : (graph.classAt id).home < (declaredNamespaces documents).length :=
      hlength ▸ hhome
    have hcodes := hget _ hdeclared hhome
    have hspace := congrArg (·[(graph.classAt id).home]?) hspaces
    simp only [List.getElem?_map, List.getElem?_eq_getElem hhome,
      List.getElem?_eq_getElem hdeclared, Option.map_some, Option.some.injEq] at hspace
    -- Namespaces stand where their declarations do, so the home of a class tells both.
    have hat : graph.namespaceOf id = graph.namespaces.get ⟨(graph.classAt id).home, hhome⟩ := by
      simp [Graph.namespaceOf, Graph.namespaceAt, hhome]
    refine ⟨(declaredNamespaces documents).get ⟨_, hdeclared⟩, List.get_mem _ _, ?_, ?_, ?_⟩
    · rw [hcodes, ← hat]
      exact List.mem_map.mpr ⟨id, hlisted, rfl⟩
    · rw [hat]
      simp only [List.get_eq_getElem, ← hspace]
    · rw [hat, hcodes]

/-! ## Scopes

A scope takes identifiers to positions of classes. Followed by the names of the classes, it no
longer depends on where the document stands. -/

/-- The identifiers of a scope stand for what the document declares; `names` are the names of all
classes. -/
structure Stands (scope : Scope) (document : Document) (names : List String) : Prop where
  classes : scope.classes.map (fun entry => (entry.1, names.getD entry.2 "")) =
    (document.classes.map fun c => (c.id, c.code)).reverse
  shortcuts : scope.shortcuts =
    (document.outline.classShortcuts.map fun shortcut => (shortcut.id, shortcut.code)).reverse

/-- The positions that a document gives to its classes lead to these classes, whatever comes before
and after. -/
theorem map_getD_range' {α : Type} (before own after : List α) (default : α) :
    (List.range' before.length own.length).map
        (fun i => (before ++ (own ++ after)).getD i default) = own := by
  apply List.ext_getElem
  · simp
  · intro i _ hi
    rw [List.getElem_map, List.getElem_range', Nat.one_mul, List.getD_eq_getElem?_getD,
      List.getElem?_append_right (Nat.le_add_right _ _), Nat.add_sub_cancel_left,
      List.getElem?_append_left hi, List.getElem?_eq_getElem hi, Option.getD_some]

theorem code_classesOf_map (document : Document) :
    (classesOf (document.outline.namespaces.map (document, ·))).map (·.2.code) =
      document.classes.map (·.code) := by
  simp [classesOf, Document.classes, List.flatMap_map, List.map_flatMap, Function.comp_def]

/-- Every scope of the second pass stands for the classes of its document. `names` are the names of
the classes before the first of the documents. -/
theorem stands_addDocuments (suffixes : Naming.Suffixes) (documents : List Document)
    (assembly : Assembly) (position : Nat) (names : List String)
    (hnames : names.length = assembly.graph.classes.length) :
    ∀ entry ∈ (addDocuments suffixes assembly position documents).2,
      Stands entry.2 entry.1 (names ++ (declaredClasses documents).map (·.2.code)) := by
  induction documents generalizing assembly position names with
  | nil =>
      intro entry hentry
      exact absurd hentry List.not_mem_nil
  | cons document rest ih =>
      have hcodes : (declaredClasses (document :: rest)).map (·.2.code) =
          document.classes.map (·.code) ++ (declaredClasses rest).map (·.2.code) := by
        rw [declaredClasses, declaredNamespaces, List.flatMap_cons, classesOf_append,
          List.map_append, code_classesOf_map]
        rfl
      intro entry hentry
      rw [addDocuments_cons] at hentry
      rw [hcodes]
      rcases List.mem_cons.mp hentry with rfl | hentry
      · -- The classes of the document stand right after those of the documents before.
        refine ⟨?_, rfl⟩
        have hown := map_getD_range' names (document.classes.map (·.code))
          ((declaredClasses rest).map (·.2.code)) ""
        rw [hnames, List.length_map] at hown
        calc ((document.classes.map (·.id)).zip
              (List.range' assembly.graph.classes.length document.classes.length)).reverse.map _
            = (((document.classes.map (·.id)).zip
                (List.range' assembly.graph.classes.length document.classes.length)).map
                  _).reverse := List.map_reverse
          _ = ((document.classes.map (·.id)).zip (document.classes.map (·.code))).reverse :=
              congrArg List.reverse (List.zip_map_right.symm.trans (congrArg (List.zip _) hown))
          _ = (document.classes.map fun c => (c.id, c.code)).reverse := by rw [List.zip_map']
      · -- For the others, the classes of the document are among those before.
        rw [← List.append_assoc]
        refine ih _ _ _ ?_ entry hentry
        have hsize := (Extends.addDocument suffixes assembly position document).size
        rw [hsize, List.length_append, hnames, ← code_classesOf_map, List.length_map]

theorem lookup_map_snd {α β : Type} (g : α → β) (entries : List (String × α)) (key : String) :
    (entries.map fun entry => (entry.1, g entry.2)).lookup key = (entries.lookup key).map g := by
  induction entries with
  | nil => rfl
  | cons entry rest ih =>
      obtain ⟨own, value⟩ := entry
      rw [List.map_cons, List.lookup_cons, List.lookup_cons, ih]
      cases key == own <;> rfl

section Scopes

variable {suffixes : Naming.Suffixes} {shared : List Domain} {documents : List Document}

/-- If no two classes have one name, identifiers may be replaced by names. `find?` looks a name up
in the graph, and finds the class at the position that the identifier stands for. -/
theorem find?_byName (hcodes : ((declaredClasses documents).map (·.2.code)).Nodup)
    {entry : Document × Scope} (hentry : entry ∈ (withClasses suffixes shared documents).2)
    (reference : String) :
    find? (withClasses suffixes shared documents).1.graph entry.2 reference =
      find? (withClasses suffixes shared documents).1.graph entry.1.byName reference := by
  have hlisted := listed_withModels shared documents
  have hnames := (holds_withClasses suffixes shared documents).names
  have hwithin := (laid_withClasses suffixes shared documents).2 entry hentry
  have hstands := stands_addDocuments suffixes documents (withModels shared documents) 0 []
    (by rw [hlisted.classes]; rfl) entry hentry
  rw [List.nil_append, ← hnames] at hstands
  rw [← hnames] at hcodes
  generalize (withClasses suffixes shared documents).1.graph = base at *
  have hlookup := congrArg (List.lookup reference) hstands.classes
  rw [lookup_map_snd fun id => (base.classes.map (·.name)).getD id ""] at hlookup
  rw [find?, find?, Document.byName, List.lookup_nil, List.lookup_append, ← hlookup,
    ← hstands.shortcuts]
  cases hfound : entry.2.classes.lookup reference with
  | none => rfl
  | some id =>
      obtain ⟨before, after, heq, -⟩ := List.lookup_eq_some_iff.mp hfound
      have hid : id < base.classes.length := hwithin (reference, id) (by simp [heq])
      have hname : (base.classes.map (·.name)).getD id "" = (base.classAt id).name := by
        simp [Graph.classAt, hid]
      simp only [Option.map_some, Option.some_or, Option.getD_some, hname]
      exact (Graph.classNamed?_name hcodes hid).symm

end Scopes

end Assembly

end ModelSchema.Reading
