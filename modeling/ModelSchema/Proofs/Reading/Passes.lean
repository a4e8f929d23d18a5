import ModelSchema.Proofs.Graph.WellFormed
import ModelSchema.Proofs.Steps
import ModelSchema.Reading.Assembly

/-!
# The passes of an assembly

An assembly first lists domains and models (`withModels`), then namespaces and classes
(`withClasses`). Both always succeed. Generalizations and associations follow, link by link, and the
first link to an unknown class stops the assembly: `run_eq_ok_iff` cuts a run at these points.

A successful run is a list of successful steps, so what every step keeps holds at the end
(`foldlM_keeps`), and each step is described once: `addGeneralization_eq_ok`,
`addAssociation_eq_ok`.
-/

namespace ModelSchema.Reading

open ModelSchema.Graph (Domain Property)

/-! ## Declarations -/

/-- The namespaces that documents declare, in the order of the documents. -/
def declaredNamespaces (documents : List Document) : List (Document × Outline.Namespace) :=
  documents.flatMap fun document => document.outline.namespaces.map (document, ·)

def classesOf (spaces : List (Document × Outline.Namespace)) : List (Document × Outline.Class) :=
  spaces.flatMap fun (document, space) => space.classes.map (document, ·)

theorem classesOf_append (first second : List (Document × Outline.Namespace)) :
    classesOf (first ++ second) = classesOf first ++ classesOf second :=
  List.flatMap_append

theorem classesOf_singleton (document : Document) (space : Outline.Namespace) :
    classesOf [(document, space)] = space.classes.map (document, ·) := by
  simp [classesOf]

/-- The classes that documents declare, in the order of the documents and their namespaces. -/
def declaredClasses (documents : List Document) : List (Document × Outline.Class) :=
  classesOf (declaredNamespaces documents)

/-- The identifiers of a scope stand for classes before a position. -/
def Scope.Within (scope : Scope) (size : Nat) : Prop :=
  ∀ entry ∈ scope.classes, entry.2 < size

namespace Assembly

/-! ## Passes -/

/-- The assembly after the domains. It lists all models, and no namespace yet. -/
def withModels (shared : List Domain) (documents : List Document) : Assembly :=
  documents.foldl addModel (empty.addDomains shared).1

/-- The assembly after the classes, and the documents with what their identifiers stand for. -/
def withClasses (suffixes : Naming.Suffixes) (shared : List Domain) (documents : List Document) :
    Assembly × List (Document × Scope) :=
  addDocuments suffixes (withModels shared documents) 0 documents

/-- A link of a document, with what identifiers stand for in that document. Flattening the links of
all documents into one list of these turns two nested loops into one. -/
structure Declared (α : Type) where
  document : Document
  scope : Scope
  link : α

/-- The links of one kind of all documents, in order. -/
def declaredLinks {α : Type} (links : Outline → List α) (placed : List (Document × Scope)) :
    List (Declared α) :=
  placed.flatMap fun (document, scope) => (links document.outline).map (⟨document, scope, ·⟩)

/-- The two nested loops of a pass are one loop over the `declaredLinks`. -/
theorem foldlM_declaredLinks {α : Type} (links : Outline → List α)
    (step : Document → Scope → Assembly → α → Outcome) (placed : List (Document × Scope))
    (assembly : Assembly) :
    placed.foldlM (fun assembly (document, scope) =>
        (links document.outline).foldlM (step document scope) assembly) assembly =
      (declaredLinks links placed).foldlM (fun assembly declared =>
        step declared.document declared.scope assembly declared.link) assembly := by
  simp only [declaredLinks, foldlM_flatMap, List.foldlM_map]

/-- After the classes, a run is a pass over the generalizations and one over the associations. -/
theorem run_eq_bind (suffixes : Naming.Suffixes) (shared : List Domain)
    (documents : List Document) :
    run suffixes shared documents =
      (declaredLinks (·.generalizations) (withClasses suffixes shared documents).2).foldlM
          (fun assembly declared =>
            addGeneralization declared.document declared.scope assembly declared.link)
          (withClasses suffixes shared documents).1 >>= fun linked =>
        (declaredLinks (·.associations) (withClasses suffixes shared documents).2).foldlM
          (fun assembly declared =>
            addAssociation declared.document declared.scope assembly declared.link) linked := by
  rw [← foldlM_declaredLinks (·.generalizations) addGeneralization]
  simp only [← foldlM_declaredLinks (·.associations) addAssociation]
  rfl

/-- A successful run is a successful pass over the generalizations, and after it one over the
associations. This is where all proofs about runs begin. -/
theorem run_eq_ok_iff {suffixes : Naming.Suffixes} {shared : List Domain}
    {documents : List Document} {final : Assembly} :
    run suffixes shared documents = .ok final ↔
      ∃ linked,
        (declaredLinks (·.generalizations) (withClasses suffixes shared documents).2).foldlM
            (fun assembly declared =>
              addGeneralization declared.document declared.scope assembly declared.link)
            (withClasses suffixes shared documents).1 = .ok linked ∧
          (declaredLinks (·.associations) (withClasses suffixes shared documents).2).foldlM
            (fun assembly declared =>
              addAssociation declared.document declared.scope assembly declared.link)
            linked = .ok final := by
  rw [run_eq_bind]
  exact bind_eq_ok_iff

/-! ## Finding classes -/

/-- Names of classes outside the document are looked up in the graph; identifiers are within bounds
by `Scope.Within`. -/
theorem find?_lt {graph : Graph} {scope : Scope} {reference : String} {id : ClassId}
    (hscope : scope.Within graph.classes.length) (h : find? graph scope reference = some id) :
    id < graph.classes.length := by
  rw [find?] at h
  split at h
  · next found hfound =>
    cases h
    obtain ⟨before, after, heq, -⟩ := List.lookup_eq_some_iff.mp hfound
    exact hscope (reference, id) (by simp [heq])
  · exact Graph.classNamed?_lt h

/-- Growth leaves the meaning of references as it is, so the order of links does not change what
they link. -/
theorem find?_of_grows {before after : Graph} (h : before.Grows after) (scope : Scope)
    (reference : String) : find? after scope reference = find? before scope reference := by
  simp only [find?, h.classNamed?]

/-! ## Steps -/

/-- A generalization that succeeds links two known classes. -/
theorem addGeneralization_eq_ok {document : Document} {scope : Scope} {assembly next : Assembly}
    {link : Outline.Generalization}
    (h : addGeneralization document scope assembly link = .ok next) :
    ∃ parent child,
      find? assembly.graph scope link.parent = some parent ∧
      find? assembly.graph scope link.child = some child ∧
      next = { assembly with
        graph := (assembly.graph.modifyClass child fun c => { c with parent := some parent }).addUse
          child parent } := by
  simp only [addGeneralization] at h
  split at h
  · next parent child hparent hchild =>
    cases h
    exact ⟨parent, child, hparent, hchild, rfl⟩
  · cases h

def linkOf (document : Document) (association : Outline.Association) (a b : ClassId) : Link :=
  ⟨document.path, labelOf association, a, b, association.a.role, association.b.role⟩

/-- An association that succeeds links two known classes. Whatever else is wrong with it is noted by
`addLink`, and does not stop the run. -/
theorem addAssociation_eq_ok {document : Document} {scope : Scope} {assembly next : Assembly}
    {association : Outline.Association}
    (h : addAssociation document scope assembly association = .ok next) :
    ∃ a b,
      find? assembly.graph scope association.a.classId = some a ∧
      find? assembly.graph scope association.b.classId = some b ∧
      next = assembly.addLink (linkOf document association a b) association := by
  simp only [addAssociation] at h
  split at h
  · next a b ha hb =>
    cases h
    exact ⟨a, b, ha, hb, rfl⟩
  · cases h

end Assembly

end ModelSchema.Reading
