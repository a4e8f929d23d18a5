import ModelSchema.Association
import ModelSchema.Diagnostic.Basic
import ModelSchema.Naming
import ModelSchema.Naming.Suffix
import ModelSchema.Reading.Source

/-!
# Assembling a class graph

The outlines of all documents become one graph, in four passes:

1. domains: the shared ones first, then those of each document; the first of a code is kept;
2. namespaces and classes, in the order of the documents;
3. generalizations, which give classes their parents;
4. associations, which give classes further properties.

Mistakes in a model are diagnostics. Only a link to a class that does not exist stops the assembly.
-/

namespace ModelSchema.Reading

open ModelSchema.Graph (Domain Property)

/-- The outline of a document with its path. -/
structure Document where
  path : String
  outline : Outline
deriving DecidableEq, Repr

def Source.document (source : Source) : Except Error Document :=
  source.outline.map fun outline => ⟨source.path, outline⟩

/-- What the identifiers of a document stand for; the last declaration of one comes first. -/
structure Scope where
  /-- Classes of the document. -/
  classes : List (String × ClassId)
  /-- Names of classes of other documents. -/
  shortcuts : List (String × String)
deriving DecidableEq, Repr

/-- A graph in the making, and the mistakes found so far. -/
structure Assembly where
  graph : Graph
  diagnostics : List Diagnostic

namespace Assembly

def empty : Assembly := ⟨.empty, []⟩

def note (assembly : Assembly) (diagnostic : Diagnostic) : Assembly :=
  { assembly with diagnostics := assembly.diagnostics ++ [diagnostic] }

/-! ## Domains -/

def duplicateDomain (domain first : Domain) : Diagnostic :=
  (Diagnostic.report .readDuplicateDomain domain.file
    ("Domain " ++ domain.code ++ " is declared more than once (first in " ++ first.file ++ ")"))
    |>.relatedTo [first.file]

/-- Declare a domain, unless its code is known. -/
def addDomain (assembly : Assembly) (domain : Domain) : Assembly :=
  match assembly.graph.domains.get? domain.code with
  | some first => assembly.note (duplicateDomain domain first)
  | none =>
    { assembly with
      graph := { assembly.graph with
        domains := assembly.graph.domains.insert domain.code domain } }

/-- Declare a list of domains, and give the codes that were new. -/
def addDomains (assembly : Assembly) : List Domain → Assembly × List String
  | [] => (assembly, [])
  | domain :: rest =>
    let (after, codes) := (assembly.addDomain domain).addDomains rest
    (after, if assembly.graph.domains.contains domain.code then codes else domain.code :: codes)

def addModel (assembly : Assembly) (document : Document) : Assembly :=
  let outline := document.outline
  let (after, codes) := assembly.addDomains (outline.domains.map (domainOf document.path))
  { after with
    graph := { after.graph with
      models := after.graph.models ++ [{
        name := outline.name
        label := outline.label
        file := document.path
        domains := codes
        namespaces := [] }] } }

/-- The domain codes that the identifiers of a document stand for. -/
def domainScope (outline : Outline) : List (String × String) :=
  (outline.domains.map (fun domain => (domain.id, domain.code))
    ++ outline.domainShortcuts.map fun shortcut => (shortcut.id, shortcut.code)).reverse

/-! ## Classes -/

def propertyOf (domains : Catalog Domain) (scope : List (String × String))
    (trigram : Option String) (declared : Outline.Property) : Property :=
  let domain :=
    match declared.domain with
    | some (.id id) => scope.lookup id
    | some (.code code) => some code
    | none => none
  { Property.plain declared.code domain with
    comment := declared.comment
    dataType := declared.dataType.or ((domain.bind domains.get?).bind (·.dataType))
    column :=
      if declared.isPersistent then
        some (declared.persistentCode.getD (Naming.columnName trigram declared.code))
      else none
    isRequired := declared.multiplicity == some Multiplicity.exactlyOne.text
    isPrimaryKey := declared.isPrimaryKey
    isUnique := declared.isUnique
    isUniqueMany := declared.isUniqueMany
    isPersistent := declared.isPersistent
    isOrdered := declared.isOrdered
    persistentType := declared.persistentType }

/-- The stereotype of a class; one that is unknown counts as plain. -/
def stereotypeOf (declared : Outline.Class) : Stereotype :=
  match Stereotype.parse declared.stereotype with
  | .ok stereotype => stereotype
  | .error _ => .plain

def stereotypeMistake? (path : String) (declared : Outline.Class) : Option Diagnostic :=
  match Stereotype.parse declared.stereotype with
  | .ok _ => none
  | .error unknown =>
    some (Diagnostic.report .readUnknownStereotype path
      ("Class " ++ declared.code ++ " has unknown stereotype '" ++ unknown ++ "'"))

def classOf (domains : Catalog Domain) (document : Document) (home : NamespaceId)
    (declared : Outline.Class) : Graph.Class where
  name := declared.code
  label := declared.label
  comment := declared.comment
  stereotype := stereotypeOf declared
  table := declared.persistentCode.getD (Naming.upperSnake declared.code)
  isPersistent := declared.isPersistent
  properties :=
    declared.properties.map
      (propertyOf domains (domainScope document.outline) declared.trigram)
  parent := none
  trigram := declared.trigram
  storage := declared.storage
  isHistorized := declared.isHistorized
  isAudited := declared.isAudited
  isExportDelta := declared.isExportDelta
  home := home
  file := document.path
  items := []

/-- Add a namespace of the document at a position among the models, with its classes. -/
def addNamespace (suffixes : Naming.Suffixes) (position : Nat) (document : Document)
    (assembly : Assembly) (declared : Outline.Namespace) : Assembly :=
  let graph := assembly.graph
  let id := graph.namespaces.length
  { graph := { graph with
      models := graph.models.modify position fun model =>
        { model with namespaces := model.namespaces ++ [id] }
      namespaces := graph.namespaces ++ [{
        name := declared.code
        label := declared.label
        comment := declared.comment
        creator := declared.creator
        isPersistent := suffixes.isPersistent declared.code
        file := document.path
        classes := List.range' graph.classes.length declared.classes.length
        uses := .empty }]
      classes := graph.classes ++ declared.classes.map (classOf graph.domains document id) }
    diagnostics :=
      assembly.diagnostics ++ declared.classes.filterMap (stereotypeMistake? document.path) }

/-- Add the namespaces of a document, and say what its identifiers stand for. -/
def addDocument (suffixes : Naming.Suffixes) (assembly : Assembly) (position : Nat)
    (document : Document) : Assembly × Scope :=
  let outline := document.outline
  let classes := outline.namespaces.flatMap (·.classes)
  let ids := List.range' assembly.graph.classes.length classes.length
  (outline.namespaces.foldl (addNamespace suffixes position document) assembly,
    { classes := ((classes.map (·.id)).zip ids).reverse
      shortcuts :=
        (outline.classShortcuts.map fun shortcut => (shortcut.id, shortcut.code)).reverse })

/-- Add the namespaces of all documents, the first of which stands at a position among the models.
-/
def addDocuments (suffixes : Naming.Suffixes) (assembly : Assembly) (position : Nat) :
    List Document → Assembly × List (Document × Scope)
  | [] => (assembly, [])
  | document :: rest =>
    let (assembly, scope) := assembly.addDocument suffixes position document
    let (assembly, placed) := addDocuments suffixes assembly (position + 1) rest
    (assembly, (document, scope) :: placed)

/-! ## Links

What an association becomes in the graph: properties of the classes at its ends, or a mistake where
it gets none. -/

/-- The class that a document refers to: one it declares, the one a shortcut stands for, or the
first with that name. -/
def find? (graph : Graph) (scope : Scope) (reference : String) : Option ClassId :=
  match scope.classes.lookup reference with
  | some id => some id
  | none => graph.classNamed? ((scope.shortcuts.lookup reference).getD reference)

/-- Why an assembly stopped, and the mistakes found before. -/
abbrev Outcome := Except (Error × List Diagnostic) Assembly

def addGeneralization (document : Document) (scope : Scope) (assembly : Assembly)
    (link : Outline.Generalization) : Outcome :=
  let graph := assembly.graph
  match find? graph scope link.parent, find? graph scope link.child with
  | some parent, some child =>
    .ok { assembly with
      graph :=
        (graph.modifyClass child fun c => { c with parent := some parent }).addUse child parent }
  | _, _ =>
    .error
      (.danglingGeneralization document.path link.id link.parent link.child, assembly.diagnostics)

/-- An association whose ends have been found. -/
structure Link where
  file : String
  label : String
  a : ClassId
  b : ClassId
  roleA : Option String
  roleB : Option String

namespace Link

def classAt (link : Link) : Side → ClassId
  | .a => link.a
  | .b => link.b

def roleAt (link : Link) : Side → Option String
  | .a => link.roleA
  | .b => link.roleB

/-- The start of the messages about an association. -/
def subject (link : Link) : String :=
  "Association '" ++ link.label ++ "': "

end Link

def addReference (assembly : Assembly) (holder target : ClassId) (property : Property) : Assembly :=
  { assembly with graph := (assembly.graph.addProperty holder property).addUse holder target }

/-- The reference of a class to the primary key of another one. Its name starts with the role and
the name of that class, which is not repeated if the key starts with it. Its column is named after
the column of the key. -/
def foreignKeyOf (holder target : Graph.Class) (key : Property) (targetId : ClassId)
    (role : Option String) (isRequired : Bool) : Property :=
  let base := if Text.startsWith target.name key.name then key.name else target.name ++ key.name
  let column := key.column.getD (Naming.columnName holder.trigram base)
  { Property.plain (role.getD "" ++ base) key.domain with
    dataType := key.dataType
    persistentType := key.persistentType
    isPersistent := holder.isPersistent
    column :=
      if holder.isPersistent then
        some (match role with
          | some role => column ++ "_" ++ Naming.upperSnake role
          | none => column)
      else none
    isRequired := isRequired
    role := role
    kind := .reference targetId }

/-- The list of references of a class to another one, like the primary key of that if it has one. -/
def referenceListOf (target : Graph.Class) (targetId : ClassId) (role : Option String)
    (isPersistent : Bool) : Property :=
  let key := target.primaryKey?
  { Property.plain
      (role.getD "" ++ target.name ++ (key.map (·.name)).getD "" ++ "List")
      (key.bind (·.domain)) with
    dataType := key.bind (·.dataType)
    isPersistent := isPersistent
    role := role
    kind := .referenceList targetId }

/-- The child of a class that owns instances of another one. -/
def childOf (child : Graph.Class) (childId : ClassId) (role : Option String) (isCollection : Bool) :
    Property :=
  { Property.plain (role.getD child.name) none with
    dataType := some child.name
    role := role
    kind := .composition childId isCollection }

def keylessMistake (link : Link) (holder target : Graph.Class) : Diagnostic :=
  Diagnostic.report .readTargetWithoutPrimaryKey link.file
    (link.subject ++ holder.name ++ " cannot reference " ++ target.name
      ++ " which has no primary key")

def rejectionMistake (link : Link) (holder target : Graph.Class) :
    Association.Rejection → Diagnostic
  | .manyToManyBetweenTables =>
    Diagnostic.report .readUnimplementableAssociation link.file
      (link.subject ++ "many-to-many between persistent classes " ++ holder.name ++ " and "
        ++ target.name ++ " cannot be implemented")
  | .persistentToTransient =>
    Diagnostic.report .readPersistentToTransient link.file
      (link.subject ++ "persistent class " ++ holder.name
        ++ " cannot reference non-persistent class " ++ target.name)

/-- Give the holder a reference to the other end, if that has a primary key. -/
def addForeignKey (assembly : Assembly) (link : Link) (holder : Side) (isRequired : Bool) :
    Assembly :=
  let holderId := link.classAt holder
  let targetId := link.classAt holder.other
  let holderClass := assembly.graph.classAt holderId
  let target := assembly.graph.classAt targetId
  match target.primaryKey? with
  | some key =>
    assembly.addReference holderId targetId
      (foreignKeyOf holderClass target key targetId (link.roleAt holder.other) isRequired)
  | none => assembly.note (keylessMistake link holderClass target)

def addForeignKeyList (assembly : Assembly) (link : Link) (holder : Side) (isPersistent : Bool) :
    Assembly :=
  let targetId := link.classAt holder.other
  assembly.addReference (link.classAt holder) targetId
    (referenceListOf (assembly.graph.classAt targetId) targetId (link.roleAt holder.other)
      isPersistent)

def addComposedChild (assembly : Assembly) (link : Link) (owner : Side) (isCollection : Bool) :
    Assembly :=
  let childId := link.classAt owner.other
  assembly.addReference (link.classAt owner) childId
    (childOf (assembly.graph.classAt childId) childId (link.roleAt owner.other) isCollection)

def reject (assembly : Assembly) (link : Link) (holder : Side) (reason : Association.Rejection) :
    Assembly :=
  assembly.note
    (rejectionMistake link (assembly.graph.classAt (link.classAt holder))
      (assembly.graph.classAt (link.classAt holder.other)) reason)

/-- Put one resolution of an association into effect. -/
def apply (link : Link) (assembly : Assembly) : Association.Resolution → Assembly
  | .foreignKey holder isRequired => assembly.addForeignKey link holder isRequired
  | .foreignKeyList holder isPersistent => assembly.addForeignKeyList link holder isPersistent
  | .composedChild owner isCollection => assembly.addComposedChild link owner isCollection
  | .rejected holder reason => assembly.reject link holder reason

/-- The mistake of a code that is not generated from the name. -/
def codeMistake? (path : String) (association : Outline.Association) : Option Diagnostic :=
  match association.code, association.name with
  | some code, some name =>
    let expected := Naming.generatedCode name
    if code = expected then none
    else
      some ((Diagnostic.report .readAssociationCodeMismatch path
        ("Association '" ++ name ++ "' code does not match its name"))
        |>.comparing expected code)
  | _, _ => none

/-- A multiplicity as shown in messages. -/
def shownMultiplicity (multiplicity : String) : String :=
  if multiplicity = "" then "missing" else multiplicity

def multiplicityMistake (graph : Graph) (link : Link) (association : Outline.Association) :
    Diagnostic :=
  Diagnostic.report .readInvalidMultiplicity link.file
    ("Association '" ++ link.label ++ "' between " ++ (graph.classAt link.a).name ++ " and "
      ++ (graph.classAt link.b).name ++ " has an unsupported multiplicity ("
      ++ shownMultiplicity association.a.multiplicity ++ " / "
      ++ shownMultiplicity association.b.multiplicity ++ ")")

/-- What matters about a class at an end of an association. -/
def participant (graph : Graph) (id : ClassId) (multiplicity : Multiplicity) :
    Association.Participant :=
  let c := graph.classAt id
  ⟨c.stereotype, c.isPersistent, multiplicity⟩

def addLink (assembly : Assembly) (link : Link) (association : Outline.Association) : Assembly :=
  let graph := assembly.graph
  let assembly :=
    { assembly with
      diagnostics := assembly.diagnostics ++ (codeMistake? link.file association).toList }
  match Multiplicity.parse? association.a.multiplicity,
    Multiplicity.parse? association.b.multiplicity with
  | some a, some b =>
    (Association.resolve (participant graph link.a a) (participant graph link.b b)
      association.owner).foldl (apply link) assembly
  | _, _ => assembly.note (multiplicityMistake graph link association)

/-- The name of an association in messages. -/
def labelOf (association : Outline.Association) : String :=
  (association.name.or association.code).getD association.id

/-- Find the ends of an association and put it into effect. -/
def addAssociation (document : Document) (scope : Scope) (assembly : Assembly)
    (association : Outline.Association) : Outcome :=
  let label := labelOf association
  match find? assembly.graph scope association.a.classId,
    find? assembly.graph scope association.b.classId with
  | some a, some b =>
    .ok (assembly.addLink ⟨document.path, label, a, b, association.a.role, association.b.role⟩
      association)
  | _, _ =>
    .error (.danglingAssociation document.path label association.a.classId association.b.classId,
      assembly.diagnostics)

/-! ## Assembly -/

def run (suffixes : Naming.Suffixes) (shared : List Domain) (documents : List Document) :
    Outcome := do
  let assembly := documents.foldl addModel (empty.addDomains shared).1
  let (assembly, placed) := addDocuments suffixes assembly 0 documents
  let assembly ← placed.foldlM
    (fun assembly (document, scope) =>
      document.outline.generalizations.foldlM (addGeneralization document scope) assembly)
    assembly
  placed.foldlM
    (fun assembly (document, scope) =>
      document.outline.associations.foldlM (addAssociation document scope) assembly)
    assembly

end Assembly

/-- Read documents into a graph. The diagnostics tell the mistakes found; after an error, those
found before it. -/
def read (suffixes : Naming.Suffixes) (shared : List Domain) (sources : List Source) :
    Except (Error × List Diagnostic) (Graph × List Diagnostic) := do
  let documents ← (sources.mapM Source.document).mapError fun error => (error, [])
  let assembly ← Assembly.run suffixes shared documents
  return (assembly.graph, assembly.diagnostics)

end ModelSchema.Reading
