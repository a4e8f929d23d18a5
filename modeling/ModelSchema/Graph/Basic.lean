import ModelSchema.Catalog
import ModelSchema.Seed
import ModelSchema.Stereotype

/-!
# Class graphs

The model of a project: documents, namespaces, classes with their properties, and domains. Classes
and namespaces are kept in lists and refer to each other by position.
-/

namespace ModelSchema

abbrev ClassId := Nat

abbrev NamespaceId := Nat

namespace Graph

/-- A named type that properties share. -/
structure Domain where
  code : String
  label : Option String
  /-- The type in programs. -/
  dataType : Option String
  /-- The type of columns. -/
  persistentType : Option String
  length : Option Nat
  precision : Option Nat
  /-- The document that declares it. -/
  file : String
deriving DecidableEq, Repr, Inhabited

/-- A document: the domains it was first to declare, and its namespaces. -/
structure Model where
  name : String
  label : Option String
  file : String
  domains : List String
  namespaces : List NamespaceId
deriving DecidableEq, Repr, Inhabited

structure Namespace where
  name : String
  label : Option String
  comment : Option String
  creator : Option String
  /-- Whether its name says that it holds persistent classes. -/
  isPersistent : Bool
  file : String
  classes : List ClassId
  /-- The names of the namespaces it depends on. -/
  uses : NameSet
deriving DecidableEq, Inhabited

/-- What a property is made of. -/
inductive Kind where
  /-- A value of a domain. -/
  | primitive
  /-- A reference to one instance of a class. -/
  | reference (target : ClassId)
  /-- References to any number of instances. -/
  | referenceList (target : ClassId)
  /-- An owned instance, or a collection of them. -/
  | composition (target : ClassId) (isCollection : Bool)
deriving DecidableEq, Repr, Inhabited

structure Property where
  name : String
  comment : Option String
  dataType : Option String
  /-- The code of the domain. -/
  domain : Option String
  /-- The name of the column. -/
  column : Option String
  isRequired : Bool
  isPrimaryKey : Bool
  isUnique : Bool
  /-- Part of the unique key of several columns. -/
  isUniqueMany : Bool
  isPersistent : Bool
  /-- Gives the default order. -/
  isOrdered : Bool
  /-- A column type that takes the place of the domain's. -/
  persistentType : Option String
  /-- The role in an association. -/
  role : Option String
  kind : Kind
deriving DecidableEq, Repr, Inhabited

namespace Property

/-- A property without any mark. -/
def plain (name : String) (domain : Option String) : Property where
  name := name
  comment := none
  dataType := none
  domain := domain
  column := none
  isRequired := false
  isPrimaryKey := false
  isUnique := false
  isUniqueMany := false
  isPersistent := false
  isOrdered := false
  persistentType := none
  role := none
  kind := .primitive

/-- Whether the property is a value of a domain. -/
def isPrimitive (property : Property) : Bool :=
  property.kind == .primitive

/-- The class that the property refers to one instance of. -/
def target? (property : Property) : Option ClassId :=
  match property.kind with
  | .reference target => some target
  | _ => none

/-- Whether the property becomes a column. -/
def isColumn (property : Property) : Bool :=
  property.isPersistent && property.column.isSome
    && match property.kind with
      | .primitive | .reference _ => true
      | _ => false

end Property

structure Class where
  name : String
  label : Option String
  comment : Option String
  stereotype : Stereotype
  /-- The name of the table. -/
  table : String
  isPersistent : Bool
  properties : List Property
  parent : Option ClassId
  /-- Three letters that column names start with. -/
  trigram : Option String
  /-- Where the engine keeps the table. -/
  storage : Option String
  isHistorized : Bool
  isAudited : Bool
  isExportDelta : Bool
  /-- The namespace it is declared in. -/
  home : NamespaceId
  file : String
  /-- The rows the table starts with. -/
  items : List Seed.Item
deriving DecidableEq, Inhabited

namespace Class

def primaryKeys (c : Class) : List Property :=
  c.properties.filter (·.isPrimaryKey)

def primaryKey? (c : Class) : Option Property :=
  c.properties.find? (·.isPrimaryKey)

def property? (c : Class) (name : String) : Option Property :=
  c.properties.find? (·.name == name)

end Class

end Graph

/-- The model of a project. -/
structure Graph where
  models : List Graph.Model
  namespaces : List Graph.Namespace
  classes : List Graph.Class
  domains : Catalog Graph.Domain
deriving DecidableEq, Inhabited

namespace Graph

def empty : Graph := ⟨[], [], [], .empty⟩

def classAt (graph : Graph) (id : ClassId) : Class :=
  graph.classes.getD id default

def namespaceAt (graph : Graph) (id : NamespaceId) : Namespace :=
  graph.namespaces.getD id default

def namespaceOf (graph : Graph) (id : ClassId) : Namespace :=
  graph.namespaceAt (graph.classAt id).home

def classIds (graph : Graph) : List ClassId :=
  List.range graph.classes.length

def persistentIds (graph : Graph) : List ClassId :=
  graph.classIds.filter fun id => (graph.classAt id).isPersistent

def classNamed? (graph : Graph) (name : String) : Option ClassId :=
  graph.classes.findIdx? (·.name == name)

/-- The domain of a property, if it names a known one. -/
def domainOf? (graph : Graph) (property : Property) : Option Domain :=
  property.domain.bind graph.domains.get?

def modifyClass (graph : Graph) (id : ClassId) (f : Class → Class) : Graph :=
  { graph with classes := graph.classes.modify id f }

def addProperty (graph : Graph) (id : ClassId) (property : Property) : Graph :=
  graph.modifyClass id fun c => { c with properties := c.properties ++ [property] }

/-- Note that the namespace of a class depends on that of another class. -/
def addUse (graph : Graph) (user used : ClassId) : Graph :=
  let home := (graph.classAt user).home
  let other := (graph.classAt used).home
  if home = other then graph
  else
    let name := (graph.namespaceAt other).name
    { graph with
      namespaces := graph.namespaces.modify home fun n => { n with uses := n.uses.insert name } }

/-! ## Seed data -/

/-- Give the items of each batch to the class it names. -/
def addSeed (graph : Graph) (seed : Seed) : Graph :=
  seed.batches.entries.foldl
    (fun graph entry =>
      match graph.classNamed? entry.1 with
      | some id => graph.modifyClass id fun c => { c with items := entry.2.items }
      | none => graph)
    graph

def seededCount (graph : Graph) (seed : Seed) : Nat :=
  seed.batches.names.countP fun name => (graph.classNamed? name).isSome

/-! ## Ancestors -/

/-- The parents of a class, the parents of those and so on. -/
structure Ancestry where
  /-- The ancestors, nearest first. -/
  chain : List ClassId
  /-- Whether the last of them has a parent that came before. -/
  isCyclic : Bool
deriving DecidableEq, Repr

/-- Follow parents from `parent` until there is none or one has been seen before. As long as new
classes are met, there are at most as many as the graph has; that bounds the first argument. -/
def ancestorsFrom (graph : Graph) : Nat → List ClassId → Option ClassId → Ancestry
  | _, _, none => ⟨[], false⟩
  | 0, _, some _ => ⟨[], true⟩
  | fuel + 1, seen, some parent =>
    if parent ∈ seen then ⟨[], true⟩
    else
      let above := ancestorsFrom graph fuel (parent :: seen) (graph.classAt parent).parent
      ⟨parent :: above.chain, above.isCyclic⟩

def ancestors (graph : Graph) (id : ClassId) : Ancestry :=
  ancestorsFrom graph (graph.classes.length + 1) [id] (graph.classAt id).parent

end Graph

end ModelSchema
