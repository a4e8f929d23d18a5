import ModelSchema.Interchange.Adapter
import ModelSchema.Multiplicity

/-!
# Object model exports

Declarations carry an `Id` attribute, and references to them a `Ref` attribute. Fields are child
elements, and collections are elements that hold the declarations. The ends of a link are `Object1`
and `Object2`.
-/

namespace ModelSchema.Interchange.ObjectModel

open Outline (DomainRef Shortcut Generalization Association End)
open Xml (Node)

/-! ## Fields -/

def id (node : Node) (element : String) : Except Failure String :=
  require element "Id" (node.attributeText? "Id")

def code (node : Node) (element : String) : Except Failure String :=
  require element "Code" (node.childText? "Code")

def flag (node : Node) (name : String) : Bool :=
  isFlag (node.childText? name)

/-- The identifier of the first object that a field refers to. -/
def reference? (node : Node) (container : String) : Option String :=
  (node.child? container).bind fun container =>
    (container.children.filter Node.isElement).findSome? (·.attributeText? "Ref")

/-- All elements with a name that declare something. -/
def declarations (node : Node) (name : String) : List Node :=
  node.descendants.filter fun node => node.hasName name && (node.attribute? "Id").isSome

/-- The child elements of a collection with one of two names. -/
def members (node : Node) (container first second : String) : List Node :=
  match node.child? container with
  | some container =>
    container.children.filter fun node => node.hasName first || node.hasName second
  | none => []

/-! ## Declarations

Identifier and code are required, and so are the ends of links. Everything else is a field that may
be missing. -/

def shortcut (node : Node) : Except Failure Shortcut := do
  return { id := ← id node "Shortcut", code := ← code node "Shortcut" }

def domain (node : Node) : Except Failure (Outline.Domain ⊕ Shortcut) := do
  if node.hasName "Shortcut" then return .inr (← shortcut node)
  else
    return .inl {
      id := ← id node "Domain"
      code := ← code node "Domain"
      label := node.childText? "Name"
      dataType := node.childText? "DataType"
      persistentType := node.childText? "PersistentDataType"
      length := number? (node.childText? "Length")
      precision := number? (node.childText? "Precision") }

def namespaceHeader (node : Node) : Except Failure Outline.Namespace := do
  return {
    id := ← id node "Package"
    code := ← code node "Package"
    label := node.childText? "Name"
    comment := node.childText? "Comment"
    creator := node.childText? "Creator"
    classes := [] }

/-- A class without its properties, or a shortcut to one. -/
def classHeader (node : Node) : Except Failure (Outline.Class ⊕ Shortcut) := do
  if node.hasName "Shortcut" then return .inr (← shortcut node)
  else
    return .inl {
      id := ← id node "Class"
      code := ← code node "Class"
      label := node.childText? "Name"
      comment := node.childText? "Comment"
      stereotype := node.childText? "Stereotype"
      isPersistent := flag node "Persistent"
      persistentCode := node.childText? "PersistentCode"
      trigram := node.childText? "Trigram"
      storage := node.childText? "Storage"
      isHistorized := flag node "Historized"
      isAudited := flag node "Audited"
      isExportDelta := flag node "ExportDelta"
      properties := [] }

def property (node : Node) : Except Failure Outline.Property := do
  return {
    id := ← id node "Attribute"
    code := ← code node "Attribute"
    comment := node.childText? "Comment"
    dataType := node.childText? "DataType"
    isPersistent := flag node "Persistent"
    multiplicity := (node.childText? "Multiplicity").map Multiplicity.normalize
    domain := (reference? node "Domain").map .id
    isPrimaryKey := flag node "PrimaryIdentifier"
    isUnique := flag node "Unique"
    isUniqueMany := flag node "UniqueMany"
    isOrdered := flag node "Ordered"
    persistentCode := node.childText? "PersistentCode"
    persistentType := node.childText? "PersistentDataType" }

/-- A generalization: the parent comes first. -/
def generalization (node : Node) : Except Failure Generalization := do
  return {
    id := ← id node "Generalization"
    parent := ← require "Generalization" "Object1" (reference? node "Object1")
    child := ← require "Generalization" "Object2" (reference? node "Object2") }

/-- Whether an end is marked as the owner of the other one. -/
def ownsOther (node : Node) (indicator : String) : Bool :=
  (node.childText? indicator).any (Text.equalsIgnoringCase · "C")

/-- The multiplicity of an end; a missing one is left empty. -/
def multiplicity (node : Node) (name : String) : String :=
  ((node.childText? name).map Multiplicity.normalize).getD ""

def association (node : Node) : Except Failure Association := do
  return {
    id := ← id node "Association"
    code := node.childText? "Code"
    name := node.childText? "Name"
    a := {
      classId := ← require "Association" "Object1" (reference? node "Object1")
      multiplicity := multiplicity node "RoleAMultiplicity"
      role := node.childText? "RoleAName" }
    b := {
      classId := ← require "Association" "Object2" (reference? node "Object2")
      multiplicity := multiplicity node "RoleBMultiplicity"
      role := node.childText? "RoleBName" }
    owner :=
      if ownsOther node "RoleAIndicator" then some .a
      else if ownsOther node "RoleBIndicator" then some .b
      else none }

/-- How object model exports are read. The model is the first element of that name with a code. -/
def adapter : Adapter where
  model? document :=
    document.descendants.find? fun node => node.hasName "Model" && (node.child? "Code").isSome
  header model := do return (← code model "Model", model.childText? "Name")
  domainNodes model := members model "Domains" "Domain" "Shortcut"
  domain := domain
  shortcutNodes model := model.nested "Classes" "Shortcut"
  namespaceNodes model := declarations model "Package"
  namespaceHeader := namespaceHeader
  classNodes node := members node "Classes" "Class" "Shortcut"
  classHeader := classHeader
  propertyNodes node := node.nested "Attributes" "Attribute"
  property := property
  generalizationNodes model := declarations model "Generalization"
  generalization := generalization
  associationNodes model := declarations model "Association"
  association := association

end ModelSchema.Interchange.ObjectModel
