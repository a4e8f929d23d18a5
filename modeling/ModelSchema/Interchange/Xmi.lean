import ModelSchema.Interchange.Adapter
import ModelSchema.Multiplicity

/-!
# XMI 1.1 exports

Declarations carry `xmi.id` and `name` attributes; other fields are tagged values. Domains are data
types. A data type or class with the stereotype `shortcut` stands for one of another document. An
association lists two ends.
-/

namespace ModelSchema.Interchange.Xmi

open Outline (DomainRef Shortcut Generalization Association End)
open Xml (Node)

/-! ## Fields -/

def id (node : Node) (element : String) : Except Failure String :=
  require element "xmi.id" (node.attributeText? "xmi.id")

def name (node : Node) (element : String) : Except Failure String :=
  require element "name" (node.attributeText? "name")

/-- Tagged values by tag, in lower case; the last of one tag comes first. -/
abbrev Tags := List (String × String)

def tags (node : Node) : Tags :=
  ((node.nested "ModelElement.taggedValue" "TaggedValue").filterMap fun node =>
    match node.attribute? "tag", node.attribute? "value" with
    | some tag, some value => some (Text.lower tag, Text.trim value)
    | _, _ => none).reverse

/-- The value of a tag, if it is not empty. -/
def Tags.text? (tags : Tags) (tag : String) : Option String :=
  (tags.lookup tag).filter (· != "")

def Tags.flag (tags : Tags) (tag : String) : Bool :=
  isFlag (tags.lookup tag)

def Tags.isPersistent (tags : Tags) : Bool :=
  (tags.lookup "persistence").any (Text.equalsIgnoringCase · "persistent")

/-- The stereotype of a declaration, given by an element or by a tag. -/
def stereotype? (node : Node) (tags : Tags) : Option String :=
  let given := do
    let holder ← node.child? "ModelElement.stereotype"
    let stereotype ← holder.child? "Stereotype"
    stereotype.attributeText? "name"
  (given.or (tags.lookup "stereotype")).filter (· != "")

/-- Whether a declaration stands for one of another document. -/
def isShortcut (node : Node) (tags : Tags) : Bool :=
  (stereotype? node tags).any (Text.equalsIgnoringCase · "shortcut")

/-- All elements with a name that declare something. -/
def declarations (node : Node) (name : String) : List Node :=
  node.descendants.filter fun node => node.hasName name && (node.attribute? "xmi.id").isSome

/-- The elements with a name that a model or namespace owns. -/
def owned (node : Node) (name : String) : List Node :=
  node.nested "Namespace.ownedElement" name

/-! ## Declarations

Identifier and name are required. Everything else is a tag, or a field for stereotypes and parts. -/

def domain (node : Node) : Except Failure (Outline.Domain ⊕ Shortcut) := do
  let tags := tags node
  let id ← id node "DataType"
  let code ← name node "DataType"
  if isShortcut node tags then return .inr { id, code }
  else
    return .inl {
      id, code
      label := tags.text? "alias"
      dataType := tags.text? "type"
      persistentType := tags.text? "persistenttype"
      length := number? (tags.lookup "length")
      precision := number? (tags.lookup "precision") }

def namespaceHeader (node : Node) : Except Failure Outline.Namespace := do
  let tags := tags node
  return {
    id := ← id node "Package"
    code := ← name node "Package"
    label := tags.text? "alias"
    comment := tags.text? "documentation"
    creator := tags.text? "author"
    classes := [] }

def classHeader (node : Node) : Except Failure (Outline.Class ⊕ Shortcut) := do
  let tags := tags node
  let id ← id node "Class"
  let code ← name node "Class"
  if isShortcut node tags then return .inr { id, code }
  else
    return .inl {
      id, code
      label := tags.text? "alias"
      comment := tags.text? "documentation"
      stereotype := stereotype? node tags
      isPersistent := tags.isPersistent
      persistentCode := tags.text? "tablename"
      trigram := tags.text? "trigram"
      storage := tags.text? "storage"
      isHistorized := tags.flag "historized"
      isAudited := tags.flag "audited"
      isExportDelta := tags.flag "exportdelta"
      properties := [] }

/-- The multiplicity that the tags of a property give: two bounds, or one that counts as both. -/
def multiplicity? (tags : Tags) : Option String :=
  match tags.lookup "lowerbound", tags.lookup "upperbound" with
  | some lower, some upper => some (Multiplicity.normalize (lower ++ ".." ++ upper))
  | some bound, none | none, some bound => some (Multiplicity.normalize bound)
  | none, none => none

def property (node : Node) : Except Failure Outline.Property := do
  let tags := tags node
  return {
    id := ← id node "Attribute"
    code := ← name node "Attribute"
    comment := tags.text? "documentation"
    dataType := tags.text? "type"
    isPersistent := tags.isPersistent
    multiplicity := multiplicity? tags
    domain := (tags.text? "domain").map .code
    isPrimaryKey := tags.flag "isid"
    isUnique := tags.flag "unique"
    isUniqueMany := tags.flag "uniquemany"
    isOrdered := tags.flag "ordered"
    persistentCode := tags.text? "columnname"
    persistentType := tags.text? "columntype" }

def generalization (node : Node) : Except Failure Generalization := do
  return {
    id := ← id node "Generalization"
    parent := ← require "Generalization" "supertype" (node.attributeText? "supertype")
    child := ← require "Generalization" "subtype" (node.attributeText? "subtype") }

def ownsOther (node : Node) : Bool :=
  (node.attribute? "aggregation").any (Text.equalsIgnoringCase · "composite")

/-- One end of an association; a missing multiplicity is left empty. -/
def associationEnd (node : Node) : Except Failure End := do
  return {
    classId := ← require "AssociationEnd" "type" (node.attributeText? "type")
    multiplicity := ((node.attributeText? "multiplicity").map Multiplicity.normalize).getD ""
    role := node.attributeText? "name" }

/-- An association, which must have two ends. -/
def association (node : Node) : Except Failure Association := do
  match node.nested "Association.connection" "AssociationEnd" with
  | [a, b] =>
    return {
      id := ← id node "Association"
      code := (tags node).text? "code"
      name := node.attributeText? "name"
      a := ← associationEnd a
      b := ← associationEnd b
      owner := if ownsOther a then some .a else if ownsOther b then some .b else none }
  | _ => throw (.missingField "Association" "AssociationEnd")

/-- How XMI exports are read. The model is the first element of that name which has a name itself.
-/
def adapter : Adapter where
  model? document :=
    document.descendants.find? fun node => node.hasName "Model" && (node.attribute? "name").isSome
  header model := do return (← name model "Model", (tags model).text? "alias")
  domainNodes model := declarations model "DataType"
  domain := domain
  shortcutNodes model := owned model "Class"
  namespaceNodes model := declarations model "Package"
  namespaceHeader := namespaceHeader
  classNodes node := owned node "Class"
  classHeader := classHeader
  propertyNodes node := node.nested "Classifier.feature" "Attribute"
  property := property
  generalizationNodes model := declarations model "Generalization"
  generalization := generalization
  associationNodes model := declarations model "Association"
  association := association

end ModelSchema.Interchange.Xmi
