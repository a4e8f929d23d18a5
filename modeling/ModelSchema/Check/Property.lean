import ModelSchema.Check.Options
import ModelSchema.Graph.Basic
import ModelSchema.Naming.Rules

/-!
# Checks of properties

A property has a name in Pascal case; a primitive one has a comment and a known domain of the same
type. Keys are persistent and required, columns are named by convention, and references that would
confuse a reader are reported.
-/

namespace ModelSchema.Check.Property

open ModelSchema.Graph (Property)

/-- A property in messages. -/
def title (c : Graph.Class) (property : Property) : String :=
  c.name ++ "." ++ property.name

/-- Whether the declared type is that of the domain. -/
def domain (graph : Graph) (c : Graph.Class) (property : Property) : List Diagnostic :=
  match property.domain with
  | none =>
    [.report .propertyMissingDomain c.file ("Property " ++ title c property ++ " has no domain")]
  | some code =>
    match graph.domains.get? code with
    | none =>
      [.report .propertyMissingDomain c.file
        ("Property " ++ title c property ++ " uses unknown domain " ++ code)]
    | some domain =>
      match property.dataType, domain.dataType with
      | some declared, some expected =>
        findIf (!Text.equalsIgnoringCase declared expected)
          ((Diagnostic.report .propertyDomainMismatch c.file
            ("Property " ++ title c property ++ " type differs from domain " ++ domain.code))
            |>.comparing expected declared)
      | _, _ => []

/-- Whether a property may be persistent, and a key property is. -/
def persistence (c : Graph.Class) (property : Property) : List Diagnostic :=
  findIf (property.isPersistent && !c.isPersistent)
      (.report .propertyPersistenceMismatch c.file
        ("Property " ++ title c property ++ " is persistent but its class is not"))
    ++ findIf
      (property.isPrimaryKey && c.isPersistent && !(property.isPersistent && property.isRequired))
      (.report .propertyInvalidPrimaryKey c.file
        ("Primary key " ++ title c property ++ " must be persistent and required"))

/-- Whether the column of a primitive property starts with the trigram of the class. -/
def columnStart (c : Graph.Class) (property : Property) (column : String) : List Diagnostic :=
  match c.trigram with
  | some trigram =>
    let start := trigram ++ "_"
    findIf (property.isPrimitive && !Text.startsWith start column)
      ((Diagnostic.report .propertyColumnPrefix c.file
        ("Column " ++ column ++ " of " ++ title c property ++ " must start with " ++ start))
        |>.comparing start column)
  | none => []

def column (engine : Sql.Engine) (c : Graph.Class) (property : Property) : List Diagnostic :=
  match property.column with
  | some column =>
    if property.isColumn && c.isPersistent then
      findIf (!Naming.isSqlIdentifier engine column)
          (.report .propertyColumnCasing c.file
            ("Column " ++ column ++ " of " ++ title c property ++ " does not follow the "
              ++ engine.label ++ " casing"))
        ++ columnStart c property column
    else []
  | none => []

/-- Whether a link to the class itself makes sense. -/
def selfLink (c : Graph.Class) (id : ClassId) (property : Property) : List Diagnostic :=
  match property.kind with
  | .primitive => []
  | .reference target | .referenceList target =>
    findIf (target == id && property.role.isNone)
      (.report .propertySelfReferenceRole c.file
        ("Property " ++ title c property ++ " references its own class without a role"))
  | .composition target isCollection =>
    findIf (target == id && !isCollection)
      (.report .propertySelfComposition c.file
        ("Property " ++ title c property
          ++ " composes its own class without a collection (infinite recursion)"))

/-- Whether an ancestor refers to a class in the same role. -/
def holdsReference (ancestor : Graph.Class) (target : ClassId) (role : Option String) : Bool :=
  ancestor.properties.any fun property => property.target? == some target && property.role == role

/-- Whether a reference repeats one of an ancestor; the nearest such ancestor is named. -/
def inherited (graph : Graph) (c : Graph.Class) (id : ClassId) (property : Property) :
    List Diagnostic :=
  match property.target? with
  | none => []
  | some target =>
    let ancestors := (graph.ancestors id).chain.map graph.classAt
    match ancestors.find? (holdsReference · target property.role) with
    | none => []
    | some ancestor =>
      [(Diagnostic.report .propertyInheritedReference c.file
        ("Property " ++ title c property ++ " duplicates a reference to "
          ++ (graph.classAt target).name ++ " already held by " ++ ancestor.name))
        |>.relatedTo [ancestor.name]]

/-- The findings about a property of a class. Ancestors are looked at only if they form no cycle. -/
def check (engine : Sql.Engine) (graph : Graph) (id : ClassId) (isCyclic : Bool)
    (property : Property) : List Diagnostic :=
  let c := graph.classAt id
  findIf (!Naming.isPascal property.name)
      (.report .nameCasing c.file ("Property " ++ title c property ++ " must be Pascal case"))
    ++ (if property.isPrimitive then
        findIf property.comment.isNone
            (.report .missingComment c.file ("Property " ++ title c property ++ " has no comment"))
          ++ domain graph c property
      else [])
    ++ persistence c property
    ++ column engine c property
    ++ selfLink c id property
    ++ if isCyclic then [] else inherited graph c id property

end ModelSchema.Check.Property
