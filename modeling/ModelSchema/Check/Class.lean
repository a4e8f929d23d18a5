import ModelSchema.Check.Property
import ModelSchema.Check.Registry

/-!
# Checks of classes

A class is documented, has a name of its own, agrees with its namespace, and is set up for a table
if it is persistent. Names must be unique in a project, so the checks of classes hand on a registry.
-/

namespace ModelSchema.Check.Class

def documentation (c : Graph.Class) : List Diagnostic :=
  findIf c.comment.isNone (.report .missingComment c.file ("Class " ++ c.name ++ " has no comment"))
    ++ findIf c.label.isNone (.report .missingLabel c.file ("Class " ++ c.name ++ " has no label"))

def duplicate (registry : Registry) (c : Graph.Class) : List Diagnostic :=
  match registry.classes.get? c.name with
  | some first =>
    [(Diagnostic.report .classDuplicate c.file
      ("Class " ++ c.name ++ " is declared more than once (first in " ++ first ++ ")"))
      |>.relatedTo [first]]
  | none => []

def persistenceText (isPersistent : Bool) : String :=
  if isPersistent then "persistent" else "not persistent"

/-- Whether a class is well named, and belongs in its namespace. -/
def identity (registry : Registry) (home : Graph.Namespace) (c : Graph.Class) : List Diagnostic :=
  findIf (!Naming.isPascal c.name)
      (.report .nameCasing c.file ("Class " ++ c.name ++ " must be Pascal case"))
    ++ duplicate registry c
    ++ findIf (home.isPersistent != c.isPersistent)
      ((Diagnostic.report .namespacePersistenceMismatch c.file
        ("Class " ++ c.name ++ " persistence does not match namespace " ++ home.name))
        |>.comparing (persistenceText home.isPersistent) (persistenceText c.isPersistent))

/-- What only a persistent class may have. -/
def transient (c : Graph.Class) : List Diagnostic :=
  findIf c.stereotype.isList
      (.report .classStereotypeNotPersistent c.file
        (c.stereotype.label ++ " list " ++ c.name ++ " must be persistent"))
    ++ findIf (c.isHistorized || c.isAudited || c.isExportDelta)
      (.report .classFlagWithoutPersistence c.file
        ("Class " ++ c.name ++ " is historized, audited or export tracked but not persistent"))

/-- Whether a class has a trigram, of three letters and of its own. -/
def trigram (registry : Registry) (c : Graph.Class) : List Diagnostic :=
  match c.trigram with
  | none =>
    [.report .classMissingTrigram c.file ("Persistent class " ++ c.name ++ " has no trigram")]
  | some trigram =>
    findIf (!Naming.isTrigram trigram)
        (.report .classInvalidTrigram c.file
          ("Trigram " ++ trigram ++ " of class " ++ c.name ++ " must be three upper-case letters"))
      ++ match registry.trigrams.get? trigram with
        | some owner =>
          [(Diagnostic.report .classDuplicateTrigram c.file
            ("Trigram " ++ trigram ++ " is used by both " ++ owner ++ " and " ++ c.name))
            |>.relatedTo [owner]]
        | none => []

/-- What a class needs for a table. -/
def persistent (engine : Sql.Engine) (graph : Graph) (registry : Registry) (c : Graph.Class) :
    List Diagnostic :=
  trigram registry c
    ++ findIf c.primaryKey?.isNone
      (.report .classMissingPrimaryKey c.file
        ("Persistent class " ++ c.name ++ " has no primary key"))
    ++ (match c.parent with
      | some parent =>
        [.report .classPersistentWithParent c.file
          ("Persistent class " ++ c.name ++ " cannot inherit from " ++ (graph.classAt parent).name)]
      | none => [])
    ++ findIf (!Naming.isSqlIdentifier engine c.table)
      (.report .classTableCasing c.file
        ("Table name " ++ c.table ++ " of class " ++ c.name ++ " does not follow the "
          ++ engine.label ++ " casing"))

/-- The names that stand in a list before, after the ones already seen. -/
def repetitions (seen : List String) : List String → List String
  | [] => []
  | name :: rest =>
    if name ∈ seen then name :: repetitions seen rest else repetitions (name :: seen) rest

def properties (c : Graph.Class) : List Diagnostic :=
  let ordered := c.properties.countP (·.isOrdered)
  (repetitions [] (c.properties.map (·.name))).map (fun name =>
      .report .classDuplicateProperty c.file
        ("Class " ++ c.name ++ " declares property " ++ name ++ " twice"))
    ++ findIf (c.properties.countP (·.isUniqueMany) == 1)
      (.report .classCompositeUniqueTooSmall c.file
        ("Class " ++ c.name ++ " has a composite unique key with a single property"))
    ++ findIf (1 < ordered)
      (.report .classMultipleOrderProperties c.file
        ("Class " ++ c.name ++ " has " ++ toString ordered ++ " ordering properties"))

/-- The properties of a class that an ancestor has too. -/
def redeclared (c ancestor : Graph.Class) : List Diagnostic :=
  (c.properties.filter fun p => (ancestor.property? p.name).isSome).map fun property =>
    .report .propertyRedeclared c.file
      ("Property " ++ Property.title c property ++ " redeclares a property of ancestor "
        ++ ancestor.name)

/-- Whether the ancestors form no cycle, and have no property of the same name. -/
def ancestry (graph : Graph) (c : Graph.Class) (ancestry : Graph.Ancestry) : List Diagnostic :=
  let ancestors := ancestry.chain.map graph.classAt
  if ancestry.isCyclic then
    [(Diagnostic.report .classInheritanceCycle c.file
      ("Class " ++ c.name ++ " has a cyclic parent chain"))
      |>.relatedTo (ancestors.map (·.name))]
  else ancestors.flatMap (redeclared c)

def claims (registry : Registry) (c : Graph.Class) : Registry :=
  let registry := registry.claimClass c.name c.file
  match c.isPersistent, c.trigram with
  | true, some trigram => registry.claimTrigram trigram c.name
  | _, _ => registry

def findings (engine : Sql.Engine) (graph : Graph) (registry : Registry) (id : ClassId) :
    List Diagnostic :=
  let c := graph.classAt id
  let ancestors := graph.ancestors id
  documentation c
    ++ identity registry (graph.namespaceOf id) c
    ++ (if c.isPersistent then persistent engine graph registry c else transient c)
    ++ properties c
    ++ ancestry graph c ancestors
    ++ c.properties.flatMap (Property.check engine graph id ancestors.isCyclic)

/-- Check a class, unless the project wants it skipped. -/
def check (options : Options) (graph : Graph) (registry : Registry) (id : ClassId) :
    List Diagnostic × Registry :=
  let c := graph.classAt id
  if options.allowlist.skips c.name then ([], registry)
  else (findings options.engine graph registry id, claims registry c)

end ModelSchema.Check.Class
