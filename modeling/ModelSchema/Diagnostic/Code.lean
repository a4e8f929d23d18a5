/-!
# Diagnostic codes

Every violation that reading, checking or generating can find has a code with a stable name, and a
category that says how severe it is unless a project decides otherwise.
-/

namespace ModelSchema

/-- How severe a violation is, in increasing order. -/
inductive Category where
  /-- Documentation is missing. -/
  | doc
  /-- A naming convention is not followed. -/
  | codeStyle
  /-- The model is inconsistent. -/
  | bug
  /-- What would be generated has no meaning. -/
  | fatal
deriving DecidableEq, Repr, Inhabited

namespace Category

def key : Category → String
  | doc => "doc"
  | codeStyle => "code_style"
  | bug => "bug"
  | fatal => "fatal"

def ofKey? (key : String) : Option Category :=
  [doc, codeStyle, bug, fatal].find? (·.key == key)

/-- Whether generated scripts should not be used. -/
def isBlocking : Category → Bool
  | doc | codeStyle => false
  | bug | fatal => true

end Category

inductive Code where
  /-- The multiplicity of an association end is none of the four. -/
  | readInvalidMultiplicity
  /-- A many-to-many association between two tables. -/
  | readUnimplementableAssociation
  /-- A persistent class would refer to one that is not. -/
  | readPersistentToTransient
  /-- The code of an association is not the one generated from its name. -/
  | readAssociationCodeMismatch
  /-- A domain code is declared more than once. -/
  | readDuplicateDomain
  /-- The target of a foreign key has no primary key. -/
  | readTargetWithoutPrimaryKey
  /-- A stereotype that is unknown. -/
  | readUnknownStereotype
  /-- A name is not in Pascal case. -/
  | nameCasing
  /-- A comment is missing. -/
  | missingComment
  /-- A label is missing. -/
  | missingLabel
  /-- A namespace ends with no known suffix. -/
  | namespaceSuffix
  /-- A namespace is declared twice. -/
  | namespaceDuplicate
  /-- A class and its namespace disagree on persistence. -/
  | namespacePersistenceMismatch
  /-- A class is declared twice. -/
  | classDuplicate
  /-- A persistent class has no trigram. -/
  | classMissingTrigram
  /-- A trigram is not three upper-case letters. -/
  | classInvalidTrigram
  /-- Two persistent classes share a trigram. -/
  | classDuplicateTrigram
  /-- A persistent class has no primary key. -/
  | classMissingPrimaryKey
  /-- A persistent class has a parent. -/
  | classPersistentWithParent
  /-- The parents of a class form a cycle. -/
  | classInheritanceCycle
  /-- A list class is not persistent. -/
  | classStereotypeNotPersistent
  /-- A history, audit or export flag on a class that is not persistent. -/
  | classFlagWithoutPersistence
  /-- A table name has the wrong shape for the engine. -/
  | classTableCasing
  /-- Two properties of a class share a name. -/
  | classDuplicateProperty
  /-- A composite unique key of one property. -/
  | classCompositeUniqueTooSmall
  /-- More than one property gives the default order. -/
  | classMultipleOrderProperties
  /-- A property has the name of one of an ancestor. -/
  | propertyRedeclared
  /-- A primitive property has no known domain. -/
  | propertyMissingDomain
  /-- A property and its domain disagree on the type. -/
  | propertyDomainMismatch
  /-- A persistent property in a class that is not. -/
  | propertyPersistenceMismatch
  /-- A primary key property that is not persistent or not required. -/
  | propertyInvalidPrimaryKey
  /-- A column name has the wrong shape for the engine. -/
  | propertyColumnCasing
  /-- A column name does not start with the trigram. -/
  | propertyColumnPrefix
  /-- A reference to the class itself has no role. -/
  | propertySelfReferenceRole
  /-- A class is composed of one instance of itself. -/
  | propertySelfComposition
  /-- A reference that an ancestor holds too. -/
  | propertyInheritedReference
  /-- A domain code without `DO_`. -/
  | domainCodeCasing
  /-- A domain without data type. -/
  | domainMissingDataType
  /-- A domain without persistent type. -/
  | domainMissingPersistentType
  /-- A domain with precision and without length. -/
  | domainPrecisionWithoutLength
  /-- Seed data for an unknown class. -/
  | initUnknownClass
  /-- Seed data of the wrong kind. -/
  | initStereotypeMismatch
  /-- A seed item misses a value. -/
  | initMissingValue
  /-- A seed item has a value for an unknown property. -/
  | initUnknownProperty
  /-- A static list refers to itself. -/
  | initStaticCycle
  /-- An identifier is too long for the engine. -/
  | identifierTooLong
deriving DecidableEq, Repr, Inhabited

namespace Code

/-- The stable name of a code. -/
def name : Code → String
  | readInvalidMultiplicity => "READ_INVALID_MULTIPLICITY"
  | readUnimplementableAssociation => "READ_UNIMPLEMENTABLE_ASSOCIATION"
  | readPersistentToTransient => "READ_PERSISTENT_TO_TRANSIENT"
  | readAssociationCodeMismatch => "READ_ASSOCIATION_CODE_MISMATCH"
  | readDuplicateDomain => "READ_DUPLICATE_DOMAIN"
  | readTargetWithoutPrimaryKey => "READ_TARGET_WITHOUT_PRIMARY_KEY"
  | readUnknownStereotype => "READ_UNKNOWN_STEREOTYPE"
  | nameCasing => "NAME_CASING"
  | missingComment => "MISSING_COMMENT"
  | missingLabel => "MISSING_LABEL"
  | namespaceSuffix => "NAMESPACE_SUFFIX"
  | namespaceDuplicate => "NAMESPACE_DUPLICATE"
  | namespacePersistenceMismatch => "NAMESPACE_PERSISTENCE_MISMATCH"
  | classDuplicate => "CLASS_DUPLICATE"
  | classMissingTrigram => "CLASS_MISSING_TRIGRAM"
  | classInvalidTrigram => "CLASS_INVALID_TRIGRAM"
  | classDuplicateTrigram => "CLASS_DUPLICATE_TRIGRAM"
  | classMissingPrimaryKey => "CLASS_MISSING_PRIMARY_KEY"
  | classPersistentWithParent => "CLASS_PERSISTENT_WITH_PARENT"
  | classInheritanceCycle => "CLASS_INHERITANCE_CYCLE"
  | classStereotypeNotPersistent => "CLASS_STEREOTYPE_NOT_PERSISTENT"
  | classFlagWithoutPersistence => "CLASS_FLAG_WITHOUT_PERSISTENCE"
  | classTableCasing => "CLASS_TABLE_CASING"
  | classDuplicateProperty => "CLASS_DUPLICATE_PROPERTY"
  | classCompositeUniqueTooSmall => "CLASS_COMPOSITE_UNIQUE_TOO_SMALL"
  | classMultipleOrderProperties => "CLASS_MULTIPLE_ORDER_PROPERTIES"
  | propertyRedeclared => "PROPERTY_REDECLARED"
  | propertyMissingDomain => "PROPERTY_MISSING_DOMAIN"
  | propertyDomainMismatch => "PROPERTY_DOMAIN_MISMATCH"
  | propertyPersistenceMismatch => "PROPERTY_PERSISTENCE_MISMATCH"
  | propertyInvalidPrimaryKey => "PROPERTY_INVALID_PRIMARY_KEY"
  | propertyColumnCasing => "PROPERTY_COLUMN_CASING"
  | propertyColumnPrefix => "PROPERTY_COLUMN_PREFIX"
  | propertySelfReferenceRole => "PROPERTY_SELF_REFERENCE_ROLE"
  | propertySelfComposition => "PROPERTY_SELF_COMPOSITION"
  | propertyInheritedReference => "PROPERTY_INHERITED_REFERENCE"
  | domainCodeCasing => "DOMAIN_CODE_CASING"
  | domainMissingDataType => "DOMAIN_MISSING_DATA_TYPE"
  | domainMissingPersistentType => "DOMAIN_MISSING_PERSISTENT_TYPE"
  | domainPrecisionWithoutLength => "DOMAIN_PRECISION_WITHOUT_LENGTH"
  | initUnknownClass => "INIT_UNKNOWN_CLASS"
  | initStereotypeMismatch => "INIT_STEREOTYPE_MISMATCH"
  | initMissingValue => "INIT_MISSING_VALUE"
  | initUnknownProperty => "INIT_UNKNOWN_PROPERTY"
  | initStaticCycle => "INIT_STATIC_CYCLE"
  | identifierTooLong => "IDENTIFIER_TOO_LONG"

/-- Every code, in the order of the stages that report it. -/
def all : List Code :=
  [readInvalidMultiplicity, readUnimplementableAssociation, readPersistentToTransient,
    readAssociationCodeMismatch, readDuplicateDomain, readTargetWithoutPrimaryKey,
    readUnknownStereotype, nameCasing, missingComment, missingLabel, namespaceSuffix,
    namespaceDuplicate, namespacePersistenceMismatch, classDuplicate, classMissingTrigram,
    classInvalidTrigram, classDuplicateTrigram, classMissingPrimaryKey, classPersistentWithParent,
    classInheritanceCycle, classStereotypeNotPersistent, classFlagWithoutPersistence,
    classTableCasing, classDuplicateProperty, classCompositeUniqueTooSmall,
    classMultipleOrderProperties, propertyRedeclared, propertyMissingDomain,
    propertyDomainMismatch, propertyPersistenceMismatch, propertyInvalidPrimaryKey,
    propertyColumnCasing, propertyColumnPrefix, propertySelfReferenceRole,
    propertySelfComposition, propertyInheritedReference, domainCodeCasing, domainMissingDataType,
    domainMissingPersistentType, domainPrecisionWithoutLength, initUnknownClass,
    initStereotypeMismatch, initMissingValue, initUnknownProperty, initStaticCycle,
    identifierTooLong]

def ofName? (name : String) : Option Code :=
  all.find? (·.name == name)

/-- The category of a code unless a project overrides it. -/
def category : Code → Category
  | missingComment | missingLabel => .doc
  | readAssociationCodeMismatch | nameCasing | namespaceSuffix | classInvalidTrigram
  | classTableCasing | classMultipleOrderProperties | propertyColumnCasing | propertyColumnPrefix
  | domainCodeCasing => .codeStyle
  | classInheritanceCycle | propertySelfComposition => .fatal
  | _ => .bug

theorem mem_all (code : Code) : code ∈ all := by
  cases code <;> decide

end Code

end ModelSchema
