/-!
# Outlines of model documents

What one model document declares, before any name in it is resolved: every reference is still an
identifier of the document or a code.
-/

namespace ModelSchema

/-- One of the two ends of an association. -/
inductive Side where
  | a
  | b
deriving DecidableEq, Repr, Inhabited

def Side.other : Side → Side
  | a => b
  | b => a

namespace Outline

/-- How a property names its domain. -/
inductive DomainRef where
  /-- The identifier of a domain or shortcut of the same document. -/
  | id (id : String)
  /-- The code of a domain, wherever it is declared. -/
  | code (code : String)
deriving DecidableEq, Repr

/-- A domain: a named type that properties share. -/
structure Domain where
  id : String
  code : String
  label : Option String
  dataType : Option String
  persistentType : Option String
  length : Option Nat
  precision : Option Nat
deriving DecidableEq, Repr

/-- A stand-in for a domain or class that another document declares. -/
structure Shortcut where
  id : String
  code : String
deriving DecidableEq, Repr

structure Property where
  id : String
  code : String
  comment : Option String
  dataType : Option String
  isPersistent : Bool
  multiplicity : Option String
  domain : Option DomainRef
  isPrimaryKey : Bool
  isUnique : Bool
  isUniqueMany : Bool
  isOrdered : Bool
  persistentCode : Option String
  persistentType : Option String
deriving DecidableEq, Repr

structure Class where
  id : String
  code : String
  label : Option String
  comment : Option String
  stereotype : Option String
  isPersistent : Bool
  persistentCode : Option String
  trigram : Option String
  storage : Option String
  isHistorized : Bool
  isAudited : Bool
  isExportDelta : Bool
  properties : List Property
deriving DecidableEq, Repr

structure Namespace where
  id : String
  code : String
  label : Option String
  comment : Option String
  creator : Option String
  classes : List Class
deriving DecidableEq, Repr

/-- A class extends another one. -/
structure Generalization where
  id : String
  parent : String
  child : String
deriving DecidableEq, Repr

/-- One end of an association: its class, how many instances of it are linked to one instance of the
other end, and the role they play there. -/
structure End where
  classId : String
  multiplicity : String
  role : Option String
deriving DecidableEq, Repr

/-- A link between two classes; in a composition one end owns the other. -/
structure Association where
  id : String
  code : Option String
  name : Option String
  a : End
  b : End
  owner : Option Side
deriving DecidableEq, Repr

end Outline

/-- All that one model document declares. -/
structure Outline where
  name : String
  label : Option String
  domains : List Outline.Domain
  domainShortcuts : List Outline.Shortcut
  namespaces : List Outline.Namespace
  classShortcuts : List Outline.Shortcut
  generalizations : List Outline.Generalization
  associations : List Outline.Association
deriving DecidableEq, Repr

end ModelSchema
