import ModelSchema.Sql.Engine

/-!
# Naming rules

The shapes that names of models, namespaces, classes, domains, tables and columns must have. All of
them are about ASCII letters, digits and underscores, and each describes the whole name.
-/

namespace ModelSchema.Naming

/-- An upper-case letter, then letters and digits. -/
def isPascalWord : List Char → Bool
  | [] => false
  | c :: rest => c.isUpper && rest.all Char.isAlphanum

/-- The parts of a text between dots. -/
def splitDots : List Char → List (List Char)
  | [] => [[]]
  | '.' :: rest => [] :: splitDots rest
  | c :: rest =>
    match splitDots rest with
    | [] => [[c]]
    | part :: parts => (c :: part) :: parts

/-- `ProductLine` -/
def isPascal (name : String) : Bool :=
  isPascalWord name.toList

/-- `Shop.Sales.SalesDataContract` -/
def isDottedPascal (name : String) : Bool :=
  (splitDots name.toList).all isPascalWord

/-- `DO_CODE` -/
def isDomainCode (code : String) : Bool :=
  match code.toList with
  | 'D' :: 'O' :: '_' :: rest =>
    !rest.isEmpty && rest.all fun c => c.isUpper || c.isDigit || c == '_'
  | _ => false

/-- `PRD` -/
def isTrigram (trigram : String) : Bool :=
  trigram.toList.length == 3 && trigram.toList.all Char.isUpper

/-- A table or column name. Oracle turns unquoted names into upper case, so only those will do. -/
def isSqlIdentifier (engine : Sql.Engine) (name : String) : Bool :=
  match engine, name.toList with
  | _, [] => false
  | .oracle, c :: rest => c.isUpper && rest.all fun c => c.isUpper || c.isDigit || c == '_'
  | .sqlServer, c :: rest => c.isAlpha && rest.all fun c => c.isAlphanum || c == '_'

end ModelSchema.Naming
