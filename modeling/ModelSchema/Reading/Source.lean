import ModelSchema.Graph.Basic
import ModelSchema.Interchange.Format
import ModelSchema.Interchange.ObjectModel
import ModelSchema.Interchange.Xmi
import ModelSchema.Xml.Document

/-!
# Model documents

A document with its path and format, and the outline that it holds.
-/

namespace ModelSchema.Reading

/-- Why models cannot be read. -/
inductive Error where
  /-- The file cannot be read. -/
  | unreadable (path reason : String)
  /-- The document is not well-formed XML. -/
  | invalidXml (path : String)
  /-- There is no model in the document. -/
  | missingModel (path : String)
  /-- A declaration lacks a field that it must have. -/
  | missingField (path element field : String)
  /-- Neither the project nor the extension tells the format. -/
  | unsupportedFormat (path : String)
  /-- A generalization links a class that does not exist. -/
  | danglingGeneralization (file id parent child : String)
  /-- An association links a class that does not exist. -/
  | danglingAssociation (file label a b : String)
deriving DecidableEq, Repr

def Error.message : Error → String
  | unreadable path reason => "Failed to read model file " ++ path ++ ": " ++ reason
  | invalidXml path => "Invalid XML in " ++ path ++ ": the document is not well formed"
  | missingModel path => "No model element found in " ++ path
  | missingField path element field => "Missing " ++ field ++ " on " ++ element ++ " in " ++ path
  | unsupportedFormat path =>
    "Unsupported model format: " ++ path ++ " (expected .oom or .xmi)"
  | danglingGeneralization file id parent child =>
    "Generalization " ++ id ++ " in " ++ file ++ " links unknown classes (parent " ++ parent
      ++ ", child " ++ child ++ ")"
  | danglingAssociation file label a b =>
    "Association " ++ label ++ " in " ++ file ++ " links unknown classes (" ++ a ++ ", " ++ b ++ ")"

/-- A document to read. -/
structure Source where
  path : String
  format : Interchange.Format
  content : String
deriving DecidableEq, Repr

def adapterOf : Interchange.Format → Interchange.Adapter
  | .objectModel => Interchange.ObjectModel.adapter
  | .xmi => Interchange.Xmi.adapter

namespace Source

def outline (source : Source) : Except Error Outline :=
  match Xml.parse? source.content with
  | none => .error (.invalidXml source.path)
  | some document =>
    match (adapterOf source.format).extract document with
    | .ok outline => .ok outline
    | .error .noModel => .error (.missingModel source.path)
    | .error (.missingField element field) => .error (.missingField source.path element field)

end Source

/-- A domain as declared in a file. -/
def domainOf (file : String) (domain : Outline.Domain) : Graph.Domain where
  code := domain.code
  label := domain.label
  dataType := domain.dataType
  persistentType := domain.persistentType
  length := domain.length
  precision := domain.precision
  file := file

/-- The domains that a document shares with all others. -/
def sharedDomains (source : Source) : Except Error (List Graph.Domain) :=
  source.outline.map fun outline => outline.domains.map (domainOf source.path)

end ModelSchema.Reading
