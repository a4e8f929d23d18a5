import ModelSchema.Outline
import ModelSchema.Text.Ascii
import ModelSchema.Xml.Node

/-!
# Outlines from element trees

An adapter knows where a format keeps each kind of declaration and how its fields are spelled. The
walk over a document is the same for all formats.
-/

namespace ModelSchema.Interchange

open Outline (DomainRef Shortcut Generalization Association End)
open Xml (Node)

/-- Why a document has no outline. -/
inductive Failure where
  /-- There is no model in it. -/
  | noModel
  /-- A declaration lacks a field that it must have. -/
  | missingField (element field : String)
deriving DecidableEq, Repr

/-- A value that a declaration must have. -/
def require {α : Type} (element field : String) : Option α → Except Failure α
  | some value => .ok value
  | none => .error (.missingField element field)

/-! ## Field values -/

def isFlag : Option String → Bool
  | some value => ["1", "true", "yes"].contains (Text.lower (Text.trim value))
  | none => false

/-- The number of a field, if it is one of 32 bits. -/
def number? (field : Option String) : Option Nat := do
  let digits :=
    match (Text.trim (← field)).toList with
    | '+' :: rest => rest
    | cs => cs
  let value := digits.foldl (fun value c => 10 * value + (c.toNat - '0'.toNat)) 0
  if !digits.isEmpty && digits.all Char.isDigit && value < Nat.pow 2 32 then some value else none

/-! ## Adapters -/

/-- Where a format keeps the declarations, and how each is read. -/
structure Adapter where
  /-- The model of a document. -/
  model? : Node → Option Node
  /-- The name and label of the model. -/
  header : Node → Except Failure (String × Option String)
  domainNodes : Node → List Node
  domain : Node → Except Failure (Outline.Domain ⊕ Shortcut)
  /-- Elements outside of all namespaces that may be shortcuts to classes. -/
  shortcutNodes : Node → List Node
  namespaceNodes : Node → List Node
  /-- A namespace without its classes. -/
  namespaceHeader : Node → Except Failure Outline.Namespace
  classNodes : Node → List Node
  /-- A class without its properties. -/
  classHeader : Node → Except Failure (Outline.Class ⊕ Shortcut)
  propertyNodes : Node → List Node
  property : Node → Except Failure Outline.Property
  generalizationNodes : Node → List Node
  generalization : Node → Except Failure Generalization
  associationNodes : Node → List Node
  association : Node → Except Failure Association

namespace Adapter

variable (adapter : Adapter)

/-- The left and right values of a list, each in order. -/
def partition {α β : Type} (entries : List (α ⊕ β)) : List α × List β :=
  (entries.filterMap Sum.getLeft?, entries.filterMap Sum.getRight?)

/-- A class with its properties, or a shortcut. -/
def classEntry (node : Node) : Except Failure (Outline.Class ⊕ Shortcut) := do
  match ← adapter.classHeader node with
  | .inl declared =>
    return .inl { declared with properties := ← (adapter.propertyNodes node).mapM adapter.property }
  | .inr shortcut => return .inr shortcut

/-- A namespace with its classes, and the shortcuts found among them. -/
def namespaceEntry (node : Node) : Except Failure (Outline.Namespace × List Shortcut) := do
  let header ← adapter.namespaceHeader node
  let (classes, shortcuts) := partition (← (adapter.classNodes node).mapM adapter.classEntry)
  return ({ header with classes }, shortcuts)

def extract (document : Node) : Except Failure Outline := do
  match adapter.model? document with
  | none => throw .noModel
  | some model =>
    let (name, label) ← adapter.header model
    let (domains, domainShortcuts) :=
      partition (← (adapter.domainNodes model).mapM adapter.domain)
    let outer := (← (adapter.shortcutNodes model).mapM adapter.classHeader).filterMap Sum.getRight?
    let entries ← (adapter.namespaceNodes model).mapM adapter.namespaceEntry
    let generalizations ← (adapter.generalizationNodes model).mapM adapter.generalization
    let associations ← (adapter.associationNodes model).mapM adapter.association
    return {
      name, label, domains, domainShortcuts, generalizations, associations
      namespaces := entries.map (·.1)
      classShortcuts := outer ++ entries.flatMap (·.2) }

end Adapter

end ModelSchema.Interchange
