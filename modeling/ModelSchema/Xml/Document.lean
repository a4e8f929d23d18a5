import ModelSchema.Text.Ascii
import ModelSchema.Xml.CharacterData
import ModelSchema.Xml.Node
import ModelSchema.Xml.Token

/-!
# Documents

Tokens become a tree: every start tag is closed by an end tag of the same name, there is one
outermost element, qualifiers are declared, and no element has an attribute twice.
-/

namespace ModelSchema.Xml

/-! ## Namespaces -/

/-- Namespace names by qualifier, innermost declaration first. -/
abbrev Scope := List (String × String)

/-- The namespace of the qualifier `xml`, which needs no declaration. -/
def xmlNamespace : String :=
  Text.join "/" ["http:", "", "www.w3.org", "XML", "1998", "namespace"]

/-- The namespace of the qualifier `xmlns`, which may not be declared. -/
def xmlnsNamespace : String :=
  Text.join "/" ["http:", "", "www.w3.org", "2000", "xmlns", ""]

/-- What a start tag declares and carries. -/
structure Contents where
  declared : Scope
  attributes : List (QName × String)

/-- Take an attribute as a declaration or as one the element carries. -/
def Contents.add? (contents : Contents) (name : QName) (value : String) : Option Contents :=
  if name.qualifier = "xmlns" then
    if value = xmlnsNamespace then none
    else if (name.name = "xml") ≠ (value = xmlNamespace) then none
    else if contents.declared.any (·.1 == name.name) then none
    else if value = xmlNamespace then some contents
    else some { contents with declared := (name.name, value) :: contents.declared }
  else if name.name = "xmlns" then
    if value = xmlNamespace ∨ value = xmlnsNamespace then none else some contents
  else some { contents with attributes := contents.attributes ++ [(name, value)] }

def contentsOf? (attributes : List (QName × List Char)) : Option Contents :=
  attributes.foldlM
    (fun contents entry => do
      contents.add? entry.1 (String.ofList (← decodeValue? entry.2)))
    ⟨[], []⟩

/-- The namespace of an attribute: none without qualifier. -/
def namespaceOf? (scope : Scope) (qualifier : String) : Option (Option String) :=
  if qualifier = "" then some none
  else if qualifier = "xml" then some (some xmlNamespace)
  else (scope.lookup qualifier).map some

/-- The attributes of an element, which must differ in namespace or name. -/
def resolve? (scope : Scope) (attributes : List (QName × String)) : Option (List Attribute) := do
  let names ← attributes.mapM fun entry =>
    (namespaceOf? scope entry.1.qualifier).map fun space => (space, entry.1.name)
  if names.Nodup then
    some (attributes.map fun entry => ⟨entry.1.name, entry.2, entry.1.qualifier != ""⟩)
  else none

/-! ## Trees -/

/-- An element that has not been closed; its children so far are kept last first. -/
structure OpenElement where
  name : QName
  attributes : List Attribute
  scope : Scope
  children : List Node

namespace OpenElement

/-- Open the element of a start tag inside a scope. -/
def open? (scope : Scope) (tag : Tag) : Option OpenElement := do
  let contents ← contentsOf? tag.attributes
  let scope := contents.declared ++ scope
  let qualifier := tag.name.qualifier
  if qualifier = "xmlns" ∨ (qualifier ≠ "" ∧ (scope.lookup qualifier).isNone) then none
  else some ⟨tag.name, ← resolve? scope contents.attributes, scope, []⟩

def push (element : OpenElement) (node : Node) : OpenElement :=
  { element with children := node :: element.children }

/-- Add characters, to the text just before if there is one. -/
def pushText (element : OpenElement) (cs : List Char) : OpenElement :=
  match element.children with
  | .text content :: older =>
    { element with children := .text (content ++ String.ofList cs) :: older }
  | children => { element with children := .text (String.ofList cs) :: children }

def close (element : OpenElement) : Node :=
  .element element.name.name element.attributes element.children.reverse

end OpenElement

/-- A document read in part: the open elements, innermost first, and the outermost element once it
is closed. -/
structure Progress where
  elements : List OpenElement
  root : Option Node

namespace Progress

def start : Progress := ⟨[], none⟩

def scope (progress : Progress) : Scope :=
  match progress.elements with
  | element :: _ => element.scope
  | [] => []

/-- Open an element; only one may be outermost. -/
def open? (progress : Progress) (tag : Tag) : Option Progress := do
  if progress.root.isSome then none
  else
    some { progress with
      elements := (← OpenElement.open? progress.scope tag) :: progress.elements }

def close? (progress : Progress) : Option Progress :=
  match progress.elements with
  | [] => none
  | [element] => some ⟨[], some element.close⟩
  | element :: outer :: rest => some ⟨outer.push element.close :: rest, progress.root⟩

/-- Add a token. Outside of all elements only white space and asides may stand. -/
def step? (progress : Progress) (token : Token) : Option Progress :=
  match token, progress.elements with
  | .opening tag, _ => progress.open? tag
  | .empty tag, _ => (progress.open? tag).bind close?
  | .closing name, element :: _ => if name = element.name then progress.close? else none
  | .closing _, [] => none
  | .text raw, [] => if raw.all isSpace then some progress else none
  | .text raw, element :: rest =>
    (decodeText? raw).map fun cs => { progress with elements := element.pushText cs :: rest }
  | .characters _, [] => none
  | .characters raw, element :: rest =>
    some { progress with elements := element.pushText (sectionText raw) :: rest }
  | .aside, [] => some progress
  | .aside, element :: rest => some { progress with elements := element.push .aside :: rest }

/-- The outermost element, once all are closed. -/
def finish? (progress : Progress) : Option Node :=
  if progress.elements.isEmpty then progress.root else none

end Progress

/-- The outermost element of a document text. -/
def parse? (s : String) : Option Node := do
  let tokens ← tokenize? s.toList
  (← tokens.foldlM Progress.step? .start).finish?

end ModelSchema.Xml
