import ModelSchema.Text.Blank

/-!
# Element trees

A document is a tree of elements and texts; comments and instructions are kept only as the
boundaries they set between texts. Elements are known by their local name. Attributes count only if
they are in no namespace.
-/

namespace ModelSchema.Xml

structure Attribute where
  name : String
  value : String
  isQualified : Bool
deriving DecidableEq, Repr, Inhabited

/-- A part of a document. -/
inductive Node where
  | element (name : String) (attributes : List Attribute) (children : List Node)
  | text (content : String)
  /-- A comment or an instruction. -/
  | aside
deriving Inhabited

namespace Node

def hasName (name : String) : Node → Bool
  | element own _ _ => own == name
  | _ => false

def isElement : Node → Bool
  | element .. => true
  | _ => false

/-- The nodes directly inside an element. -/
def children : Node → List Node
  | element _ _ children => children
  | _ => []

/-- The value of an attribute without namespace. -/
def attribute? (name : String) : Node → Option String
  | element _ attributes _ =>
    (attributes.find? fun own => !own.isQualified && own.name == name).map (·.value)
  | _ => none

mutual

/-- A node and all nodes inside it, in document order. -/
def descendants : Node → List Node
  | element name attributes children =>
    element name attributes children :: descendantsOf children
  | node => [node]

def descendantsOf : List Node → List Node
  | [] => []
  | node :: rest => descendants node ++ descendantsOf rest

end

def child? (node : Node) (name : String) : Option Node :=
  node.children.find? (hasName name)

def childrenNamed (node : Node) (name : String) : List Node :=
  node.children.filter (hasName name)

/-- The elements with a name inside the first child element named `container`. -/
def nested (node : Node) (container name : String) : List Node :=
  match node.child? container with
  | some container => container.childrenNamed name
  | none => []

/-- The text an element starts with. -/
def text? (node : Node) : Option String :=
  match node.children with
  | text content :: _ => some content
  | _ => none

/-- The trimmed text of a child element, if it is not blank. -/
def childText? (node : Node) (name : String) : Option String :=
  (node.child? name).bind fun child => child.text?.bind Text.trimmed?

/-- The trimmed value of an attribute, if it is not blank. -/
def attributeText? (node : Node) (name : String) : Option String :=
  (node.attribute? name).bind Text.trimmed?

end Node

end ModelSchema.Xml
