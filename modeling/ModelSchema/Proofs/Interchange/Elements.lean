import ModelSchema.Proofs.Interchange.FieldTexts

/-!
# Elements made of fields

An element that declares something has attributes and fields, some of which may be missing; `build`
makes it from what it has under each name. What is read from such an element is what was put under
the name (`attribute?_build`, `child?_build`), and the declarations inside it are those in its
fields (`declared_build`).
-/

namespace ModelSchema.Interchange

open Xml (Node)

/-! ## Named parts

Readers look for parts by name and take the first one. In terms of what an element was built from,
that is `held`. -/

/-- The first part with a name that is there. One that is missing does not hide a later one. -/
def held {α : Type} (name : String) : List (String × Option α) → Option α
  | [] => none
  | (own, value) :: rest => if own = name then value.or (held name rest) else held name rest

/-- An element with the attributes and fields that are there. -/
def build (name : String) (attributes : List (String × Option String))
    (fields : List (String × Option (List Node))) : Node :=
  .element name
    (attributes.filterMap fun (own, value) => value.map fun value => ⟨own, value, false⟩)
    (fields.filterMap fun (own, content) => content.map (.element own []))

variable {name : String} {attributes : List (String × Option String)}
  {fields : List (String × Option (List Node))}

@[simp] theorem hasName_build (own : String) :
    (build name attributes fields).hasName own = (name == own) := rfl

/-- Attributes are looked up by name; so are fields (`child?_build`). -/
theorem attribute?_build (own : String) :
    (build name attributes fields).attribute? own = held own attributes := by
  simp only [build, Node.attribute?]
  induction attributes with
  | nil => rfl
  | cons entry rest ih =>
      obtain ⟨first, value⟩ := entry
      rw [held]
      cases value with
      | none => simpa using ih
      | some value =>
          by_cases h : first = own
          · simp [h]
          · simpa [h] using ih

theorem attributeText?_build (own : String) :
    (build name attributes fields).attributeText? own =
      (held own attributes).bind Text.trimmed? := by
  rw [Node.attributeText?, attribute?_build]

theorem child?_build (own : String) :
    (build name attributes fields).child? own = (held own fields).map (.element own []) := by
  simp only [build, Node.child?, Node.children]
  induction fields with
  | nil => rfl
  | cons entry rest ih =>
      obtain ⟨first, content⟩ := entry
      rw [held]
      cases content with
      | none => simpa using ih
      | some content =>
          by_cases h : first = own
          · simp [h, Node.hasName]
          · simpa [h, Node.hasName] using ih

def startText? : List Node → Option String
  | .text content :: _ => some content
  | _ => none

/-- The trimmed text of a field, if it is there and not blank. -/
def fieldText? (field : Option (List Node)) : Option String :=
  field.bind fun content => (startText? content).bind Text.trimmed?

/-- The text of a field is what its content starts with, trimmed. -/
theorem childText?_build (own : String) :
    (build name attributes fields).childText? own = fieldText? (held own fields) := by
  rw [Node.childText?, child?_build, Option.bind_map]
  rfl

/-- Elements in a field are filtered by name, and a missing field has none. -/
theorem nested_build (own inner : String) :
    (build name attributes fields).nested own inner =
      ((held own fields).getD []).filter (Node.hasName inner) := by
  rw [Node.nested, child?_build]
  cases held own fields <;> rfl

/-! ## Kinds of fields

Texts, flags and numbers. Whatever the kind, reading a field gives back what it was made from. -/

def textual (value : Option String) : Option (List Node) :=
  value.map fun s => [.text s]

/-- A field that says yes, or is missing. -/
def flagged (b : Bool) : Option (List Node) :=
  textual (if b then some "1" else none)

def numeric (value : Option Nat) : Option (List Node) :=
  textual (value.map toString)

/-- A tidy text is read back; a missing one is missing. -/
theorem fieldText?_textual {value : Option String} (h : Text.TidyField value) :
    fieldText? (textual value) = value := by
  cases value with
  | none => rfl
  | some s => exact Text.trimmed?_of_tidy h

theorem isFlag_flagged (b : Bool) : isFlag (fieldText? (flagged b)) = b := by
  cases b <;> decide

/-- Numbers go through their digits. -/
theorem number?_numeric {value : Option Nat} (h : ∀ n ∈ value, n < 2 ^ 32) :
    number? (fieldText? (numeric value)) = value := by
  cases value with
  | none => rfl
  | some n =>
      rw [numeric, Option.map_some, fieldText?_textual (tidy_toString n).field,
        number?_toString (h n rfl)]

/-! ## Declarations inside -/

/-- The elements with a name and a marking attribute among a node and all nodes inside it. The
marker tells declarations from references, which have the same names. -/
def declared (marker name : String) (node : Node) : List Node :=
  node.descendants.filter fun node => node.hasName name && (node.attribute? marker).isSome

/-- The list half of the recursion, as a map. -/
theorem descendantsOf_eq (nodes : List Node) :
    Node.descendantsOf nodes = nodes.flatMap Node.descendants := by
  induction nodes with
  | nil => rw [Node.descendantsOf, List.flatMap_nil]
  | cons node rest ih => rw [Node.descendantsOf, ih, List.flatMap_cons]

/-- A node that is looked for is found at once. -/
theorem find?_descendants {p : Node → Bool} {node : Node} (h : p node = true) :
    node.descendants.find? p = some node := by
  cases node <;> simp [Node.descendants, h]

/-- An element around another one is passed over if it is not looked for. -/
theorem find?_around {p : Node → Bool} {own : String} {attributes : List Xml.Attribute}
    {node : Node} (h : p (.element own attributes [node]) = false) :
    (Node.element own attributes [node]).descendants.find? p = node.descendants.find? p := by
  simp [Node.descendants, descendantsOf_eq, h]

@[simp] theorem declared_text (marker name s : String) : declared marker name (.text s) = [] := by
  simp [declared, Node.descendants, Node.hasName]

/-- A declaration is found at an element itself and in what it holds. -/
theorem declared_element (marker name own : String) (attributes : List Xml.Attribute)
    (children : List Node) :
    declared marker name (.element own attributes children) =
      (if own = name ∧ ((Node.element own attributes children).attribute? marker).isSome then
          [.element own attributes children]
        else []) ++ children.flatMap (declared marker name) := by
  have hself : ((Node.element own attributes children).hasName name &&
      ((Node.element own attributes children).attribute? marker).isSome) = true ↔
        own = name ∧ ((Node.element own attributes children).attribute? marker).isSome := by
    rw [Bool.and_eq_true, Node.hasName, beq_iff_eq]
  rw [declared, Node.descendants, descendantsOf_eq, List.filter_cons, List.filter_flatMap]
  simp only [hself]
  split <;> rfl

/-- The declarations inside an element are found in its fields. -/
theorem declared_build (marker own : String) :
    declared marker own (build name attributes fields) =
      (if name = own ∧ (held marker attributes).isSome then [build name attributes fields]
        else []) ++
        fields.flatMap fun field => (field.2.getD []).flatMap (declared marker own) := by
  have hfields :
      (fields.filterMap fun (first, content) => content.map (Node.element first [])).flatMap
        (declared marker own) =
        fields.flatMap fun field => (field.2.getD []).flatMap (declared marker own) := by
    induction fields with
    | nil => rfl
    | cons field rest ih =>
        obtain ⟨first, content⟩ := field
        cases content with
        | none => simpa using ih
        -- The element around the content has no attributes, so it declares nothing itself.
        | some content => simp [declared_element, Node.attribute?, ih]
  rw [← attribute?_build, build, declared_element, hfields]

/-- Texts hold no elements. -/
@[simp] theorem declared_textual (marker own : String) (value : Option String) :
    ((textual value).getD []).flatMap (declared marker own) = [] := by
  cases value <;> simp [textual]

/-- Elements of one kind with no declarations of a kind in question inside. -/
theorem declared_map {α : Type} {marker own kind : String} {write : α → Node}
    (h : ∀ part, declared marker own (write part) = if kind = own then [write part] else [])
    (parts : List α) :
    (parts.map write).flatMap (declared marker own) =
      if kind = own then parts.map write else [] := by
  induction parts with
  | nil => simp
  | cons part rest ih =>
      rw [List.map_cons, List.flatMap_cons, h, ih]
      split <;> rfl

end ModelSchema.Interchange
