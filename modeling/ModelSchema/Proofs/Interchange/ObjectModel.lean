import ModelSchema.Interchange.ObjectModel
import ModelSchema.Proofs.Interchange.Walk

/-!
# Object models written and read

The export of an outline as an object model: each declaration is an element with an `Id` attribute,
its fields are child elements, and references to other declarations carry a `Ref` attribute. All
kinds of declarations are read back from their elements (`domain_domainNode` and the others), and
each is found in the model (`declared_modelNode`).
-/

namespace ModelSchema.Interchange.ObjectModel

open Outline (DomainRef Shortcut Generalization Association End)
open Xml (Node)

/-! ## Writing

One element for each kind of declaration. The names of fields are those that the adapter asks for,
so each appears once here and once in `ObjectModel`. -/

/-- An element that declares something. -/
def declaration (name id : String) (fields : List (String × Option (List Node))) : Node :=
  build name [("Id", some id)] fields

/-- A field that refers to a declaration. The element inside has the name of a declaration, but a
`Ref` in place of an `Id`. -/
def linked (name : String) (target : Option String) : Option (List Node) :=
  target.map fun id => [build name [("Ref", some id)] []]

def shortcutNode (shortcut : Shortcut) : Node :=
  declaration "Shortcut" shortcut.id [("Code", textual shortcut.code)]

def domainNode (domain : Outline.Domain) : Node :=
  declaration "Domain" domain.id
    [("Code", textual domain.code),
      ("Name", textual domain.label),
      ("DataType", textual domain.dataType),
      ("PersistentDataType", textual domain.persistentType),
      ("Length", numeric domain.length),
      ("Precision", numeric domain.precision)]

def propertyNode (property : Outline.Property) : Node :=
  declaration "Attribute" property.id
    [("Code", textual property.code),
      ("Comment", textual property.comment),
      ("DataType", textual property.dataType),
      ("Persistent", flagged property.isPersistent),
      ("Multiplicity", textual property.multiplicity),
      ("Domain", linked "Domain" (property.domain.map DomainRef.text)),
      ("PrimaryIdentifier", flagged property.isPrimaryKey),
      ("Unique", flagged property.isUnique),
      ("UniqueMany", flagged property.isUniqueMany),
      ("Ordered", flagged property.isOrdered),
      ("PersistentCode", textual property.persistentCode),
      ("PersistentDataType", textual property.persistentType)]

def classNode (c : Outline.Class) : Node :=
  declaration "Class" c.id
    [("Code", textual c.code),
      ("Name", textual c.label),
      ("Comment", textual c.comment),
      ("Stereotype", textual c.stereotype),
      ("Persistent", flagged c.isPersistent),
      ("PersistentCode", textual c.persistentCode),
      ("Trigram", textual c.trigram),
      ("Storage", textual c.storage),
      ("Historized", flagged c.isHistorized),
      ("Audited", flagged c.isAudited),
      ("ExportDelta", flagged c.isExportDelta),
      ("Attributes", some (c.properties.map propertyNode))]

def namespaceNode (n : Outline.Namespace) : Node :=
  declaration "Package" n.id
    [("Code", textual n.code),
      ("Name", textual n.label),
      ("Comment", textual n.comment),
      ("Creator", textual n.creator),
      ("Classes", some (n.classes.map classNode))]

/-- A generalization: the parent comes first. -/
def generalizationNode (g : Generalization) : Node :=
  declaration "Generalization" g.id
    [("Object1", linked "Class" g.parent), ("Object2", linked "Class" g.child)]

/-- The mark of an end that owns the other one. -/
def indicator (association : Association) (side : Side) : Option String :=
  if association.owner = some side then some "C" else none

/-- An association. A multiplicity that is empty is left out. -/
def associationNode (a : Association) : Node :=
  declaration "Association" a.id
    [("Code", textual a.code),
      ("Name", textual a.name),
      ("RoleAMultiplicity", textual a.a.multiplicity?),
      ("RoleAName", textual a.a.role),
      ("RoleAIndicator", textual (indicator a .a)),
      ("RoleBMultiplicity", textual a.b.multiplicity?),
      ("RoleBName", textual a.b.role),
      ("RoleBIndicator", textual (indicator a .b)),
      ("Object1", linked "Class" a.a.classId),
      ("Object2", linked "Class" a.b.classId)]

def modelNode (outline : Outline) : Node :=
  declaration "Model" "o2"
    [("Code", textual outline.name),
      ("Name", textual outline.label),
      ("Domains",
        some (outline.domains.map domainNode ++ outline.domainShortcuts.map shortcutNode)),
      ("Packages", some (outline.namespaces.map namespaceNode)),
      ("Classes", some (outline.classShortcuts.map shortcutNode)),
      ("Generalizations", some (outline.generalizations.map generalizationNode)),
      ("Associations", some (outline.associations.map associationNode))]

def document (outline : Outline) : Node :=
  .element "Model" []
    [.element "RootObject" [⟨"Id", "o1", false⟩] [.element "Children" [] [modelNode outline]]]

/-! ## Fields

What the readers of fields find in a `declaration`, in terms of `held`. Then reading a kind of
declaration is to compute `held` for each field. -/

variable {name own : String} {fields : List (String × Option (List Node))}

/-- The identifier is an attribute, and required. -/
theorem id_declaration (element : String) {s : String} (h : Text.TidyField s) :
    id (declaration name s fields) element = .ok s := by
  simp [id, declaration, attributeText?_build, held, Text.trimmed?_of_tidy h, require]

/-- The code is a field, and required too. -/
theorem code_declaration {element code : String} (s : String)
    (hcode : held "Code" fields = textual code) (h : Text.TidyField code) :
    ObjectModel.code (declaration name s fields) element = .ok code := by
  simp [ObjectModel.code, declaration, childText?_build, hcode, fieldText?_textual h, require]

theorem childText?_declaration (s : String) :
    (declaration name s fields).childText? own = fieldText? (held own fields) :=
  childText?_build own

/-- A flag is set by the text of its field. -/
theorem flag_declaration (s : String) :
    flag (declaration name s fields) own = isFlag (fieldText? (held own fields)) := by
  rw [flag, childText?_declaration]

/-- `reference?` takes the first `Ref` inside a field, and there is only one. -/
theorem reference?_declaration (s element : String) {target : Option String}
    (hfield : held own fields = linked element target) (h : Text.TidyField target) :
    reference? (declaration name s fields) own = target := by
  rw [reference?, declaration, child?_build, hfield]
  cases target with
  | none => rfl
  | some target =>
      show List.findSome? (·.attributeText? "Ref") [build element [("Ref", some target)] []] = _
      simp [attributeText?_build, held, Text.trimmed?_of_tidy h]

/-- A field with declarations of two kinds, in their order. -/
theorem members_declaration (s first second : String) :
    members (declaration name s fields) own first second =
      ((held own fields).getD []).filter fun node => node.hasName first || node.hasName second := by
  rw [members, declaration, child?_build]
  cases held own fields <;> rfl

/-! ## Declarations

Each kind of declaration is read back from its element. The conditions are those of `Fits`, field by
field. -/

theorem shortcut_shortcutNode {s : Shortcut} (h : s.Fits) : shortcut (shortcutNode s) = .ok s := by
  have hfields := h.fields
  simp only [Shortcut.fields, List.forall_mem_cons] at hfields
  obtain ⟨hid, hcode, -⟩ := hfields
  rw [shortcut, shortcutNode, id_declaration _ hid, ok_bind, code_declaration _ rfl hcode, ok_bind]
  rfl

/-- The name of an element tells shortcuts from domains. -/
theorem domain_shortcutNode {s : Shortcut} (h : s.Fits) :
    domain (shortcutNode s) = .ok (.inr s) := by
  rw [domain, if_pos (by rfl), shortcut_shortcutNode h]
  rfl

theorem domain_domainNode {d : Outline.Domain} (h : d.Fits) :
    domain (domainNode d) = .ok (.inl d) := by
  have hfields := h.fields
  simp only [Outline.Domain.fields, List.forall_mem_cons] at hfields
  obtain ⟨hid, hcode, hothers⟩ := hfields
  rw [domain, if_neg (by simp [domainNode, declaration]), domainNode, id_declaration _ hid, ok_bind,
    code_declaration _ rfl hcode, ok_bind]
  simp only [childText?_declaration, held, String.reduceEq, ↓reduceIte, Option.or_none,
    fieldText?_textual, hothers, number?_numeric h.length,
    number?_numeric h.precision]
  rfl

/-- Identifiers are what an object model names domains by. -/
theorem map_id_text {ref : Option DomainRef} (h : ∀ own ∈ ref, own.IsOf .objectModel) :
    (ref.map DomainRef.text).map .id = ref := by
  cases ref with
  | none => rfl
  | some ref =>
      cases ref with
      | id s => rfl
      | code s => exact (h (.code s) rfl).elim

/-- Multiplicities are put in normal form when they are read, so only those in normal form come back
as they were. -/
theorem map_normalize_declaration (s : String) {multiplicity : Option String}
    (hfield : held own fields = textual multiplicity) (htidy : Text.TidyField multiplicity)
    (h : ∀ m ∈ multiplicity, Multiplicity.normalize m = m) :
    ((declaration name s fields).childText? own).map Multiplicity.normalize = multiplicity := by
  rw [childText?_declaration, hfield, fieldText?_textual htidy]
  cases multiplicity with
  | none => rfl
  | some m => rw [Option.map_some, h m rfl]

/-- All fields of a property. Flags and texts are left to `simp`; the multiplicity and the domain
are read by lemmas of their own. -/
theorem property_propertyNode {p : Outline.Property} (h : p.Fits .objectModel) :
    property (propertyNode p) = .ok p := by
  have hfields := h.fields
  simp only [Outline.Property.fields, List.forall_mem_cons] at hfields
  obtain ⟨hid, hcode, hcomment, hdataType, hmultiplicity, hdomain, hothers⟩ := hfields
  have hread : ((propertyNode p).childText? "Multiplicity").map Multiplicity.normalize =
      p.multiplicity :=
    map_normalize_declaration p.id (by simp [held]) hmultiplicity h.multiplicity
  have hlink : reference? (propertyNode p) "Domain" = p.domain.map DomainRef.text :=
    reference?_declaration p.id "Domain" (by simp [held]) hdomain
  -- What is not just a text or a flag is read first; the other fields are read alike.
  rw [property, hread, hlink, map_id_text h.domain, propertyNode, id_declaration _ hid, ok_bind,
    code_declaration _ rfl hcode, ok_bind]
  simp only [childText?_declaration, flag_declaration, held, String.reduceEq, ↓reduceIte,
    Option.or_none, isFlag_flagged, fieldText?_textual, hcomment, hdataType, hothers]
  rfl

theorem classHeader_shortcutNode {s : Shortcut} (h : s.Fits) :
    classHeader (shortcutNode s) = .ok (.inr s) := by
  rw [classHeader, if_pos (by rfl), shortcut_shortcutNode h]
  rfl

/-- A class without its properties, which the walk reads on their own. -/
theorem classHeader_classNode {c : Outline.Class} (h : c.Fits .objectModel) :
    classHeader (classNode c) = .ok (.inl { c with properties := [] }) := by
  have hfields := h.fields
  simp only [Outline.Class.fields, List.forall_mem_cons] at hfields
  obtain ⟨hid, hcode, hothers⟩ := hfields
  rw [classHeader, if_neg (by simp [classNode, declaration]), classNode, id_declaration _ hid,
    ok_bind, code_declaration _ rfl hcode, ok_bind]
  simp only [childText?_declaration, flag_declaration, held, String.reduceEq, ↓reduceIte,
    Option.or_none, isFlag_flagged, fieldText?_textual, hothers]
  rfl

theorem namespaceHeader_namespaceNode {n : Outline.Namespace} (h : n.Fits .objectModel) :
    namespaceHeader (namespaceNode n) = .ok { n with classes := [] } := by
  have hfields := h.fields
  simp only [Outline.Namespace.fields, List.forall_mem_cons] at hfields
  obtain ⟨hid, hcode, hothers⟩ := hfields
  rw [namespaceHeader, namespaceNode, id_declaration _ hid, ok_bind, code_declaration _ rfl hcode,
    ok_bind]
  simp only [childText?_declaration, held, String.reduceEq, ↓reduceIte, Option.or_none,
    fieldText?_textual, hothers]
  rfl

theorem generalization_generalizationNode {g : Generalization} (h : g.Fits) :
    generalization (generalizationNode g) = .ok g := by
  have hfields := h.fields
  simp only [Generalization.fields, List.forall_mem_cons] at hfields
  obtain ⟨hid, hparent, hchild, -⟩ := hfields
  have hfirst : reference? (generalizationNode g) "Object1" = some g.parent :=
    reference?_declaration g.id "Class" (by simp [held]) hparent
  have hsecond : reference? (generalizationNode g) "Object2" = some g.child :=
    reference?_declaration g.id "Class" (by simp [held]) hchild
  rw [generalization, hfirst, hsecond, generalizationNode, id_declaration _ hid]
  rfl

theorem ownsOther_declaration (s : String) :
    ownsOther (declaration name s fields) own =
      (fieldText? (held own fields)).any (Text.equalsIgnoringCase · "C") := by
  rw [ownsOther, childText?_declaration]

/-- At most one end owns the other, and only its indicator is written. -/
theorem owner_associationNode (a : Association) :
    (if ownsOther (associationNode a) "RoleAIndicator" then some Side.a
      else if ownsOther (associationNode a) "RoleBIndicator" then some .b
      else none) = a.owner := by
  simp only [associationNode, ownsOther_declaration, held, String.reduceEq, ↓reduceIte,
    Option.or_none, indicator]
  cases howner : a.owner with
  | none => rfl
  | some side => cases side <;> decide

/-- A missing multiplicity is read as an empty one. -/
theorem multiplicity_declaration (s : String) {e : End}
    (hfield : held own fields = textual e.multiplicity?) (h : e.Fits) :
    multiplicity (declaration name s fields) own = e.multiplicity := by
  rw [multiplicity, childText?_declaration, hfield, fieldText?_textual h.tidy, h.normalize]

theorem association_associationNode {a : Association} (h : a.Fits) :
    association (associationNode a) = .ok a := by
  have hfields := h.fields
  simp only [Association.fields, List.forall_mem_cons] at hfields
  obtain ⟨hid, hcode, hname, hfirst, hroleA, hsecond, hroleB, -⟩ := hfields
  have hobject1 : reference? (associationNode a) "Object1" = some a.a.classId :=
    reference?_declaration a.id "Class" (by simp [held]) hfirst
  have hobject2 : reference? (associationNode a) "Object2" = some a.b.classId :=
    reference?_declaration a.id "Class" (by simp [held]) hsecond
  have hmultiplicityA : multiplicity (associationNode a) "RoleAMultiplicity" = a.a.multiplicity :=
    multiplicity_declaration a.id (by simp [held]) h.first
  have hmultiplicityB : multiplicity (associationNode a) "RoleBMultiplicity" = a.b.multiplicity :=
    multiplicity_declaration a.id (by simp [held]) h.second
  rw [association, hobject1, hobject2, hmultiplicityA, hmultiplicityB, owner_associationNode,
    associationNode, id_declaration _ hid]
  simp only [childText?_declaration, held, String.reduceEq, ↓reduceIte, Option.or_none,
    fieldText?_textual, *]
  rfl

/-! ## Where declarations stand

Declarations are looked for at any depth, so it has to be known what is inside each of them: classes
hold properties, namespaces hold classes, and the others hold nothing. -/

/-- `declared_build`, for elements with an `Id`. -/
theorem declared_declaration (s : String) :
    declared "Id" own (declaration name s fields) =
      (if name = own then [declaration name s fields] else []) ++
        fields.flatMap fun field => (field.2.getD []).flatMap (declared "Id" own) := by
  rw [declaration, declared_build]
  simp [held]

/-- References are no declarations, as they have no `Id`. -/
theorem declared_linked (element : String) (target : Option String) :
    ((linked element target).getD []).flatMap (declared "Id" own) = [] := by
  cases target with
  | none => rfl
  | some target => simp [linked, declared_build, held]

theorem declared_shortcutNode (s : Shortcut) :
    declared "Id" own (shortcutNode s) = if "Shortcut" = own then [shortcutNode s] else [] := by
  simp [shortcutNode, declared_declaration]

theorem declared_domainNode (d : Outline.Domain) :
    declared "Id" own (domainNode d) = if "Domain" = own then [domainNode d] else [] := by
  simp [domainNode, declared_declaration, numeric]

theorem declared_propertyNode (p : Outline.Property) :
    declared "Id" own (propertyNode p) = if "Attribute" = own then [propertyNode p] else [] := by
  simp [propertyNode, declared_declaration, flagged, declared_linked]

/-- If properties are not looked for, a class is one declaration. -/
theorem declared_classNode (h : "Attribute" ≠ own) (c : Outline.Class) :
    declared "Id" own (classNode c) = if "Class" = own then [classNode c] else [] := by
  simp [classNode, declared_declaration, flagged, declared_map declared_propertyNode, h]

theorem declared_namespaceNode (hclass : "Class" ≠ own) (hproperty : "Attribute" ≠ own)
    (n : Outline.Namespace) :
    declared "Id" own (namespaceNode n) = if "Package" = own then [namespaceNode n] else [] := by
  simp [namespaceNode, declared_declaration, declared_map (declared_classNode hproperty), hclass]

theorem declared_generalizationNode (g : Generalization) :
    declared "Id" own (generalizationNode g) =
      if "Generalization" = own then [generalizationNode g] else [] := by
  simp [generalizationNode, declared_declaration, declared_linked]

theorem declared_associationNode (a : Association) :
    declared "Id" own (associationNode a) =
      if "Association" = own then [associationNode a] else [] := by
  simp [associationNode, declared_declaration, declared_linked]

/-- The declarations of a model outside of its namespaces, and the namespaces. -/
theorem declared_modelNode (hmodel : "Model" ≠ own) (hclass : "Class" ≠ own)
    (hproperty : "Attribute" ≠ own) (outline : Outline) :
    declared "Id" own (modelNode outline) =
      (if "Domain" = own then outline.domains.map domainNode else [])
        ++ (if "Shortcut" = own then outline.domainShortcuts.map shortcutNode else [])
        ++ (if "Package" = own then outline.namespaces.map namespaceNode else [])
        ++ (if "Shortcut" = own then outline.classShortcuts.map shortcutNode else [])
        ++ (if "Generalization" = own then outline.generalizations.map generalizationNode else [])
        ++ (if "Association" = own then outline.associations.map associationNode else []) := by
  simp [modelNode, declared_declaration, hmodel, declared_map declared_domainNode,
    declared_map declared_shortcutNode, declared_map (declared_namespaceNode hclass hproperty),
    declared_map declared_generalizationNode, declared_map declared_associationNode]

/-- The model is the first one with a `Code`. The outer element is called a model too, but it has
none. -/
theorem model?_document (outline : Outline) :
    adapter.model? (document outline) = some (modelNode outline) := by
  have hcode : ((modelNode outline).child? "Code").isSome = true := by
    rw [modelNode, declaration, child?_build]
    rfl
  show (document outline).descendants.find?
    (fun node => node.hasName "Model" && (node.child? "Code").isSome) = _
  rw [document, find?_around (by rfl), find?_around (by rfl), find?_around (by rfl),
    find?_descendants (by rw [hcode]; rfl)]

/-- Code and name of the model itself. -/
theorem header_modelNode {outline : Outline} (h : outline.Fits .objectModel) :
    adapter.header (modelNode outline) = .ok (outline.name, outline.label) := by
  show (do return (← code (modelNode outline) "Model", (modelNode outline).childText? "Name")) = _
  rw [modelNode, code_declaration _ rfl h.name, childText?_declaration]
  simp only [held, String.reduceEq, ↓reduceIte, Option.or_none, fieldText?_textual h.label]
  rfl

theorem domainNodes_modelNode (outline : Outline) : adapter.domainNodes (modelNode outline) =
    outline.domains.map domainNode ++ outline.domainShortcuts.map shortcutNode := by
  -- Domains and shortcuts are all that this field holds, so that none is left out.
  have hall : ∀ node ∈ outline.domains.map domainNode ++ outline.domainShortcuts.map shortcutNode,
      (node.hasName "Domain" || node.hasName "Shortcut") = true := by
    simp only [List.forall_mem_append, List.forall_mem_map]
    exact ⟨fun _ _ => rfl, fun _ _ => rfl⟩
  show members (modelNode outline) "Domains" "Domain" "Shortcut" = _
  rw [modelNode, members_declaration]
  simp only [held, String.reduceEq, ↓reduceIte, Option.or_none, Option.getD_some,
    List.filter_eq_self.mpr hall]

/-- Shortcuts to classes stand in a field of the model itself. -/
theorem shortcutNodes_modelNode (outline : Outline) :
    adapter.shortcutNodes (modelNode outline) = outline.classShortcuts.map shortcutNode := by
  show (modelNode outline).nested "Classes" "Shortcut" = _
  rw [modelNode, declaration, nested_build]
  simp [held, shortcutNode, declaration]

theorem classNodes_namespaceNode (n : Outline.Namespace) :
    adapter.classNodes (namespaceNode n) = n.classes.map classNode := by
  show members (namespaceNode n) "Classes" "Class" "Shortcut" = _
  rw [namespaceNode, members_declaration]
  simp [held, classNode, declaration]

theorem propertyNodes_classNode (c : Outline.Class) :
    adapter.propertyNodes (classNode c) = c.properties.map propertyNode := by
  show (classNode c).nested "Attributes" "Attribute" = _
  rw [classNode, declaration, nested_build]
  simp [held, propertyNode, declaration]

def writer : Writer where
  modelNode := modelNode
  domainNode := domainNode
  domainShortcutNode := shortcutNode
  classShortcutNode := shortcutNode
  namespaceNode := namespaceNode
  classNode := classNode
  propertyNode := propertyNode
  generalizationNode := generalizationNode
  associationNode := associationNode

/-- Everything above, put together as the walk needs it. -/
theorem readBy_adapter : writer.ReadBy adapter .objectModel where
  domainNodes := domainNodes_modelNode
  shortcutNodes := shortcutNodes_modelNode
  namespaceNodes outline := by
    show declared "Id" "Package" (modelNode outline) = _
    simp [declared_modelNode, writer]
  classNodes := classNodes_namespaceNode
  propertyNodes := propertyNodes_classNode
  generalizationNodes outline := by
    show declared "Id" "Generalization" (modelNode outline) = _
    simp [declared_modelNode, writer]
  associationNodes outline := by
    show declared "Id" "Association" (modelNode outline) = _
    simp [declared_modelNode, writer]
  header := header_modelNode
  domain := domain_domainNode
  domainShortcut := domain_shortcutNode
  classShortcut := classHeader_shortcutNode
  namespaceHeader := namespaceHeader_namespaceNode
  classHeader := classHeader_classNode
  property := property_propertyNode
  generalization := generalization_generalizationNode
  association := association_associationNode

end ModelSchema.Interchange.ObjectModel
