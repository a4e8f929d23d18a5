import ModelSchema.Interchange.Xmi
import ModelSchema.Proofs.Catalog
import ModelSchema.Proofs.Interchange.Walk

/-!
# XMI exports written and read

The XMI export of an outline: each declaration is an element with `xmi.id` and `name` attributes,
its other fields are tagged values, and shortcuts have the stereotype `shortcut`. A tag is read back
from the list of tagged values (`lookup_tags`), all kinds of declarations from their elements
(`domain_domainNode` and the others), and each is found in the model (`declared_modelNode`).
-/

namespace ModelSchema.Interchange.Xmi

open Outline (DomainRef Shortcut Generalization Association End)
open Xml (Node)

/-! ## Writing

One element for each kind of declaration, and for most of them a list of tags. The names of tags are
those that the adapter asks for. -/

/-- The elements of tagged values. -/
def tagNodes (entries : List (String × Option String)) : List Node :=
  entries.filterMap fun (tag, value) =>
    value.map fun value => build "TaggedValue" [("tag", some tag), ("value", some value)] []

/-- An element with attributes, tagged values and fields. Tagged values are a field too, the first
one. -/
def tagged (name : String) (attributes entries : List (String × Option String))
    (fields : List (String × Option (List Node))) : Node :=
  build name attributes (("ModelElement.taggedValue", some (tagNodes entries)) :: fields)

/-- An element that declares something. -/
def declaration (name id code : String) (entries : List (String × Option String))
    (fields : List (String × Option (List Node))) : Node :=
  tagged name [("xmi.id", some id), ("name", some code)] entries fields

/-- The field of a stereotype. -/
def stereotyped (stereotype : Option String) : Option (List Node) :=
  stereotype.map fun s => [build "Stereotype" [("name", some s)] []]

def flagTag (b : Bool) : Option String :=
  if b then some "1" else none

/-- Persistence is spelled as a word; every other flag is a digit. -/
def persistenceTag (b : Bool) : Option String :=
  if b then some "persistent" else none

def shortcutNode (name : String) (shortcut : Shortcut) : Node :=
  declaration name shortcut.id shortcut.code []
    [("ModelElement.stereotype", stereotyped "shortcut")]

def domainTags (domain : Outline.Domain) : List (String × Option String) :=
  [("alias", domain.label),
    ("type", domain.dataType),
    ("persistenttype", domain.persistentType),
    ("length", domain.length.map toString),
    ("precision", domain.precision.map toString)]

def domainNode (domain : Outline.Domain) : Node :=
  declaration "DataType" domain.id domain.code (domainTags domain) []

/-- The tags of a property. A multiplicity is given by its two bounds. -/
def propertyTags (property : Outline.Property) : List (String × Option String) :=
  [("documentation", property.comment),
    ("type", property.dataType),
    ("persistence", persistenceTag property.isPersistent),
    ("lowerbound", property.multiplicity.map fun m => (Multiplicity.normalBounds m).1),
    ("upperbound", property.multiplicity.map fun m => (Multiplicity.normalBounds m).2),
    ("domain", property.domain.map DomainRef.text),
    ("isid", flagTag property.isPrimaryKey),
    ("unique", flagTag property.isUnique),
    ("uniquemany", flagTag property.isUniqueMany),
    ("ordered", flagTag property.isOrdered),
    ("columnname", property.persistentCode),
    ("columntype", property.persistentType)]

def propertyNode (property : Outline.Property) : Node :=
  declaration "Attribute" property.id property.code (propertyTags property) []

def classTags (c : Outline.Class) : List (String × Option String) :=
  [("alias", c.label),
    ("documentation", c.comment),
    ("persistence", persistenceTag c.isPersistent),
    ("tablename", c.persistentCode),
    ("trigram", c.trigram),
    ("storage", c.storage),
    ("historized", flagTag c.isHistorized),
    ("audited", flagTag c.isAudited),
    ("exportdelta", flagTag c.isExportDelta)]

def classNode (c : Outline.Class) : Node :=
  declaration "Class" c.id c.code (classTags c)
    [("ModelElement.stereotype", stereotyped c.stereotype),
      ("Classifier.feature", some (c.properties.map propertyNode))]

def namespaceTags (n : Outline.Namespace) : List (String × Option String) :=
  [("alias", n.label), ("documentation", n.comment), ("author", n.creator)]

def namespaceNode (n : Outline.Namespace) : Node :=
  declaration "Package" n.id n.code (namespaceTags n)
    [("Namespace.ownedElement", some (n.classes.map classNode))]

def generalizationNode (g : Generalization) : Node :=
  build "Generalization"
    [("xmi.id", some g.id), ("supertype", some g.parent), ("subtype", some g.child)] []

/-- An end of an association. A multiplicity that is empty is left out. -/
def endNode (association : Association) (side : Side) (e : End) : Node :=
  build "AssociationEnd"
    [("type", some e.classId),
      ("multiplicity", e.multiplicity?),
      ("name", e.role),
      ("aggregation", if association.owner = some side then some "composite" else none)] []

/-- An association with its ends. -/
def associationNode (a : Association) : Node :=
  tagged "Association" [("xmi.id", some a.id), ("name", a.name)] [("code", a.code)]
    [("Association.connection", some [endNode a .a a.a, endNode a .b a.b])]

def modelNode (outline : Outline) : Node :=
  declaration "Model" "m1" outline.name [("alias", outline.label)]
    [("Namespace.ownedElement", some
      (outline.domains.map domainNode ++ outline.domainShortcuts.map (shortcutNode "DataType")
        ++ outline.classShortcuts.map (shortcutNode "Class")
        ++ outline.namespaces.map namespaceNode
        ++ outline.generalizations.map generalizationNode
        ++ outline.associations.map associationNode))]

def document (outline : Outline) : Node :=
  .element "XMI" [⟨"xmi.version", "1.1", false⟩] [.element "XMI.content" [] [modelNode outline]]

/-! ## Tags

Tagged values are collected with lower-case names, the last one first. In a `Plain` list of entries
each name stands once, so neither the order nor the case matters. -/

/-- A value that is missing, or has no blanks at its ends. -/
def TrimmedField (value : Option String) : Prop :=
  ∀ s ∈ value, Text.trim s = s

/-- Tags are in lower case, each stands once, and no value has blanks at its ends. -/
structure Plain (entries : List (String × Option String)) : Prop where
  lower : ∀ entry ∈ entries, Text.lower entry.1 = entry.1
  distinct : (entries.map (·.1)).Nodup
  trimmed : ∀ entry ∈ entries, TrimmedField entry.2

variable {name own : String} {attributes : List (String × Option String)}
  {entries : List (String × Option String)} {fields : List (String × Option (List Node))}

/-- Of tags that stand once, the last one is the first one. -/
theorem lookup_reverse {pairs : List (String × String)} (h : (pairs.map (·.1)).Nodup)
    (tag : String) : pairs.reverse.lookup tag = pairs.lookup tag := by
  induction pairs with
  | nil => rfl
  | cons pair rest ih =>
      obtain ⟨first, value⟩ := pair
      obtain ⟨hfirst, hrest⟩ := List.nodup_cons.mp h
      rw [List.reverse_cons, List.lookup_append, ih hrest, Catalog.lookup_cons_eq_ite,
        Catalog.lookup_cons_eq_ite, List.lookup_nil]
      by_cases heq : tag = first
      · -- The rest comes first now, but the tag does not stand in it.
        subst heq
        have hnone : rest.lookup tag = none := by
          rw [List.lookup_eq_none_iff]
          intro pair hpair
          rw [bne_iff_ne]
          intro heq
          exact hfirst (List.mem_map.mpr ⟨pair, hpair, heq.symm⟩)
        rw [hnone, if_pos rfl, Option.none_or]
      · rw [if_neg heq, if_neg heq, Option.or_none]

/-- The tags that are there. `held` on entries is `lookup` on these (`lookup_present`). -/
def present (entries : List (String × Option String)) : Tags :=
  entries.filterMap fun entry => entry.2.map fun value => (entry.1, value)

/-- Leaving out missing tags keeps names distinct. -/
theorem names_present (entries : List (String × Option String)) :
    List.Sublist ((present entries).map (·.1)) (entries.map (·.1)) := by
  induction entries with
  | nil => exact .slnil
  | cons entry rest ih =>
      obtain ⟨first, value⟩ := entry
      cases value with
      | none => exact ih.cons first
      | some value => exact ih.cons_cons first

theorem lookup_present (tag : String) : (present entries).lookup tag = held tag entries := by
  unfold present
  induction entries with
  | nil => rfl
  | cons entry rest ih =>
      obtain ⟨first, value⟩ := entry
      rw [held]
      cases value with
      | none => simpa using ih
      | some value =>
          rw [List.filterMap_cons_some (by rfl), Catalog.lookup_cons_eq_ite, ih]
          simp [eq_comm]

/-- Trimming and lower case do nothing to `Plain` entries. What is left of `tags` is the reversal.
-/
theorem tags_tagged (h : Plain entries) :
    tags (tagged name attributes entries fields) = (present entries).reverse := by
  have hnested : (tagged name attributes entries fields).nested "ModelElement.taggedValue"
      "TaggedValue" = tagNodes entries := by
    rw [tagged, nested_build, held, if_pos rfl, Option.some_or, Option.getD_some,
      List.filter_eq_self]
    intro node hnode
    obtain ⟨entry, -, hentry⟩ := List.mem_filterMap.mp hnode
    obtain ⟨value, -, rfl⟩ := Option.map_eq_some_iff.mp hentry
    rfl
  rw [tags, hnested, tagNodes, List.filterMap_filterMap]
  congr 1
  apply List.filterMap_congr
  intro entry hentry
  cases hvalue : entry.2 with
  | none => simp [hvalue]
  | some value =>
      simp [hvalue, attribute?_build, held, h.lower entry hentry,
        h.trimmed entry hentry value hvalue]

/-- A tag is read back. -/
theorem lookup_tags (h : Plain entries) (tag : String) :
    (tags (tagged name attributes entries fields)).lookup tag = held tag entries := by
  rw [tags_tagged h, lookup_reverse (h.distinct.sublist (names_present entries)), lookup_present]

/-- The text of a tag, if it is there and not empty. -/
def tagText? (value : Option String) : Option String :=
  value.filter (· != "")

/-- An empty text counts as missing, and no tidy text is empty. -/
theorem tagText?_of_tidy {value : Option String} (h : Text.TidyField value) :
    tagText? value = value := by
  cases value with
  | none => rfl
  | some s => simp [tagText?, (h s rfl).1]

theorem text?_tagged (h : Plain entries) (tag : String) :
    (tags (tagged name attributes entries fields)).text? tag = tagText? (held tag entries) := by
  rw [Tags.text?, lookup_tags h, tagText?]

/-- Flags, texts and persistence in terms of `held`, by `lookup_tags`. -/
theorem flag_tagged (h : Plain entries) (tag : String) :
    (tags (tagged name attributes entries fields)).flag tag = isFlag (held tag entries) := by
  rw [Tags.flag, lookup_tags h]

theorem isPersistent_tagged (h : Plain entries) {b : Bool}
    (hentry : held "persistence" entries = persistenceTag b) :
    (tags (tagged name attributes entries fields)).isPersistent = b := by
  rw [Tags.isPersistent, lookup_tags h, hentry]
  cases b <;> decide

/-- A stereotype is read back, if no tag gives another one. -/
theorem stereotype?_tagged (h : Plain entries) (hentry : held "stereotype" entries = none)
    {stereotype : Option String}
    (hfield : held "ModelElement.stereotype" fields = stereotyped stereotype)
    (htidy : Text.TidyField stereotype) :
    stereotype? (tagged name attributes entries fields)
      (tags (tagged name attributes entries fields)) = stereotype := by
  -- The tagged values are the first field and are passed over.
  rw [stereotype?, lookup_tags h, hentry, tagged, child?_build, held, if_neg (by decide), hfield]
  cases stereotype with
  | none => rfl
  | some s =>
      simp [stereotyped, Node.child?, Node.children, attributeText?_build, held,
        Text.trimmed?_of_tidy htidy, (htidy s rfl).1]

/-! ## Fields

The values of tags are trimmed when they are read. All kinds of values are without blanks at their
ends. -/

/-- Identifier and name are attributes here, and both are required. -/
theorem id_declaration (element code : String) {s : String} (h : Text.TidyField s) :
    id (declaration name s code entries fields) element = .ok s := by
  simp [id, declaration, tagged, attributeText?_build, held, Text.trimmed?_of_tidy h, require]

theorem name_declaration (element s : String) {code : String} (h : Text.TidyField code) :
    Xmi.name (declaration name s code entries fields) element = .ok code := by
  simp [Xmi.name, declaration, tagged, attributeText?_build, held, Text.trimmed?_of_tidy h, require]

theorem trimmed_of_tidy {value : Option String} (h : Text.TidyField value) : TrimmedField value :=
  fun s hs => (h s hs).2

theorem trimmed_number (value : Option Nat) : TrimmedField (value.map toString) := by
  intro s hs
  obtain ⟨n, -, rfl⟩ := Option.map_eq_some_iff.mp hs
  exact (tidy_toString n).2

/-- The bounds of a multiplicity are trimmed apart, see `firm_bounds`. -/
theorem trimmed_bounds (multiplicity : Option String) :
    TrimmedField (multiplicity.map fun m => (Multiplicity.normalBounds m).1) ∧
      TrimmedField (multiplicity.map fun m => (Multiplicity.normalBounds m).2) := by
  constructor
  · intro s hs
    obtain ⟨m, -, rfl⟩ := Option.map_eq_some_iff.mp hs
    exact Text.trim_of_firm (Multiplicity.firm_normalBounds m).1
  · intro s hs
    obtain ⟨m, -, rfl⟩ := Option.map_eq_some_iff.mp hs
    exact Text.trim_of_firm (Multiplicity.firm_normalBounds m).2

theorem trimmed_flagTag (b : Bool) : TrimmedField (flagTag b) := by
  cases b with
  | true => exact fun s hs => by cases hs; decide
  | false => exact fun s hs => by cases hs

theorem trimmed_persistenceTag (b : Bool) : TrimmedField (persistenceTag b) := by
  cases b with
  | true => exact fun s hs => by cases hs; decide
  | false => exact fun s hs => by cases hs

/-! ## Declarations

For each kind, its tags are `Plain` and it is read back from its element. The conditions are those
of `Fits`. -/

theorem plain_nil : Plain [] where
  lower := by simp
  distinct := by simp
  trimmed := by simp

theorem plain_singleton {tag : String} {value : Option String} (hlower : Text.lower tag = tag)
    (h : Text.TidyField value) : Plain [(tag, value)] where
  lower := by simpa using hlower
  distinct := by simp
  trimmed := by simpa using trimmed_of_tidy h

/-- Shortcuts are told by their stereotype. -/
theorem isShortcut_shortcutNode (s : Shortcut) :
    isShortcut (shortcutNode name s) (tags (shortcutNode name s)) = true := by
  have hstereotype :
      stereotype? (shortcutNode name s) (tags (shortcutNode name s)) = some "shortcut" :=
    stereotype?_tagged plain_nil rfl (by simp [held]) (by decide)
  rw [isShortcut, hstereotype]
  decide

theorem domain_shortcutNode {s : Shortcut} (h : s.Fits) :
    domain (shortcutNode "DataType" s) = .ok (.inr s) := by
  have hfields := h.fields
  simp only [Shortcut.fields, List.forall_mem_cons] at hfields
  obtain ⟨hid, hcode, -⟩ := hfields
  rw [domain, isShortcut_shortcutNode, shortcutNode, id_declaration _ _ hid, ok_bind,
    name_declaration _ _ hcode, ok_bind]
  rfl

/-- Names of tags are known, so `decide` sees that they are distinct and in lower case. -/
theorem plain_domainTags {d : Outline.Domain} (h : d.Fits) : Plain (domainTags d) := by
  have hfields := h.fields
  simp only [Outline.Domain.fields, List.forall_mem_cons] at hfields
  obtain ⟨-, -, hlabel, hdataType, hpersistentType, -⟩ := hfields
  constructor
  · simp only [domainTags, List.forall_mem_cons]
    decide
  · simp [domainTags]
  · simp only [domainTags, List.forall_mem_cons]
    exact ⟨trimmed_of_tidy hlabel, trimmed_of_tidy hdataType, trimmed_of_tidy hpersistentType,
      trimmed_number _, trimmed_number _, by simp⟩

theorem number?_map {value : Option Nat} (h : ∀ n ∈ value, n < 2 ^ 32) :
    number? (value.map toString) = value := by
  cases value with
  | none => rfl
  | some n => exact number?_toString (h n rfl)

/-- A domain has no stereotype, so it is not taken for a shortcut. -/
theorem domain_domainNode {d : Outline.Domain} (h : d.Fits) :
    domain (domainNode d) = .ok (.inl d) := by
  have hplain := plain_domainTags h
  have hfields := h.fields
  simp only [Outline.Domain.fields, List.forall_mem_cons] at hfields
  obtain ⟨hid, hcode, hothers⟩ := hfields
  have hshortcut : isShortcut (domainNode d) (tags (domainNode d)) = false := by
    have hstereotype : stereotype? (domainNode d) (tags (domainNode d)) = none :=
      stereotype?_tagged hplain (by simp [domainTags, held]) rfl (by decide)
    rw [isShortcut, hstereotype]
    rfl
  rw [domain, hshortcut, domainNode, id_declaration _ _ hid, ok_bind, name_declaration _ _ hcode,
    ok_bind, declaration]
  simp only [text?_tagged hplain, lookup_tags hplain]
  simp only [domainTags, held, String.reduceEq, ↓reduceIte, Option.or_none, tagText?_of_tidy,
    hothers, number?_map h.length, number?_map h.precision]
  rfl

theorem plain_propertyTags {p : Outline.Property} (h : p.Fits .xmi) : Plain (propertyTags p) := by
  have hfields := h.fields
  simp only [Outline.Property.fields, List.forall_mem_cons] at hfields
  obtain ⟨-, -, hcomment, hdataType, -, hdomain, hcolumn, htype, -⟩ := hfields
  constructor
  · simp only [propertyTags, List.forall_mem_cons]
    decide
  · simp [propertyTags]
  · simp only [propertyTags, List.forall_mem_cons]
    exact ⟨trimmed_of_tidy hcomment, trimmed_of_tidy hdataType, trimmed_persistenceTag _,
      (trimmed_bounds _).1, (trimmed_bounds _).2, trimmed_of_tidy hdomain, trimmed_flagTag _,
      trimmed_flagTag _, trimmed_flagTag _, trimmed_flagTag _, trimmed_of_tidy hcolumn,
      trimmed_of_tidy htype, by simp⟩

/-- Codes are what an XMI export names domains by. -/
theorem map_code_text {ref : Option DomainRef} (h : ∀ own ∈ ref, own.IsOf .xmi) :
    (ref.map DomainRef.text).map .code = ref := by
  cases ref with
  | none => rfl
  | some ref =>
      cases ref with
      | id s => exact (h (.id s) rfl).elim
      | code s => rfl

/-- A multiplicity in normal form is put together again from its bounds. -/
theorem multiplicity?_propertyNode {p : Outline.Property} (h : p.Fits .xmi) :
    multiplicity? (tags (propertyNode p)) = p.multiplicity := by
  have hplain := plain_propertyTags h
  have hlower : (tags (propertyNode p)).lookup "lowerbound" =
      p.multiplicity.map fun m => (Multiplicity.normalBounds m).1 :=
    (lookup_tags hplain _).trans (by simp [propertyTags, held])
  have hupper : (tags (propertyNode p)).lookup "upperbound" =
      p.multiplicity.map fun m => (Multiplicity.normalBounds m).2 :=
    (lookup_tags hplain _).trans (by simp [propertyTags, held])
  -- There are both bounds or none.
  rw [multiplicity?, hlower, hupper]
  cases hm : p.multiplicity with
  | none => rfl
  | some m =>
      have hnormal := h.multiplicity m hm
      show some (Multiplicity.normalize _) = some m
      rw [← Multiplicity.normalize_eq, hnormal, hnormal]

/-- All tags of a property. As in object models, what takes more than a look is read first. -/
theorem property_propertyNode {p : Outline.Property} (h : p.Fits .xmi) :
    property (propertyNode p) = .ok p := by
  have hplain := plain_propertyTags h
  have hfields := h.fields
  simp only [Outline.Property.fields, List.forall_mem_cons] at hfields
  obtain ⟨hid, hcode, hothers⟩ := hfields
  have hpersistent : (tags (propertyNode p)).isPersistent = p.isPersistent :=
    isPersistent_tagged hplain (by simp [propertyTags, held])
  have hdomain : (tags (propertyNode p)).text? "domain" = p.domain.map DomainRef.text :=
    (text?_tagged hplain _).trans (by simp [propertyTags, held, tagText?_of_tidy, hothers])
  -- What is not just a text or a flag is read first; the other tags are read alike.
  rw [property, multiplicity?_propertyNode h, hpersistent, hdomain, map_code_text h.domain,
    propertyNode, id_declaration _ _ hid, ok_bind, name_declaration _ _ hcode, ok_bind, declaration]
  simp only [text?_tagged hplain, flag_tagged hplain]
  simp only [propertyTags, held, String.reduceEq, ↓reduceIte, Option.or_none, tagText?_of_tidy,
    hothers, flagTag, isFlag_one]
  rfl

theorem plain_classTags {c : Outline.Class} (h : c.Fits .xmi) : Plain (classTags c) := by
  have hfields := h.fields
  simp only [Outline.Class.fields, List.forall_mem_cons] at hfields
  obtain ⟨-, -, hlabel, hcomment, -, htable, htrigram, hstorage, -⟩ := hfields
  constructor
  · simp only [classTags, List.forall_mem_cons]
    decide
  · simp [classTags]
  · simp only [classTags, List.forall_mem_cons]
    exact ⟨trimmed_of_tidy hlabel, trimmed_of_tidy hcomment, trimmed_persistenceTag _,
      trimmed_of_tidy htable, trimmed_of_tidy htrigram, trimmed_of_tidy hstorage,
      trimmed_flagTag _, trimmed_flagTag _, trimmed_flagTag _, by simp⟩

theorem classHeader_shortcutNode {s : Shortcut} (h : s.Fits) :
    classHeader (shortcutNode "Class" s) = .ok (.inr s) := by
  have hfields := h.fields
  simp only [Shortcut.fields, List.forall_mem_cons] at hfields
  obtain ⟨hid, hcode, -⟩ := hfields
  rw [classHeader, isShortcut_shortcutNode, shortcutNode, id_declaration _ _ hid, ok_bind,
    name_declaration _ _ hcode, ok_bind]
  rfl

theorem classHeader_classNode {c : Outline.Class} (h : c.Fits .xmi) :
    classHeader (classNode c) = .ok (.inl { c with properties := [] }) := by
  have hplain := plain_classTags h
  have hfields := h.fields
  simp only [Outline.Class.fields, List.forall_mem_cons] at hfields
  obtain ⟨hid, hcode, hlabel, hcomment, hstereotype, hothers⟩ := hfields
  have hread : stereotype? (classNode c) (tags (classNode c)) = c.stereotype :=
    stereotype?_tagged hplain (by simp [classTags, held]) (by simp [held]) hstereotype
  -- A class with the stereotype of shortcuts would be taken for one.
  have hshortcut : isShortcut (classNode c) (tags (classNode c)) = false := by
    rw [isShortcut, hread]
    cases hs : c.stereotype with
    | none => rfl
    | some s => exact h.stereotype rfl s hs
  have hpersistent : (tags (classNode c)).isPersistent = c.isPersistent :=
    isPersistent_tagged hplain (by simp [classTags, held])
  rw [classHeader, hshortcut, hread, hpersistent, classNode, id_declaration _ _ hid, ok_bind,
    name_declaration _ _ hcode, ok_bind, declaration]
  simp only [text?_tagged hplain, flag_tagged hplain]
  simp only [classTags, held, String.reduceEq, ↓reduceIte, Option.or_none, tagText?_of_tidy, hlabel,
    hcomment, hothers, flagTag, isFlag_one]
  rfl

theorem plain_namespaceTags {n : Outline.Namespace} (h : n.Fits .xmi) :
    Plain (namespaceTags n) := by
  have hfields := h.fields
  simp only [Outline.Namespace.fields, List.forall_mem_cons] at hfields
  obtain ⟨-, -, hlabel, hcomment, hcreator, -⟩ := hfields
  constructor
  · simp only [namespaceTags, List.forall_mem_cons]
    decide
  · simp [namespaceTags]
  · simp only [namespaceTags, List.forall_mem_cons]
    exact ⟨trimmed_of_tidy hlabel, trimmed_of_tidy hcomment, trimmed_of_tidy hcreator, by simp⟩

theorem namespaceHeader_namespaceNode {n : Outline.Namespace} (h : n.Fits .xmi) :
    namespaceHeader (namespaceNode n) = .ok { n with classes := [] } := by
  have hplain := plain_namespaceTags h
  have hfields := h.fields
  simp only [Outline.Namespace.fields, List.forall_mem_cons] at hfields
  obtain ⟨hid, hcode, hothers⟩ := hfields
  rw [namespaceHeader, namespaceNode, id_declaration _ _ hid, ok_bind, name_declaration _ _ hcode,
    ok_bind, declaration]
  simp only [text?_tagged hplain]
  simp only [namespaceTags, held, String.reduceEq, ↓reduceIte, Option.or_none, tagText?_of_tidy,
    hothers]
  rfl

theorem generalization_generalizationNode {g : Generalization} (h : g.Fits) :
    generalization (generalizationNode g) = .ok g := by
  have hfields := h.fields
  simp only [Generalization.fields, List.forall_mem_cons] at hfields
  obtain ⟨hid, hparent, hchild, -⟩ := hfields
  simp only [generalization, id, generalizationNode, attributeText?_build, held, String.reduceEq,
    ↓reduceIte, Option.or_none, Option.bind_some, Text.trimmed?_of_tidy, hid, hparent, hchild]
  rfl

/-- The ends of an association are elements of their own, and have no tags. -/
theorem associationEnd_endNode {a : Association} {side : Side} {e : End}
    (hclass : Text.TidyField e.classId) (hrole : Text.TidyField e.role) (h : e.Fits) :
    associationEnd (endNode a side e) = .ok e := by
  simp only [associationEnd, endNode, attributeText?_build, held, String.reduceEq, ↓reduceIte,
    Option.or_none, Text.bind_trimmed?, hclass, hrole, h.tidy, h.normalize]
  rfl

theorem ownsOther_endNode (a : Association) (side : Side) (e : End) :
    ownsOther (endNode a side e) = decide (a.owner = some side) := by
  simp only [ownsOther, endNode, attribute?_build, held, String.reduceEq, ↓reduceIte,
    Option.or_none]
  by_cases howner : a.owner = some side
  · rw [if_pos howner, decide_eq_true howner]
    decide
  · rw [if_neg howner, decide_eq_false howner]
    rfl

/-- At most one end is marked as owning the other. -/
theorem owner_endNode (a : Association) :
    (if ownsOther (endNode a .a a.a) then some Side.a
      else if ownsOther (endNode a .b a.b) then some .b
      else none) = a.owner := by
  rw [ownsOther_endNode, ownsOther_endNode]
  cases howner : a.owner with
  | none => rfl
  | some side => cases side <;> rfl

theorem association_associationNode {a : Association} (h : a.Fits) :
    association (associationNode a) = .ok a := by
  have hfields := h.fields
  simp only [Association.fields, List.forall_mem_cons] at hfields
  obtain ⟨hid, hcode, hname, hclassA, hroleA, hclassB, hroleB, -⟩ := hfields
  have hends : (associationNode a).nested "Association.connection" "AssociationEnd" =
      [endNode a .a a.a, endNode a .b a.b] := by
    rw [associationNode, tagged, nested_build]
    rfl
  have hplain : Plain [("code", a.code)] := plain_singleton (by decide) hcode
  have hread : (tags (associationNode a)).text? "code" = a.code :=
    (text?_tagged hplain _).trans (by simp [held, tagText?_of_tidy hcode])
  rw [association, hends]
  simp only [hread, associationEnd_endNode hclassA hroleA h.first,
    associationEnd_endNode hclassB hroleB h.second, owner_endNode]
  simp only [id, associationNode, tagged, attributeText?_build, held, String.reduceEq, ↓reduceIte,
    Option.or_none, Text.bind_trimmed?, hid, hname]
  rfl

/-! ## Where declarations stand

As in object models, with `xmi.id` for a marker. Shortcuts have the names of what they stand for, so
the classes of a model itself are found by the field they are in. -/

/-- Tagged values and stereotypes have no identifier, so they declare nothing. -/
theorem declared_tagNodes (entries : List (String × Option String)) :
    (tagNodes entries).flatMap (declared "xmi.id" own) = [] := by
  rw [List.flatMap_eq_nil_iff]
  intro node hnode
  obtain ⟨entry, -, hentry⟩ := List.mem_filterMap.mp hnode
  obtain ⟨value, -, rfl⟩ := Option.map_eq_some_iff.mp hentry
  simp [declared_build, held]

theorem declared_stereotyped (stereotype : Option String) :
    ((stereotyped stereotype).getD []).flatMap (declared "xmi.id" own) = [] := by
  cases stereotype with
  | none => rfl
  | some s => simp [stereotyped, declared_build, held]

/-- `declared_build`, for elements with tagged values. Associations and other declarations have
different attributes, and `xmi.id` is all that counts. -/
theorem declared_tagged (h : (held "xmi.id" attributes).isSome = true) :
    declared "xmi.id" own (tagged name attributes entries fields) =
      (if name = own then [tagged name attributes entries fields] else []) ++
        fields.flatMap fun field => (field.2.getD []).flatMap (declared "xmi.id" own) := by
  rw [tagged, declared_build, List.flatMap_cons, Option.getD_some, declared_tagNodes,
    List.nil_append]
  simp only [h, and_true]

theorem declared_declaration (s code : String) :
    declared "xmi.id" own (declaration name s code entries fields) =
      (if name = own then [declaration name s code entries fields] else []) ++
        fields.flatMap fun field => (field.2.getD []).flatMap (declared "xmi.id" own) :=
  declared_tagged (by rfl)

theorem declared_shortcutNode (s : Shortcut) :
    declared "xmi.id" own (shortcutNode name s) =
      if name = own then [shortcutNode name s] else [] := by
  simp [shortcutNode, declared_declaration, declared_stereotyped]

theorem declared_domainNode (d : Outline.Domain) :
    declared "xmi.id" own (domainNode d) = if "DataType" = own then [domainNode d] else [] := by
  simp [domainNode, declared_declaration]

theorem declared_propertyNode (p : Outline.Property) :
    declared "xmi.id" own (propertyNode p) =
      if "Attribute" = own then [propertyNode p] else [] := by
  simp [propertyNode, declared_declaration]

/-- If properties are not looked for, a class is one declaration. -/
theorem declared_classNode (h : "Attribute" ≠ own) (c : Outline.Class) :
    declared "xmi.id" own (classNode c) = if "Class" = own then [classNode c] else [] := by
  simp [classNode, declared_declaration, declared_stereotyped,
    declared_map declared_propertyNode, h]

theorem declared_namespaceNode (hclass : "Class" ≠ own) (hproperty : "Attribute" ≠ own)
    (n : Outline.Namespace) :
    declared "xmi.id" own (namespaceNode n) =
      if "Package" = own then [namespaceNode n] else [] := by
  simp [namespaceNode, declared_declaration, declared_map (declared_classNode hproperty), hclass]

theorem declared_generalizationNode (g : Generalization) :
    declared "xmi.id" own (generalizationNode g) =
      if "Generalization" = own then [generalizationNode g] else [] := by
  simp [generalizationNode, declared_build, held]

theorem declared_associationNode (a : Association) :
    declared "xmi.id" own (associationNode a) =
      if "Association" = own then [associationNode a] else [] := by
  rw [associationNode, declared_tagged (by rfl)]
  simp [endNode, declared_build, held]

/-- The declarations of a model outside of its namespaces, and the namespaces. -/
theorem declared_modelNode (hmodel : "Model" ≠ own) (hclass : "Class" ≠ own)
    (hproperty : "Attribute" ≠ own) (outline : Outline) :
    declared "xmi.id" own (modelNode outline) =
      (if "DataType" = own then outline.domains.map domainNode else [])
        ++ (if "DataType" = own then outline.domainShortcuts.map (shortcutNode "DataType") else [])
        ++ (if "Package" = own then outline.namespaces.map namespaceNode else [])
        ++ (if "Generalization" = own then outline.generalizations.map generalizationNode else [])
        ++ (if "Association" = own then outline.associations.map associationNode else []) := by
  simp [modelNode, declared_declaration, hmodel, hclass, declared_map declared_domainNode,
    declared_map declared_shortcutNode, declared_map (declared_namespaceNode hclass hproperty),
    declared_map declared_generalizationNode, declared_map declared_associationNode]

/-- The only model is inside the content of the document. -/
theorem model?_document (outline : Outline) :
    adapter.model? (document outline) = some (modelNode outline) := by
  show (document outline).descendants.find?
    (fun node => node.hasName "Model" && (node.attribute? "name").isSome) = _
  rw [document, find?_around (by rfl), find?_around (by rfl), find?_descendants (by rfl)]

theorem header_modelNode {outline : Outline} (h : outline.Fits .xmi) :
    adapter.header (modelNode outline) = .ok (outline.name, outline.label) := by
  have hplain : Plain [("alias", outline.label)] := plain_singleton (by decide) h.label
  show (do return (← Xmi.name (modelNode outline) "Model",
    (tags (modelNode outline)).text? "alias")) = _
  rw [modelNode, name_declaration _ _ h.name, ok_bind, declaration, text?_tagged hplain]
  simp only [held, ↓reduceIte, Option.or_none, tagText?_of_tidy h.label]
  rfl

theorem domainNodes_modelNode (outline : Outline) : adapter.domainNodes (modelNode outline) =
    outline.domains.map domainNode ++ outline.domainShortcuts.map (shortcutNode "DataType") := by
  show declared "xmi.id" "DataType" (modelNode outline) = _
  simp [declared_modelNode]

/-- The classes that a model owns itself are shortcuts. -/
theorem shortcutNodes_modelNode (outline : Outline) :
    adapter.shortcutNodes (modelNode outline) =
      outline.classShortcuts.map (shortcutNode "Class") := by
  show (modelNode outline).nested "Namespace.ownedElement" "Class" = _
  rw [modelNode, declaration, tagged, nested_build]
  simp [held, List.filter_map, Function.comp_def, domainNode, shortcutNode, namespaceNode,
    generalizationNode, associationNode, declaration, tagged]

theorem classNodes_namespaceNode (n : Outline.Namespace) :
    adapter.classNodes (namespaceNode n) = n.classes.map classNode := by
  show (namespaceNode n).nested "Namespace.ownedElement" "Class" = _
  rw [namespaceNode, declaration, tagged, nested_build]
  simp [held, classNode, declaration, tagged]

theorem propertyNodes_classNode (c : Outline.Class) :
    adapter.propertyNodes (classNode c) = c.properties.map propertyNode := by
  show (classNode c).nested "Classifier.feature" "Attribute" = _
  rw [classNode, declaration, tagged, nested_build]
  simp [held, propertyNode, declaration, tagged]

def writer : Writer where
  modelNode := modelNode
  domainNode := domainNode
  domainShortcutNode := shortcutNode "DataType"
  classShortcutNode := shortcutNode "Class"
  namespaceNode := namespaceNode
  classNode := classNode
  propertyNode := propertyNode
  generalizationNode := generalizationNode
  associationNode := associationNode

/-- Everything above, put together as the walk needs it. -/
theorem readBy_adapter : writer.ReadBy adapter .xmi where
  domainNodes := domainNodes_modelNode
  shortcutNodes := shortcutNodes_modelNode
  namespaceNodes outline := by
    show declared "xmi.id" "Package" (modelNode outline) = _
    simp [declared_modelNode, writer]
  classNodes := classNodes_namespaceNode
  propertyNodes := propertyNodes_classNode
  generalizationNodes outline := by
    show declared "xmi.id" "Generalization" (modelNode outline) = _
    simp [declared_modelNode, writer]
  associationNodes outline := by
    show declared "xmi.id" "Association" (modelNode outline) = _
    simp [declared_modelNode, writer]
  header := header_modelNode
  domain := domain_domainNode
  domainShortcut := domain_shortcutNode
  classShortcut := classHeader_shortcutNode
  namespaceHeader := namespaceHeader_namespaceNode
  classHeader := classHeader_classNode
  property := property_propertyNode
  generalization := generalization_generalizationNode
  association := association_associationNode

end ModelSchema.Interchange.Xmi
