import ModelSchema.Interchange.Format
import ModelSchema.Proofs.Interchange.Elements
import ModelSchema.Proofs.Steps

/-!
# Outlines that can be written

An outline can be written in a format and read back if its texts are tidy, its multiplicities are in
normal form, and its properties name domains as the format does (`Outline.Fits`). The walk over a
document gives the outline if the adapter of the format reads what a writer writes, one declaration
at a time (`Writer.ReadBy.extract`).
-/

namespace ModelSchema

/-! ## Conditions

What reading does not keep is excluded: blanks around texts, empty texts, other spellings of
multiplicities, long numbers, and domains named in the way of the other format. For each kind of
declaration, `fields` lists its texts and `Fits` adds what else it needs. All of it can be decided.
-/

namespace Outline

open Interchange (Format)
open Text (TidyField)

/-- The text that a domain is named by. -/
def DomainRef.text : DomainRef → String
  | id s | code s => s

/-- Object models name domains by identifiers, XMI exports by codes. A reader cannot tell one from
the other by the text. -/
def DomainRef.IsOf : Format → DomainRef → Prop
  | .objectModel, id _ | .xmi, code _ => True
  | _, _ => False

instance : ∀ format ref, Decidable (DomainRef.IsOf format ref)
  | .objectModel, .id _ | .xmi, .code _ => isTrue trivial
  | .objectModel, .code _ | .xmi, .id _ => isFalse not_false

def Domain.fields (domain : Domain) : List (Option String) :=
  [domain.id, domain.code, domain.label, domain.dataType, domain.persistentType]

def Shortcut.fields (shortcut : Shortcut) : List (Option String) :=
  [shortcut.id, shortcut.code]

def Property.fields (property : Property) : List (Option String) :=
  [property.id, property.code, property.comment, property.dataType, property.multiplicity,
    property.domain.map DomainRef.text, property.persistentCode, property.persistentType]

def Class.fields (c : Class) : List (Option String) :=
  [c.id, c.code, c.label, c.comment, c.stereotype, c.persistentCode, c.trigram, c.storage]

def Namespace.fields (n : Namespace) : List (Option String) :=
  [n.id, n.code, n.label, n.comment, n.creator]

def Generalization.fields (g : Generalization) : List (Option String) :=
  [g.id, g.parent, g.child]

/-- The text fields of an association, but for its multiplicities. -/
def Association.fields (a : Association) : List (Option String) :=
  [a.id, a.code, a.name, a.a.classId, a.a.role, a.b.classId, a.b.role]

/-- A domain can be written: its numbers have 32 bits. -/
@[mk_iff] structure Domain.Fits (domain : Domain) : Prop where
  fields : ∀ field ∈ domain.fields, TidyField field
  length : ∀ n ∈ domain.length, n < 2 ^ 32
  precision : ∀ n ∈ domain.precision, n < 2 ^ 32

instance : DecidablePred Domain.Fits :=
  fun domain => decidable_of_iff' _ (Domain.fits_iff domain)

@[mk_iff] structure Shortcut.Fits (shortcut : Shortcut) : Prop where
  fields : ∀ field ∈ shortcut.fields, TidyField field

instance : DecidablePred Shortcut.Fits :=
  fun shortcut => decidable_of_iff' _ (Shortcut.fits_iff shortcut)

@[mk_iff] structure Property.Fits (format : Format) (property : Property) : Prop where
  fields : ∀ field ∈ property.fields, TidyField field
  multiplicity : ∀ m ∈ property.multiplicity, Multiplicity.normalize m = m
  domain : ∀ ref ∈ property.domain, ref.IsOf format

instance (format : Format) : DecidablePred (Property.Fits format) :=
  fun property => decidable_of_iff' _ (Property.fits_iff format property)

/-- A class can be written: it does not look like a shortcut. In an object model it cannot, as
shortcuts have elements of another name there. -/
@[mk_iff] structure Class.Fits (format : Format) (c : Class) : Prop where
  fields : ∀ field ∈ c.fields, TidyField field
  stereotype : format = .xmi → ∀ s ∈ c.stereotype, Text.equalsIgnoringCase s "shortcut" = false
  properties : ∀ property ∈ c.properties, property.Fits format

instance (format : Format) : DecidablePred (Class.Fits format) :=
  fun c => decidable_of_iff' _ (Class.fits_iff format c)

@[mk_iff] structure Namespace.Fits (format : Format) (n : Namespace) : Prop where
  fields : ∀ field ∈ n.fields, TidyField field
  classes : ∀ c ∈ n.classes, c.Fits format

instance (format : Format) : DecidablePred (Namespace.Fits format) :=
  fun n => decidable_of_iff' _ (Namespace.fits_iff format n)

@[mk_iff] structure Generalization.Fits (g : Generalization) : Prop where
  fields : ∀ field ∈ g.fields, TidyField field

instance : DecidablePred Generalization.Fits :=
  fun g => decidable_of_iff' _ (Generalization.fits_iff g)

/-- The multiplicity of an end, if it is not empty. -/
def End.multiplicity? (e : End) : Option String :=
  if e.multiplicity = "" then none else some e.multiplicity

/-- The multiplicity of an end can be written, or is left out. -/
def End.Fits (e : End) : Prop :=
  e.multiplicity = "" ∨ Multiplicity.normalize e.multiplicity = e.multiplicity

instance : DecidablePred End.Fits :=
  fun e => inferInstanceAs (Decidable (e.multiplicity = "" ∨ _))

/-- By `tidy_normalize`, so no condition on blanks is needed. -/
theorem End.Fits.tidy {e : End} (h : e.Fits) : TidyField e.multiplicity? := by
  unfold multiplicity?
  split
  · intro s hs
    cases hs
  · next hne =>
    rw [← h.resolve_left hne]
    exact (Multiplicity.tidy_normalize e.multiplicity).field

/-- A multiplicity that is left out is read as an empty one, and others are in normal form already.
-/
theorem End.Fits.normalize {e : End} (h : e.Fits) :
    (e.multiplicity?.map Multiplicity.normalize).getD "" = e.multiplicity := by
  unfold multiplicity?
  split
  · next hempty => exact hempty.symm
  · next hne => exact h.resolve_left hne

@[mk_iff] structure Association.Fits (a : Association) : Prop where
  fields : ∀ field ∈ a.fields, TidyField field
  first : a.a.Fits
  second : a.b.Fits

instance : DecidablePred Association.Fits :=
  fun a => decidable_of_iff' _ (Association.fits_iff a)

end Outline

/-- An outline can be written in a format. -/
@[mk_iff] structure Outline.Fits (format : Interchange.Format) (outline : Outline) : Prop where
  name : Text.TidyField outline.name
  label : Text.TidyField outline.label
  domains : ∀ domain ∈ outline.domains, domain.Fits
  domainShortcuts : ∀ shortcut ∈ outline.domainShortcuts, shortcut.Fits
  namespaces : ∀ n ∈ outline.namespaces, n.Fits format
  classShortcuts : ∀ shortcut ∈ outline.classShortcuts, shortcut.Fits
  generalizations : ∀ g ∈ outline.generalizations, g.Fits
  associations : ∀ a ∈ outline.associations, a.Fits

instance (format : Interchange.Format) : DecidablePred (Outline.Fits format) :=
  fun outline => decidable_of_iff' _ (Outline.fits_iff format outline)

/-! ## The walk

`Adapter.extract` asks an adapter where declarations are and how each is read. `Writer` is the
opposite, and `Writer.ReadBy` says that the two match, one kind of declaration at a time. The order
of the walk is dealt with once, for all formats. -/

namespace Interchange

open Xml (Node)

@[simp] theorem ok_bind {α β : Type} (value : α) (rest : α → Except Failure β) :
    (Except.ok value >>= rest) = rest value := rfl

namespace Adapter

/-- A list that is read without failure is read in two parts. -/
theorem mapM_append_ok {α : Type} {read : Node → Except Failure α} {first second : List Node}
    {left right : List α} (hfirst : first.mapM read = .ok left)
    (hsecond : second.mapM read = .ok right) :
    (first ++ second).mapM read = .ok (left ++ right) := by
  rw [List.mapM_append, hfirst, ok_bind, hsecond, ok_bind]
  rfl

/-- Declarations before shortcuts: `partition` takes them apart again. -/
theorem partition_append {α β : Type} (lefts : List α) (rights : List β) :
    partition (lefts.map .inl ++ rights.map .inr) = (lefts, rights) := by
  simp [partition, List.filterMap_map, Function.comp_def]

end Adapter

/-- How the declarations of an outline are written as elements. -/
structure Writer where
  /-- A model with all its declarations. -/
  modelNode : Outline → Node
  domainNode : Outline.Domain → Node
  domainShortcutNode : Outline.Shortcut → Node
  classShortcutNode : Outline.Shortcut → Node
  /-- A namespace with its classes. -/
  namespaceNode : Outline.Namespace → Node
  /-- A class with its properties. -/
  classNode : Outline.Class → Node
  propertyNode : Outline.Property → Node
  generalizationNode : Outline.Generalization → Node
  associationNode : Outline.Association → Node

/-- An adapter reads what a writer writes: it finds the elements of all declarations, and reads each
declaration from its element. -/
structure Writer.ReadBy (writer : Writer) (adapter : Adapter) (format : Format) : Prop where
  domainNodes (outline : Outline) : adapter.domainNodes (writer.modelNode outline) =
    outline.domains.map writer.domainNode ++ outline.domainShortcuts.map writer.domainShortcutNode
  shortcutNodes (outline : Outline) : adapter.shortcutNodes (writer.modelNode outline) =
    outline.classShortcuts.map writer.classShortcutNode
  namespaceNodes (outline : Outline) : adapter.namespaceNodes (writer.modelNode outline) =
    outline.namespaces.map writer.namespaceNode
  classNodes (n : Outline.Namespace) : adapter.classNodes (writer.namespaceNode n) =
    n.classes.map writer.classNode
  propertyNodes (c : Outline.Class) : adapter.propertyNodes (writer.classNode c) =
    c.properties.map writer.propertyNode
  generalizationNodes (outline : Outline) : adapter.generalizationNodes (writer.modelNode outline) =
    outline.generalizations.map writer.generalizationNode
  associationNodes (outline : Outline) : adapter.associationNodes (writer.modelNode outline) =
    outline.associations.map writer.associationNode
  header {outline : Outline} (h : outline.Fits format) :
    adapter.header (writer.modelNode outline) = .ok (outline.name, outline.label)
  domain {d : Outline.Domain} (h : d.Fits) : adapter.domain (writer.domainNode d) = .ok (.inl d)
  domainShortcut {s : Outline.Shortcut} (h : s.Fits) :
    adapter.domain (writer.domainShortcutNode s) = .ok (.inr s)
  classShortcut {s : Outline.Shortcut} (h : s.Fits) :
    adapter.classHeader (writer.classShortcutNode s) = .ok (.inr s)
  namespaceHeader {n : Outline.Namespace} (h : n.Fits format) :
    adapter.namespaceHeader (writer.namespaceNode n) = .ok { n with classes := [] }
  classHeader {c : Outline.Class} (h : c.Fits format) :
    adapter.classHeader (writer.classNode c) = .ok (.inl { c with properties := [] })
  property {p : Outline.Property} (h : p.Fits format) :
    adapter.property (writer.propertyNode p) = .ok p
  generalization {g : Outline.Generalization} (h : g.Fits) :
    adapter.generalization (writer.generalizationNode g) = .ok g
  association {a : Outline.Association} (h : a.Fits) :
    adapter.association (writer.associationNode a) = .ok a

namespace Writer.ReadBy

variable {writer : Writer} {adapter : Adapter} {format : Format}

/-- A class is read back with its properties. -/
theorem classEntry (hread : writer.ReadBy adapter format) {c : Outline.Class} (h : c.Fits format) :
    adapter.classEntry (writer.classNode c) = .ok (.inl c) := by
  have hproperties : (c.properties.map writer.propertyNode).mapM adapter.property =
      .ok c.properties :=
    mapM_map_self fun p hp => hread.property (h.properties p hp)
  rw [Adapter.classEntry, hread.classHeader h, ok_bind]
  dsimp only
  rw [hread.propertyNodes, hproperties]
  rfl

/-- A namespace is read back with its classes; none of them is a shortcut. -/
theorem namespaceEntry (hread : writer.ReadBy adapter format) {n : Outline.Namespace}
    (h : n.Fits format) : adapter.namespaceEntry (writer.namespaceNode n) = .ok (n, []) := by
  have hclasses : (n.classes.map writer.classNode).mapM adapter.classEntry =
      .ok (n.classes.map .inl) :=
    mapM_map_pure fun c hc => hread.classEntry (h.classes c hc)
  have hpartition := Adapter.partition_append n.classes ([] : List Outline.Shortcut)
  rw [List.map_nil, List.append_nil] at hpartition
  rw [Adapter.namespaceEntry, hread.namespaceHeader h, ok_bind, hread.classNodes, hclasses, ok_bind,
    hpartition]
  rfl

/-- An outline is read back from a document in which its model is found. -/
theorem extract (hread : writer.ReadBy adapter format) {document : Node} {outline : Outline}
    (hmodel : adapter.model? document = some (writer.modelNode outline))
    (h : outline.Fits format) : adapter.extract document = .ok outline := by
  have hdomains : (outline.domains.map writer.domainNode ++
      outline.domainShortcuts.map writer.domainShortcutNode).mapM adapter.domain =
        .ok (outline.domains.map .inl ++ outline.domainShortcuts.map .inr) :=
    Adapter.mapM_append_ok (mapM_map_pure fun d hd => hread.domain (h.domains d hd))
      (mapM_map_pure fun s hs => hread.domainShortcut (h.domainShortcuts s hs))
  have hshortcuts : (outline.classShortcuts.map writer.classShortcutNode).mapM adapter.classHeader =
      .ok (outline.classShortcuts.map .inr) :=
    mapM_map_pure fun s hs => hread.classShortcut (h.classShortcuts s hs)
  have hnamespaces : (outline.namespaces.map writer.namespaceNode).mapM adapter.namespaceEntry =
      .ok (outline.namespaces.map fun n => (n, [])) :=
    mapM_map_pure fun n hn => hread.namespaceEntry (h.namespaces n hn)
  have hgeneralizations : (outline.generalizations.map writer.generalizationNode).mapM
      adapter.generalization = .ok outline.generalizations :=
    mapM_map_self fun g hg => hread.generalization (h.generalizations g hg)
  have hassociations : (outline.associations.map writer.associationNode).mapM
      adapter.association = .ok outline.associations :=
    mapM_map_self fun a ha => hread.association (h.associations a ha)
  rw [Adapter.extract, hmodel]
  dsimp only
  rw [hread.header h, ok_bind, hread.domainNodes, hdomains, ok_bind, hread.shortcutNodes,
    hshortcuts, ok_bind, hread.namespaceNodes, hnamespaces, ok_bind, hread.generalizationNodes,
    hgeneralizations, ok_bind, hread.associationNodes, hassociations, ok_bind,
    Adapter.partition_append]
  -- All shortcuts to classes stand outside of the namespaces.
  have houter : (outline.classShortcuts.map
      (Sum.inr : _ → Outline.Class ⊕ Outline.Shortcut)).filterMap Sum.getRight? =
        outline.classShortcuts :=
    congrArg Prod.snd (Adapter.partition_append [] outline.classShortcuts)
  have hinner : (outline.namespaces.map fun n => (n, ([] : List Outline.Shortcut))).flatMap (·.2) =
      [] := by simp [List.flatMap_map]
  rw [houter, hinner, List.append_nil, List.map_map, Function.comp_def, List.map_id']
  rfl

end Writer.ReadBy

end Interchange

end ModelSchema
