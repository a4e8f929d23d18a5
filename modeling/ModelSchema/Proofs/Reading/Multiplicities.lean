import ModelSchema.Proofs.Interchange.FieldTexts
import ModelSchema.Proofs.Reading.Origin

/-!
# Which multiplicities have a meaning

A spelling is brought to `lower..upper` first, and parsed after that. `Denotes` says of the
spelling itself what it means: it is `1` or a sign for "many", or has two bounds around its first
`..`. Nothing else has a meaning (`parse?_normalize_iff`).

A property is required if its multiplicity has the normal text of "exactly one". In a graph that is
read, the values of a class come from the elements of its properties, in order, and those are
required whose element spells this (`Spelled`).
-/

namespace ModelSchema

namespace Multiplicity

/-! ## The first dots -/

/-- A text is cut at its first `..`: none begins before. -/
structure FirstDots (text before after : List Char) : Prop where
  split : text = before ++ '.' :: '.' :: after
  first : ¬ ['.', '.'] <:+: before ++ ['.']

/-- A text that begins with dots is cut there. With one of them before the cut, the two would begin
earlier. -/
theorem firstDots_dots_iff {rest before after : List Char} :
    FirstDots ('.' :: '.' :: rest) before after ↔ before = [] ∧ after = rest := by
  constructor
  · rintro ⟨hsplit, hfirst⟩
    rcases before with _ | ⟨a, _ | ⟨b, before⟩⟩
    · cases hsplit
      exact ⟨rfl, rfl⟩
    · cases hsplit
      exact absurd (List.infix_refl _) hfirst
    · cases hsplit
      exact absurd ⟨[], before ++ ['.'], rfl⟩ hfirst
  · rintro ⟨rfl, rfl⟩
    exact ⟨rfl, fun hinfix => absurd hinfix.length_le (by simp)⟩

/-- Any other character goes to what stands before the cut. -/
theorem firstDots_cons_iff {c : Char} {rest before after : List Char}
    (hdots : ∀ later, c = '.' → rest ≠ '.' :: later) :
    FirstDots (c :: rest) before after ↔
      ∃ lower, before = c :: lower ∧ FirstDots rest lower after := by
  constructor
  · rintro ⟨hsplit, hfirst⟩
    cases before with
    | nil =>
        cases hsplit
        exact absurd rfl (hdots after rfl)
    | cons d lower =>
        cases hsplit
        exact ⟨lower, rfl, rfl, fun hinfix => hfirst (List.infix_cons_iff.mpr (.inr hinfix))⟩
  · rintro ⟨lower, rfl, rfl, hfirst⟩
    refine ⟨rfl, fun hinfix => ?_⟩
    rw [List.cons_append, List.infix_cons_iff] at hinfix
    rcases hinfix with ⟨tail, htail⟩ | hinfix
    · -- The second of two leading dots is in what was cut or follows it.
      rw [List.cons_append, List.cons.injEq] at htail
      cases lower with
      | nil => exact hdots ('.' :: after) htail.1.symm rfl
      | cons d lower =>
          cases htail.2
          exact hdots (lower ++ '.' :: '.' :: after) htail.1.symm rfl
    · exact hfirst hinfix

/-- `splitBounds?` cuts at the first dots. `FirstDots` says so without going through the text; three
dots in a row are cut after the first two. -/
theorem splitBounds?_eq_some_iff {text before after : List Char} :
    splitBounds? text = some (before, after) ↔ FirstDots text before after := by
  -- Along the recursion: at dots, before them, and at the end.
  fun_induction splitBounds? text generalizing before with
  | case1 rest =>
      rw [firstDots_dots_iff, Option.some.injEq, Prod.mk.injEq, eq_comm, eq_comm (a := rest)]
  | case2 c rest hdots ih =>
      rw [firstDots_cons_iff hdots]
      simp only [← ih, Option.map_eq_some_iff, Prod.exists, Prod.mk.injEq]
      constructor
      · rintro ⟨lower, _, hlower, rfl, rfl⟩
        exact ⟨lower, rfl, hlower⟩
      · rintro ⟨lower, rfl, hlower⟩
        exact ⟨lower, after, hlower, rfl, rfl⟩
  | case3 =>
      refine iff_of_false (by simp) fun h => ?_
      have hsplit := h.split
      simp at hsplit

/-! ## Bounds -/

def lowerBounds : List String := ["0", "1", "*", "n", "N"]

def upperBounds : List String := ["1", "*", "n", "N"]

theorem isUnbounded_iff {bound : String} :
    isUnbounded bound = true ↔ bound = "*" ∨ bound = "n" ∨ bound = "N" := by
  simp [isUnbounded, or_assoc]

/-- The lower bounds that `normalize` brings to `0` or `1`. -/
theorem lower_eq_iff {bound : String} {isRequired : Bool} :
    (if isUnbounded bound then "0" else bound) = (if isRequired then "1" else "0") ↔
      bound ∈ lowerBounds ∧ (isRequired = true ↔ bound = "1") := by
  by_cases h : isUnbounded bound = true
  · rw [if_pos h]
    rcases isUnbounded_iff.mp h with rfl | rfl | rfl <;> cases isRequired <;> decide
  · rw [if_neg h]
    rw [isUnbounded_iff, not_or, not_or] at h
    cases isRequired <;> simp [lowerBounds, h] <;> grind

/-- The upper bounds that it brings to `1` or `N`. Unlike among the lower ones, `0` is none of them.
-/
theorem upper_eq_iff {bound : String} {isMany : Bool} :
    (if isUnbounded bound then "N" else bound) = (if isMany then "N" else "1") ↔
      bound ∈ upperBounds ∧ (isMany = true ↔ bound ≠ "1") := by
  by_cases h : isUnbounded bound = true
  · rw [if_pos h]
    rcases isUnbounded_iff.mp h with rfl | rfl | rfl <;> cases isMany <;> decide
  · rw [if_neg h]
    rw [isUnbounded_iff, not_or, not_or] at h
    cases isMany <;> simp [upperBounds, h]

theorem text_eq (m : Multiplicity) :
    m.text = (if m.isRequired then "1" else "0") ++ ".." ++ (if m.isMany then "N" else "1") := by
  cases m <;> rfl

/-- A text with one character before and one after the dots is cut at these dots only. -/
theorem append_dots_eq_iff {lower upper : List Char} {a b : Char} (ha : a ≠ '.') (hb : b ≠ '.') :
    lower ++ '.' :: '.' :: upper = [a, '.', '.', b] ↔ lower = [a] ∧ upper = [b] := by
  constructor
  · intro h
    rcases lower with _ | ⟨first, _ | ⟨second, lower⟩⟩
    · cases h
      exact absurd rfl ha
    · cases h
      exact ⟨rfl, rfl⟩
    · -- Dots further on would leave no place for the upper bound.
      have hlength := congrArg List.length h
      simp only [List.cons_append, List.length_cons, List.length_append, List.length_nil] at hlength
      obtain rfl : lower = [] := List.length_eq_zero_iff.mp (by omega)
      cases h
      exact absurd rfl hb
  · rintro ⟨rfl, rfl⟩
    rfl

/-- A normal spelling is that of a multiplicity exactly if both bounds are. The bounds of the four
texts have no dots, so the text tells its bounds. -/
theorem normalize_eq_text_iff {s : String} {m : Multiplicity} :
    normalize s = m.text ↔
      (normalBounds s).1 = (if m.isRequired then "1" else "0") ∧
        (normalBounds s).2 = (if m.isMany then "N" else "1") := by
  have htext : ∃ a b : Char, a ≠ '.' ∧ b ≠ '.' ∧
      (if m.isRequired then "1" else "0") = String.ofList [a] ∧
      (if m.isMany then "N" else "1") = String.ofList [b] := by
    cases m
    · exact ⟨'0', '1', by decide, by decide, rfl, rfl⟩
    · exact ⟨'1', '1', by decide, by decide, rfl, rfl⟩
    · exact ⟨'0', 'N', by decide, by decide, rfl, rfl⟩
    · exact ⟨'1', 'N', by decide, by decide, rfl, rfl⟩
  obtain ⟨a, b, ha, hb, hlower, hupper⟩ := htext
  rw [normalize_eq, text_eq, hlower, hupper, ← String.toList_inj, ← String.toList_inj,
    ← String.toList_inj]
  simpa [String.toList_append] using append_dots_eq_iff ha hb

/-- `parse?` knows exactly the four texts, blanks around them ignored. -/
theorem parse?_eq_some_iff {s : String} {m : Multiplicity} :
    parse? s = some m ↔ Text.trim s = m.text := by
  constructor
  · intro h
    rw [parse?] at h
    split at h
    · next htrim => cases h; exact htrim
    · next htrim => cases h; exact htrim
    · next htrim => cases h; exact htrim
    · next htrim => cases h; exact htrim
    · cases h
  · intro h
    rw [parse?, h]
    cases m <;> rfl

/-- What is understood of a normal spelling, by its bounds. -/
theorem parse?_normalize_iff_bounds {s : String} {m : Multiplicity} :
    parse? (normalize s) = some m ↔
      ((bounds s).1 ∈ lowerBounds ∧ (m.isRequired = true ↔ (bounds s).1 = "1")) ∧
        (bounds s).2 ∈ upperBounds ∧ (m.isMany = true ↔ (bounds s).2 ≠ "1") := by
  rw [parse?_eq_some_iff, (tidy_normalize s).2, normalize_eq_text_iff, normalBounds, lower_eq_iff,
    upper_eq_iff]

/-! ## The grammar -/

/-- The meaning of a spelling. -/
inductive Denotes (s : String) : Multiplicity → Prop
  /-- A single `1` counts as both bounds. -/
  | one (h : Text.trim s = "1") : Denotes s .exactlyOne
  /-- So does a sign for "many", which is `0` as lower bound. -/
  | many (h : Text.trim s ∈ ["*", "n", "N"]) : Denotes s .zeroOrMany
  /-- Two bounds stand around the first dots, blanks around them ignored. -/
  | range {m : Multiplicity} {before after : List Char}
      (hdots : FirstDots (Text.trim s).toList before after)
      (hlower : Text.trim (String.ofList before) ∈ lowerBounds)
      (hupper : Text.trim (String.ofList after) ∈ upperBounds)
      (hrequired : m.isRequired = true ↔ Text.trim (String.ofList before) = "1")
      (hmany : m.isMany = true ↔ Text.trim (String.ofList after) ≠ "1") : Denotes s m

/-- `Denotes` is the grammar that `normalize` followed by `parse?` accepts, with the meaning of each
spelling. -/
theorem parse?_normalize_iff {s : String} {m : Multiplicity} :
    parse? (normalize s) = some m ↔ Denotes s m := by
  rw [parse?_normalize_iff_bounds]
  cases hsplit : splitBounds? (Text.trim s).toList with
  | none =>
      -- Without dots one text is both bounds, and `0` is no upper bound.
      have hbounds : bounds s = (Text.trim s, Text.trim s) := by rw [bounds]; simp only [hsplit]
      rw [hbounds]
      constructor
      · rintro ⟨⟨-, hrequired⟩, hupper, hmany⟩
        by_cases hone : Text.trim s = "1"
        · obtain rfl : m = .exactlyOne := by cases m <;> simp_all [isRequired, isMany, isSingle]
          exact .one hone
        · obtain rfl : m = .zeroOrMany := by cases m <;> simp_all [isRequired, isMany, isSingle]
          refine .many ?_
          simpa [upperBounds, hone] using hupper
      · intro h
        cases h with
        | one h => rw [h]; decide
        | many h =>
            simp only [List.mem_cons, List.not_mem_nil, or_false] at h
            rcases h with h | h | h <;> rw [h] <;> decide
        | range hdots =>
            rw [splitBounds?_eq_some_iff.mpr hdots] at hsplit
            cases hsplit
  | some parts =>
      have hbounds : bounds s = (Text.trim (String.ofList parts.1),
          Text.trim (String.ofList parts.2)) := by rw [bounds]; simp only [hsplit]
      rw [hbounds]
      constructor
      · rintro ⟨⟨hlower, hrequired⟩, hupper, hmany⟩
        exact .range (splitBounds?_eq_some_iff.mp hsplit) hlower hupper hrequired hmany
      · intro h
        cases h with
        | one h =>
            rw [h] at hsplit
            cases hsplit
        | many h =>
            simp only [List.mem_cons, List.not_mem_nil, or_false] at h
            rcases h with h | h | h <;> rw [h] at hsplit <;> cases hsplit
        | range hdots hlower hupper hrequired hmany =>
            rw [splitBounds?_eq_some_iff.mpr hdots, Option.some.injEq] at hsplit
            rw [← hsplit]
            exact ⟨⟨hlower, hrequired⟩, hupper, hmany⟩

end Multiplicity

/-! ## Elements of properties

From the elements of a document to the properties of its classes. Positions are what ties them
together, so the statements are about lists, by `List.Forall₂`. -/

namespace Interchange

open Xml (Node)

def codeText? : Format → Node → Option String
  | .objectModel, node => node.childText? "Code"
  | .xmi, node => node.attributeText? "name"

/-- The multiplicity that the element of a property spells, in one text or by its bounds. -/
def spelling? : Format → Node → Option String
  | .objectModel, node => node.childText? "Multiplicity"
  | .xmi, node =>
    match (Xmi.tags node).lookup "lowerbound", (Xmi.tags node).lookup "upperbound" with
    | some lower, some upper => some (lower ++ ".." ++ upper)
    | some bound, none | none, some bound => some bound
    | none, none => none

/-- The elements of the properties of a class, unless an element is not a class of its own. -/
def properties? (adapter : Adapter) (node : Node) : Option (List Node) :=
  match adapter.classHeader node with
  | .ok (.inl _) => some (adapter.propertyNodes node)
  | _ => none

/-- The elements of properties in a document, class by class. -/
def classElements (adapter : Adapter) (document : Node) : List (List Node) :=
  match adapter.model? document with
  | none => []
  | some model =>
    (adapter.namespaceNodes model).flatMap fun node =>
      (adapter.classNodes node).filterMap (properties? adapter)

section Elements

variable {adapter : Adapter} {node : Node}

/-- Elements give the properties of a class. -/
def Gives (adapter : Adapter) (nodes : List Node) (declared : Outline.Class) : Prop :=
  List.Forall₂ (fun node property => adapter.property node = .ok property) nodes
    declared.properties

/-- A class has as many properties as it has elements for them, in order. The same for namespaces
and documents follows, since all are read with `mapM`. -/
theorem gives_classEntry {entry : Outline.Class ⊕ Outline.Shortcut}
    (h : adapter.classEntry node = .ok entry) :
    Option.Rel (Gives adapter) (properties? adapter node) entry.getLeft? := by
  obtain ⟨header, hheader, h⟩ := bind_eq_ok_iff.mp h
  rw [properties?, hheader]
  cases header with
  | inl declared =>
      obtain ⟨properties, hproperties, h⟩ := bind_eq_ok_iff.mp h
      cases h
      exact .some (forall₂_of_mapM hproperties)
  | inr shortcut =>
      cases h
      exact .none

/-- Shortcuts stand among the classes of a namespace; they are left out on both sides. -/
theorem gives_namespaceEntry {entry : Outline.Namespace × List Outline.Shortcut}
    (h : adapter.namespaceEntry node = .ok entry) :
    List.Forall₂ (Gives adapter) ((adapter.classNodes node).filterMap (properties? adapter))
      entry.1.classes := by
  obtain ⟨header, -, h⟩ := bind_eq_ok_iff.mp h
  obtain ⟨entries, hentries, h⟩ := bind_eq_ok_iff.mp h
  cases h
  exact List.rel_filterMap (fun node entry hentry => gives_classEntry hentry)
    (forall₂_of_mapM hentries)

theorem gives_extract {document : Node} {outline : Outline}
    (h : adapter.extract document = .ok outline) :
    List.Forall₂ (Gives adapter) (classElements adapter document)
      (outline.namespaces.flatMap (·.classes)) := by
  cases hmodel : adapter.model? document with
  | none =>
      rw [Adapter.extract, hmodel] at h
      cases h
  | some model =>
      rw [Adapter.extract, hmodel] at h
      rw [classElements, hmodel]
      obtain ⟨header, -, h⟩ := bind_eq_ok_iff.mp h
      obtain ⟨domains, -, h⟩ := bind_eq_ok_iff.mp h
      obtain ⟨outer, -, h⟩ := bind_eq_ok_iff.mp h
      obtain ⟨entries, hentries, h⟩ := bind_eq_ok_iff.mp h
      obtain ⟨generalizations, -, h⟩ := bind_eq_ok_iff.mp h
      obtain ⟨associations, -, h⟩ := bind_eq_ok_iff.mp h
      cases h
      rw [List.flatMap_map]
      exact List.rel_flatMap (forall₂_of_mapM hentries) fun node entry hentry =>
        gives_namespaceEntry hentry

/-- A required field is there, or reading stops. -/
theorem require_eq_ok_iff {α : Type} {element field : String} {value? : Option α} {value : α} :
    require element field value? = .ok value ↔ value? = some value := by
  cases value? <;> simp [require]

/-- A declared property has the code of its element, and the normal form of what it spells. -/
theorem spelled_property {format : Format} {declared : Outline.Property}
    (h : (Reading.adapterOf format).property node = .ok declared) :
    codeText? format node = some declared.code ∧
      declared.multiplicity = (spelling? format node).map Multiplicity.normalize := by
  cases format with
  | objectModel =>
      obtain ⟨id, -, h⟩ := bind_eq_ok_iff.mp h
      obtain ⟨code, hcode, h⟩ := bind_eq_ok_iff.mp h
      cases h
      exact ⟨require_eq_ok_iff.mp hcode, rfl⟩
  | xmi =>
      obtain ⟨id, -, h⟩ := bind_eq_ok_iff.mp h
      obtain ⟨code, hcode, h⟩ := bind_eq_ok_iff.mp h
      cases h
      refine ⟨require_eq_ok_iff.mp hcode, ?_⟩
      simp only [Xmi.multiplicity?, spelling?]
      cases (Xmi.tags node).lookup "lowerbound" <;> cases (Xmi.tags node).lookup "upperbound" <;>
        rfl

end Elements

end Interchange

namespace Reading

open Interchange (Format)
open ModelSchema.Graph (Domain Property)
open Xml (Node)

/-- The elements of properties in a source, class by class, and the format to read them in. -/
def Source.classElements (source : Source) : List (Format × List Node) :=
  match Xml.parse? source.content with
  | none => []
  | some document =>
    (Interchange.classElements (adapterOf source.format) document).map (source.format, ·)

def Yields (elements : Format × List Node) (declared : Document × Outline.Class) : Prop :=
  Interchange.Gives (adapterOf elements.1) elements.2 declared.2

/-- A property shows its element. -/
structure Spelled (format : Format) (element : Node) (property : Property) : Prop where
  name : Interchange.codeText? format element = some property.name
  kind : property.kind = .primitive
  /-- Required means "exactly one". -/
  isRequired : property.isRequired = true ↔ ∃ s, Interchange.spelling? format element = some s ∧
    Multiplicity.parse? (Multiplicity.normalize s) = some .exactlyOne

/-- A source that can be read has a tree, and the adapter of its format has extracted the outline.
-/
theorem exists_of_outline {source : Source} {outline : Outline}
    (h : source.outline = .ok outline) :
    ∃ tree, Xml.parse? source.content = some tree ∧
      (adapterOf source.format).extract tree = .ok outline := by
  rw [Source.outline] at h
  split at h
  · cases h
  · next tree htree =>
    refine ⟨tree, htree, ?_⟩
    split at h
    · next hextract =>
      cases h
      exact hextract
    · cases h
    · cases h

/-- From elements to declared classes, for one source. -/
theorem yields_document {source : Source} {document : Document}
    (h : source.document = .ok document) :
    List.Forall₂ Yields source.classElements
      ((document.outline.namespaces.flatMap (·.classes)).map (document, ·)) := by
  cases houtline : source.outline with
  | error cause =>
      rw [Source.document, houtline] at h
      cases h
  | ok outline =>
      rw [Source.document, houtline] at h
      cases h
      obtain ⟨tree, htree, hextract⟩ := exists_of_outline houtline
      rw [Source.classElements, htree, List.forall₂_map_left_iff, List.forall₂_map_right_iff]
      exact Interchange.gives_extract hextract

/-- Classes of documents, with or without their namespaces in between. -/
theorem declaredClasses_eq (documents : List Document) :
    declaredClasses documents = documents.flatMap fun document =>
      (document.outline.namespaces.flatMap (·.classes)).map (document, ·) := by
  simp [declaredClasses, classesOf, declaredNamespaces, List.flatMap_assoc, List.flatMap_map,
    List.map_flatMap]

theorem yields_documents {sources : List Source} {documents : List Document}
    (h : List.Forall₂ (fun source document => source.document = .ok document) sources documents) :
    List.Forall₂ Yields (sources.flatMap Source.classElements) (declaredClasses documents) := by
  rw [declaredClasses_eq]
  exact List.rel_flatMap h fun source document hdocument => yields_document hdocument

/-- `propertyOf` takes a property for required if its multiplicity has the text `1..1`. By
`parse?_eq_some_iff`, that is the text of `exactlyOne`. -/
theorem spelled_propertyOf {format : Format} {element : Node} {declared : Outline.Property}
    (h : (adapterOf format).property element = .ok declared) (domains : Catalog Domain)
    (scope : List (String × String)) (trigram : Option String) :
    Spelled format element (Assembly.propertyOf domains scope trigram declared) := by
  obtain ⟨hcode, hmultiplicity⟩ := Interchange.spelled_property h
  refine ⟨hcode, rfl, ?_⟩
  show (declared.multiplicity == some Multiplicity.exactlyOne.text) = true ↔ _
  rw [hmultiplicity, beq_iff_eq, Option.map_eq_some_iff]
  simp only [Multiplicity.parse?_eq_some_iff, (Multiplicity.tidy_normalize _).2]

/-- A multiplicity is understood exactly if it is spelled as one bound or two around the first dots,
and a value that is read is required exactly if its element spells "exactly one". -/
theorem multiplicity_grammar :
    (∀ s m, Multiplicity.parse? (Multiplicity.normalize s) = some m ↔
      Multiplicity.Denotes s m) ∧
    ∀ suffixes shared sources graph found,
      read suffixes shared sources = .ok (graph, found) →
        List.Forall₂ (fun elements id => ∃ own added,
            (graph.classAt id).properties = own ++ added ∧
            List.Forall₂ (Spelled elements.1) elements.2 own ∧
            ∀ property ∈ added, property.kind ≠ .primitive)
          (sources.flatMap Source.classElements) graph.classIds := by
  refine ⟨fun s m => Multiplicity.parse?_normalize_iff, ?_⟩
  intro suffixes shared sources graph found h
  obtain ⟨documents, hsources, hrun⟩ := read_eq_ok h
  have hclasses := Assembly.forall₂_classIds_of_run hrun fun id declared hdeclared =>
    Assembly.classAt_of_run hrun hdeclared
  refine (forall₂_comp (yields_documents hsources) hclasses).imp ?_
  rintro elements id ⟨declared, hdeclared, home, parent, added, hlinks, hclass⟩
  refine ⟨_, added, congrArg (·.properties) hclass, ?_, hlinks⟩
  rw [List.forall₂_map_right_iff]
  exact hdeclared.imp fun element property hproperty => spelled_propertyOf hproperty _ _ _

/-- A document with the bounds of properties in tags: two of them, only one, and none. -/
def bins : Source where
  path := "Stock.xmi"
  format := .xmi
  content :=
    "<XMI><Model name='Stock'><Package xmi.id='p' name='Bins'><Namespace.ownedElement>
      <Class xmi.id='c' name='Bin'><Classifier.feature>
        <Attribute xmi.id='i' name='Code'><ModelElement.taggedValue>
          <TaggedValue tag='lowerBound' value='1'/><TaggedValue tag='upperBound' value='1'/>
        </ModelElement.taggedValue></Attribute>
        <Attribute xmi.id='j' name='Label'><ModelElement.taggedValue>
          <TaggedValue tag='upperBound' value=' 1 '/>
        </ModelElement.taggedValue></Attribute>
        <Attribute xmi.id='k' name='Size'><ModelElement.taggedValue>
          <TaggedValue tag='lowerBound' value='n'/><TaggedValue tag='upperBound' value='1'/>
        </ModelElement.taggedValue></Attribute>
        <Attribute xmi.id='l' name='Place'/>
      </Classifier.feature></Class>
    </Namespace.ownedElement></Package></Model></XMI>"

def binOutline (id code : String) (multiplicity : Option String) : Outline.Property where
  id := id
  code := code
  comment := none
  dataType := none
  isPersistent := false
  multiplicity := multiplicity
  domain := none
  isPrimaryKey := false
  isUnique := false
  isUniqueMany := false
  isOrdered := false
  persistentCode := none
  persistentType := none

def binsOutline : Outline where
  name := "Stock"
  label := none
  domains := []
  domainShortcuts := []
  namespaces := [⟨"p", "Bins", none, none, none,
    [⟨"c", "Bin", none, none, none, false, none, none, none, false, false, false,
      [binOutline "i" "Code" (some "1..1"), binOutline "j" "Label" (some "1..1"),
        binOutline "k" "Size" (some "0..1"), binOutline "l" "Place" none]⟩]⟩]
  classShortcuts := []
  generalizations := []
  associations := []

set_option maxRecDepth 20000 in
theorem document_bins : bins.document = .ok ⟨"Stock.xmi", binsOutline⟩ := by
  rw [Source.document, Source.outline, show Xml.parse? bins.content = _ from parse?_ofList _]
  decide +kernel

theorem multiplicity_grammar_bins :
    (Multiplicity.parse? (Multiplicity.normalize " n .. 1 ") = some .zeroOrOne ↔
      Multiplicity.Denotes " n .. 1 " .zeroOrOne) ∧
    ∃ graph found, read .standard [] [sample, bins] = .ok (graph, found) ∧
      List.Forall₂ (fun elements id => ∃ own added,
          (graph.classAt id).properties = own ++ added ∧
          List.Forall₂ (Spelled elements.1) elements.2 own ∧
          ∀ property ∈ added, property.kind ≠ .primitive)
        ([sample, bins].flatMap Source.classElements) graph.classIds ∧
      (graph.classAt 2).properties.map (·.isRequired) = [true, true, false, false] := by
  obtain ⟨graph, found, hread, hrequired⟩ := exists_read .standard []
    (.cons document_sample (.cons document_bins .nil))
    (P := fun graph _ =>
      (graph.classAt 2).properties.map (·.isRequired) == [true, true, false, false])
    (by decide +kernel)
  exact ⟨multiplicity_grammar.1 _ _, graph, found, hread,
    multiplicity_grammar.2 _ _ _ _ _ hread, beq_iff_eq.mp hrequired⟩

end Reading

end ModelSchema
