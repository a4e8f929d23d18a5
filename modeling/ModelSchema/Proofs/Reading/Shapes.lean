import ModelSchema.Proofs.Reading.Origin

/-!
# Shapes of properties

Generators and checks look at a few fields of a property and take the others to fit. In a graph that
is read they do (`shaped_of_read`): a property is persistent exactly if it has a column name, and
then it becomes a column; only values are keys or carry other marks; and a reference is like the key
it refers to, and persistent like the class that holds it.

There are four ways to make a property, and each gives it this shape. Later links leave it alone,
for the fields of its class and of the class it refers to that matter here do not change.
-/

namespace ModelSchema.Reading

open ModelSchema.Graph (Domain Property)

/-- A reference of a class is like the primary key it refers to. -/
structure RefersToKey (graph : Graph) (c : Graph.Class) (target : ClassId) (property : Property) :
    Prop where
  key : ∃ key, (graph.classAt target).primaryKey? = some key ∧ property.domain = key.domain ∧
    property.dataType = key.dataType ∧ property.persistentType = key.persistentType
  isPersistent : property.isPersistent = c.isPersistent
  persistent : c.isPersistent = true → (graph.classAt target).isPersistent = true

/-- The fields of a property of a class fit together. -/
structure Shaped (graph : Graph) (c : Graph.Class) (property : Property) : Prop where
  column : property.column.isSome = true ↔ property.isPersistent = true
  isColumn : property.isColumn = true ↔ property.isPersistent = true
  /-- Lists of references are never persistent. -/
  list : ∀ target, property.kind = .referenceList target → property.isPersistent = false
  /-- Neither are children. -/
  child : ∀ target isCollection, property.kind = .composition target isCollection →
    property.isPersistent = false
  /-- Only values carry marks. -/
  marks : property.isPrimaryKey = true ∨ property.isUnique = true ∨ property.isUniqueMany = true ∨
    property.isOrdered = true → property.kind = .primitive
  reference : ∀ target, property.kind = .reference target → RefersToKey graph c target property

namespace Assembly

/-! ## The four ways to make a property -/

/-- A declared property has a column name exactly if it is persistent, and it is a value. -/
theorem shaped_propertyOf (graph : Graph) (c : Graph.Class) (domains : Catalog Domain)
    (scope : List (String × String)) (trigram : Option String) (declared : Outline.Property) :
    Shaped graph c (propertyOf domains scope trigram declared) := by
  refine ⟨?_, ?_, ?_, ?_, fun _ => rfl, ?_⟩
  · cases h : declared.isPersistent <;> simp [propertyOf, h]
  · cases h : declared.isPersistent <;>
      simp [propertyOf, Property.isColumn, Property.plain, h]
  · intro target hkind
    cases hkind
  · intro target isCollection hkind
    cases hkind
  · intro target hkind
    cases hkind

/-- A foreign key is persistent like its holder. The hypotheses are those of `Arises.reference`. -/
theorem shaped_foreignKeyOf {graph : Graph} {c : Graph.Class} {target : ClassId} {key : Property}
    (hkey : (graph.classAt target).primaryKey? = some key)
    (htarget : c.isPersistent = true → (graph.classAt target).isPersistent = true)
    (role : Option String) (isRequired : Bool) :
    Shaped graph c (foreignKeyOf c (graph.classAt target) key target role isRequired) := by
  refine ⟨?_, ?_, ?_, ?_, ?_, ?_⟩
  · cases h : c.isPersistent <;> simp [foreignKeyOf, h]
  · cases h : c.isPersistent <;> simp [foreignKeyOf, Property.isColumn, h]
  · intro other hkind
    cases hkind
  · intro other isCollection hkind
    cases hkind
  · intro hmark
    simp [foreignKeyOf, Property.plain] at hmark
  · intro other hkind
    cases hkind
    exact ⟨⟨key, hkey, rfl, rfl, rfl⟩, rfl, htarget⟩

/-- A property without column, mark and table is shaped if it is no reference. -/
theorem shaped_of_transient {graph : Graph} {c : Graph.Class} {property : Property}
    (hcolumn : property.column = none) (hpersistent : property.isPersistent = false)
    (hmarks : property.isPrimaryKey = false ∧ property.isUnique = false ∧
      property.isUniqueMany = false ∧ property.isOrdered = false)
    (hkind : ∀ target, property.kind ≠ .reference target) : Shaped graph c property where
  column := by simp [hcolumn, hpersistent]
  isColumn := by simp [Property.isColumn, hpersistent]
  list _ _ := hpersistent
  child _ _ _ := hpersistent
  marks hmark := by simp [hmarks] at hmark
  reference target htarget := absurd htarget (hkind target)

/-- A list of references and a child have no column and no marks. -/
theorem shaped_referenceListOf (graph : Graph) (c target : Graph.Class) (targetId : ClassId)
    (role : Option String) : Shaped graph c (referenceListOf target targetId role false) :=
  shaped_of_transient rfl rfl ⟨rfl, rfl, rfl, rfl⟩ fun other hkind => by cases hkind

theorem shaped_childOf (graph : Graph) (c child : Graph.Class) (childId : ClassId)
    (role : Option String) (isCollection : Bool) :
    Shaped graph c (childOf child childId role isCollection) :=
  shaped_of_transient rfl rfl ⟨rfl, rfl, rfl, rfl⟩ fun other hkind => by cases hkind

/-! ## Runs -/

/-- What a resolution adds to a class is shaped. -/
theorem shaped_of_effectOf {graph : Graph} {link : Link} {a b : Multiplicity}
    {owner : Option Side} {resolution : Association.Resolution}
    (hresolution : resolution ∈ Association.resolve (participant graph link.a a)
      (participant graph link.b b) owner) {id target : ClassId} {property : Property}
    (h : (effectOf graph link resolution).tie? = some (.property id target property)) :
    Shaped graph (graph.classAt id) property := by
  cases admits_of_mem_resolve (participantAt graph link a b) hresolution with
  | foreignKey holder hpersistent =>
      rw [isPersistent_participantAt, isPersistent_participantAt] at hpersistent
      simp only [effectOf] at h
      split at h
      · next key hkey =>
        cases h
        exact shaped_foreignKeyOf hkey hpersistent _ _
      · cases h
  | foreignKeyList =>
      cases h
      exact shaped_referenceListOf ..
  | composedChild owner =>
      cases h
      exact shaped_childOf ..
  | rejected holder reason => cases h

/-- By the cases of `origin_of_run`, in the final graph. -/
theorem shaped_of_run {suffixes : Naming.Suffixes} {shared : List Domain}
    {documents : List Document} {final : Assembly}
    (hrun : run suffixes shared documents = .ok final) {id : ClassId} {property : Property}
    (h : property ∈ (final.graph.classAt id).properties) :
    Shaped final.graph (final.graph.classAt id) property := by
  rcases origin_of_run hrun h with ⟨scope, declared, rfl⟩ |
    ⟨_, _, _, _, _, resolution, hresolution, heffect⟩
  · exact shaped_propertyOf ..
  · exact shaped_of_effectOf hresolution heffect

end Assembly

/-! ## Reading -/

/-- In a graph that is read, the fields of every property of every class fit together. -/
theorem shaped_of_read {suffixes : Naming.Suffixes} {shared : List Domain} {sources : List Source}
    {graph : Graph} {found : List Diagnostic}
    (h : read suffixes shared sources = .ok (graph, found)) :
    ∀ id, ∀ property ∈ (graph.classAt id).properties,
      Shaped graph (graph.classAt id) property := by
  intro id property hproperty
  obtain ⟨documents, -, hrun⟩ := read_eq_ok h
  exact Assembly.shaped_of_run hrun hproperty

/-- A document that builds on `sample`. It declares a domain that `sample` declares too, a class
that extends a class of `sample` and refers to it, and a class without table that owns and lists
instances of the first. -/
def depot : Source where
  path := "Depot.oom"
  format := .objectModel
  content :=
    "<Model><Code>Depot</Code>
      <Domains>
        <Domain Id='d'>
          <Code>Key</Code><DataType>long</DataType><PersistentDataType>int</PersistentDataType>
        </Domain>
        <Domain Id='e'>
          <Code>Label</Code><DataType>string</DataType><PersistentDataType>text</PersistentDataType>
        </Domain>
      </Domains>
      <Packages><Package Id='p'><Code>Storage</Code><Classes>
        <Class Id='x'>
          <Code>Article</Code><Persistent>1</Persistent><Trigram>ART</Trigram>
          <Attributes>
            <Attribute Id='i'>
              <Code>Id</Code><Persistent>1</Persistent><PrimaryIdentifier>1</PrimaryIdentifier>
              <Domain><Domain Ref='d'/></Domain>
            </Attribute>
            <Attribute Id='j'>
              <Code>Title</Code><Unique>1</Unique><Domain><Domain Ref='e'/></Domain>
            </Attribute>
          </Attributes>
        </Class>
        <Class Id='z'><Code>Basket</Code></Class>
        <Shortcut Id='y'><Code>Color</Code></Shortcut>
      </Classes></Package></Packages>
      <Generalizations><Generalization Id='g'>
        <Object1><Shortcut Ref='y'/></Object1><Object2><Class Ref='x'/></Object2>
      </Generalization></Generalizations>
      <Associations>
        <Association Id='r'>
          <RoleAMultiplicity>0..*</RoleAMultiplicity><RoleBMultiplicity>1..1</RoleBMultiplicity>
          <Object1><Class Ref='x'/></Object1><Object2><Shortcut Ref='y'/></Object2>
        </Association>
        <Association Id='l'>
          <RoleAMultiplicity>0..*</RoleAMultiplicity><RoleBMultiplicity>0..*</RoleBMultiplicity>
          <Object1><Class Ref='z'/></Object1><Object2><Class Ref='x'/></Object2>
        </Association>
        <Association Id='c'>
          <RoleAMultiplicity>1..1</RoleAMultiplicity><RoleBMultiplicity>0..*</RoleBMultiplicity>
          <RoleAIndicator>C</RoleAIndicator><RoleBName>Content</RoleBName>
          <Object1><Class Ref='z'/></Object1><Object2><Class Ref='x'/></Object2>
        </Association>
        <Association Id='t'>
          <RoleAMultiplicity>0..*</RoleAMultiplicity><RoleBMultiplicity>0..1</RoleBMultiplicity>
          <Object1><Class Ref='x'/></Object1><Object2><Class Ref='z'/></Object2>
        </Association>
      </Associations></Model>"

def depotOutline : Outline where
  name := "Depot"
  label := none
  domains := [⟨"d", "Key", none, some "long", some "int", none, none⟩,
    ⟨"e", "Label", none, some "string", some "text", none, none⟩]
  domainShortcuts := []
  namespaces := [⟨"p", "Storage", none, none, none,
    [⟨"x", "Article", none, none, none, true, none, some "ART", none, false, false, false,
        [⟨"i", "Id", none, none, true, none, some (.id "d"), true, false, false, false, none, none⟩,
          ⟨"j", "Title", none, none, false, none, some (.id "e"), false, true, false, false, none,
            none⟩]⟩,
      ⟨"z", "Basket", none, none, none, false, none, none, none, false, false, false, []⟩]⟩]
  classShortcuts := [⟨"y", "Color"⟩]
  generalizations := [⟨"g", "y", "x"⟩]
  associations := [
    ⟨"r", none, none, ⟨"x", "0..N", none⟩, ⟨"y", "1..1", none⟩, none⟩,
    ⟨"l", none, none, ⟨"z", "0..N", none⟩, ⟨"x", "0..N", none⟩, none⟩,
    ⟨"c", none, none, ⟨"z", "1..1", none⟩, ⟨"x", "0..N", some "Content"⟩, some .a⟩,
    ⟨"t", none, none, ⟨"x", "0..N", none⟩, ⟨"z", "0..1", none⟩, none⟩]

set_option maxRecDepth 20000 in
theorem document_depot : depot.document = .ok ⟨"Depot.oom", depotOutline⟩ := by
  rw [Source.document, Source.outline, show Xml.parse? depot.content = _ from parse?_ofList _]
  decide +kernel

/-- What holds of the graph assembled from the outlines holds of the one read from the texts. -/
theorem exists_read_depot (shared : List Domain) {P : Graph → List Diagnostic → Bool}
    (h : (Assembly.run .standard shared [⟨"Shop.oom", sampleOutline⟩,
      ⟨"Depot.oom", depotOutline⟩]).toOption.any
        (fun final => P final.graph final.diagnostics) = true) :
    ∃ graph found, read .standard shared [sample, depot] = .ok (graph, found) ∧
      P graph found = true :=
  exists_read .standard shared (.cons document_sample (.cons document_depot .nil)) h

theorem shaped_of_read_depot :
    ∃ graph found, read .standard [] [sample, depot] = .ok (graph, found) ∧
      (∀ id, ∀ property ∈ (graph.classAt id).properties,
        Shaped graph (graph.classAt id) property) ∧
      (graph.classAt 2).properties.map (·.kind) = [.primitive, .primitive, .reference 0] ∧
      (graph.classAt 2).properties.map (·.isPersistent) = [true, false, true] ∧
      (graph.classAt 3).properties.map (·.kind) = [.referenceList 2, .composition 2 true] := by
  obtain ⟨graph, found, hread, hkinds⟩ := exists_read_depot []
    (P := fun graph _ =>
      (graph.classAt 2).properties.map (·.kind) == [.primitive, .primitive, .reference 0] &&
      (graph.classAt 2).properties.map (·.isPersistent) == [true, false, true] &&
      (graph.classAt 3).properties.map (·.kind) == [.referenceList 2, .composition 2 true])
    (by decide +kernel)
  simp only [Bool.and_eq_true, beq_iff_eq, and_assoc] at hkinds
  exact ⟨graph, found, hread, shaped_of_read hread, hkinds⟩

end ModelSchema.Reading
