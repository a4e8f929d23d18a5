import ModelSchema.Proofs.Check.Walk
import ModelSchema.Proofs.Graph.Ancestors
import ModelSchema.Proofs.Naming.Shapes

/-!
# The rules that a check decides

What is asked of models, domains, namespaces, classes and properties, said of a graph as a whole:
without a registry, without an order, and with the ancestors of a class in place of a walk along its
parents.
-/

namespace ModelSchema.Check

structure ModelRules (model : Graph.Model) : Prop where
  name : Naming.IsPascal model.name
  label : model.label.isSome = true

structure DomainRules (domain : Graph.Domain) : Prop where
  code : Naming.IsDomainCode domain.code
  dataType : domain.dataType.isSome = true
  persistentType : domain.persistentType.isSome = true
  precision : domain.precision.isSome = true → domain.length.isSome = true

structure NamespaceRules (suffixes : Naming.Suffixes) (space : Graph.Namespace) : Prop where
  name : Naming.IsDottedPascal space.name
  comment : space.comment.isSome = true
  suffix : suffixes.Known space.name

structure TransientRules (c : Graph.Class) : Prop where
  stereotype : c.stereotype = .plain
  isHistorized : c.isHistorized = false
  isAudited : c.isAudited = false
  isExportDelta : c.isExportDelta = false

structure PersistentRules (c : Graph.Class) : Prop where
  trigram : ∃ trigram, c.trigram = some trigram ∧ Naming.IsTrigram trigram
  key : ∃ property ∈ c.properties, property.isPrimaryKey = true

/-- What is asked of a class, wherever its table would be. `Relation.TransGen` takes the place of
the chain that `Graph.ancestors` collects. -/
structure ClassRules (graph : Graph) (id : ClassId) : Prop where
  comment : (graph.classAt id).comment.isSome = true
  label : (graph.classAt id).label.isSome = true
  name : Naming.IsPascal (graph.classAt id).name
  home : (graph.namespaceOf id).isPersistent = (graph.classAt id).isPersistent
  properties : ((graph.classAt id).properties.map (·.name)).Nodup
  uniqueMany : (graph.classAt id).properties.countP (·.isUniqueMany) ≠ 1
  ordered : (graph.classAt id).properties.countP (·.isOrdered) ≤ 1
  /-- Going from parent to parent ends. -/
  rooted : graph.Rooted id
  /-- No ancestor has a property of the same name. -/
  redeclared : ∀ ancestor, Relation.TransGen graph.IsParent id ancestor →
    ∀ own ∈ (graph.classAt id).properties, ∀ other ∈ (graph.classAt ancestor).properties,
      other.name ≠ own.name
  transient : (graph.classAt id).isPersistent = false → TransientRules (graph.classAt id)
  persistent : (graph.classAt id).isPersistent = true → PersistentRules (graph.classAt id)

/-- What is asked of the table of a persistent class. These rules depend on the engine, so they
stand apart from `PersistentRules`. -/
structure TableRules (engine : Sql.Engine) (c : Graph.Class) : Prop where
  parent : c.parent = none
  name : Naming.IsSqlIdentifier engine c.table

/-- What is asked of a property that is a value. -/
structure ValueRules (graph : Graph) (property : Graph.Property) : Prop where
  comment : property.comment.isSome = true
  /-- The domain is known, and of the same type. -/
  domain : ∃ domain, graph.domainOf? property = some domain ∧
    ∀ declared expected, property.dataType = some declared → domain.dataType = some expected →
      Text.lower declared = Text.lower expected

/-- What is asked of a property that is a column of a table. -/
structure ColumnRules (engine : Sql.Engine) (c : Graph.Class) (property : Graph.Property)
    (column : String) : Prop where
  name : Naming.IsSqlIdentifier engine column
  start : property.kind = .primitive → ∀ trigram, c.trigram = some trigram →
    (trigram ++ "_").toList <+: column.toList

/-- What is asked of a property of a class, as one record. The fields from `role` on ask about the
class itself and its ancestors; the code of the check has them in functions of their own. -/
structure PropertyRules (engine : Sql.Engine) (graph : Graph) (id : ClassId)
    (property : Graph.Property) : Prop where
  name : Naming.IsPascal property.name
  value : property.kind = .primitive → ValueRules graph property
  persistent : property.isPersistent = true → (graph.classAt id).isPersistent = true
  key : property.isPrimaryKey = true → (graph.classAt id).isPersistent = true →
    property.isPersistent = true ∧ property.isRequired = true
  column : ∀ column, property.column = some column → property.isColumn = true →
    (graph.classAt id).isPersistent = true →
      ColumnRules engine (graph.classAt id) property column
  /-- A reference to the class itself has a role. -/
  role : property.kind = .reference id ∨ property.kind = .referenceList id →
    property.role.isSome = true
  /-- A class does not own an instance of itself. -/
  composition : property.kind ≠ .composition id false
  /-- No ancestor refers to the same class in the same role. -/
  inherited : ∀ target, property.kind = .reference target →
    ∀ ancestor, Relation.TransGen graph.IsParent id ancestor →
      ∀ other ∈ (graph.classAt ancestor).properties,
        other.kind = .reference target → other.role ≠ property.role

/-! ## Elements

For each part of a check there is one lemma, which says when it finds nothing. They are all of the
form `part = [] ↔ rules`, so that they chain. -/

theorem model_eq_nil_iff {root : Graph.Model} : model root = [] ↔ ModelRules root := by
  simp only [model, List.append_eq_nil_iff, findIf_eq_nil_iff, Bool.not_eq_false',
    Naming.isPascal_iff, Option.isNone_eq_false_iff]
  exact ⟨fun h => ⟨h.1, h.2⟩, fun h => ⟨h.name, h.label⟩⟩

/-- The four findings of `domain` are the negated fields of `DomainRules`. -/
theorem domain_eq_nil_iff {found : Graph.Domain} : domain found = [] ↔ DomainRules found := by
  have hprecision : (found.precision.isSome && found.length.isNone) = false ↔
      (found.precision.isSome = true → found.length.isSome = true) := by
    cases found.precision <;> cases found.length <;> simp
  simp only [domain, List.append_eq_nil_iff, findIf_eq_nil_iff, Bool.not_eq_false',
    Naming.isDomainCode_iff, Option.isNone_eq_false_iff, hprecision]
  constructor
  · rintro ⟨⟨⟨hcode, hdata⟩, htype⟩, hlength⟩
    exact ⟨hcode, hdata, htype, hlength⟩
  · intro h
    exact ⟨⟨⟨h.code, h.dataType⟩, h.persistentType⟩, h.precision⟩

/-- Stated for the empty registry: that the name is free is said elsewhere, in `inTurn_eq_nil_iff`.
-/
theorem namespace_eq_nil_iff {suffixes : Naming.Suffixes} {space : Graph.Namespace} :
    Namespace.findings suffixes .empty space = [] ↔ NamespaceRules suffixes space := by
  have hduplicate : Namespace.duplicate .empty space = [] := rfl
  simp only [Namespace.findings, hduplicate, List.append_nil, List.append_eq_nil_iff,
    findIf_eq_nil_iff, Bool.not_eq_false', Naming.isDottedPascal_iff, Option.isNone_eq_false_iff,
    Naming.Suffixes.isKnown_iff]
  exact ⟨fun h => ⟨h.1.1, h.1.2, h.2⟩, fun h => ⟨⟨h.name, h.comment⟩, h.suffix⟩⟩

theorem transient_eq_nil_iff {c : Graph.Class} : Class.transient c = [] ↔ TransientRules c := by
  have hlist : c.stereotype.isList = false ↔ c.stereotype = .plain := by
    cases c.stereotype <;> simp [Stereotype.isList]
  simp only [Class.transient, List.append_eq_nil_iff, findIf_eq_nil_iff, hlist,
    Bool.or_eq_false_iff]
  constructor
  · rintro ⟨hlist, ⟨hhistory, haudit⟩, hexport⟩
    exact ⟨hlist, hhistory, haudit, hexport⟩
  · intro h
    exact ⟨h.stereotype, ⟨h.isHistorized, h.isAudited⟩, h.isExportDelta⟩

/-- The findings about a persistent class mix what is asked of the class with what is asked of its
table. Here the two are taken apart. -/
theorem persistent_eq_nil_iff {engine : Sql.Engine} {graph : Graph} {c : Graph.Class} :
    Class.persistent engine graph .empty c = [] ↔ PersistentRules c ∧ TableRules engine c := by
  have htrigram : Class.trigram .empty c = [] ↔
      ∃ trigram, c.trigram = some trigram ∧ Naming.IsTrigram trigram := by
    rw [Class.trigram]
    cases c.trigram with
    | none => simp
    | some trigram =>
        have hempty : Registry.empty.trigrams.get? trigram = none := rfl
        simp [hempty, findIf_eq_nil_iff, Naming.isTrigram_iff]
  have hkey : c.primaryKey?.isNone = false ↔
      ∃ property ∈ c.properties, property.isPrimaryKey = true := by
    rw [Option.isNone_eq_false_iff, Graph.Class.primaryKey?, List.find?_isSome]
  rw [Class.persistent, List.append_eq_nil_iff, List.append_eq_nil_iff, List.append_eq_nil_iff,
    htrigram, findIf_eq_nil_iff, hkey, findIf_eq_nil_iff, Bool.not_eq_false',
    Naming.isSqlIdentifier_iff]
  constructor
  · rintro ⟨⟨⟨htrigram, hkey⟩, hnone⟩, htable⟩
    refine ⟨⟨htrigram, hkey⟩, ?_, htable⟩
    cases hparent : c.parent with
    | none => rfl
    | some parent =>
        rw [hparent] at hnone
        cases hnone
  · rintro ⟨⟨htrigram, hkey⟩, hnone, htable⟩
    exact ⟨⟨⟨htrigram, hkey⟩, by rw [hnone]⟩, htable⟩

/-- The list of names that `Class.repetitions` has seen grows along the way, so the statement is
made for any such list. -/
theorem repetitions_eq_nil_iff {seen names : List String} :
    Class.repetitions seen names = [] ↔ names.Nodup ∧ ∀ name ∈ names, name ∉ seen := by
  induction names generalizing seen with
  | nil => simp [Class.repetitions]
  | cons name rest ih =>
      rw [Class.repetitions]
      split
      · next hseen => simp [hseen]
      · next hnew =>
        rw [ih, List.nodup_cons]
        simp only [List.mem_cons, not_or, forall_eq_or_imp, hnew, not_false_eq_true, true_and,
          forall_and]
        have hlater : (∀ other ∈ rest, other ≠ name) ↔ name ∉ rest :=
          ⟨fun h hmem => h name hmem rfl, fun h other hother heq => h (heq ▸ hother)⟩
        simp only [← ne_eq, hlater]
        tauto

theorem properties_eq_nil_iff {c : Graph.Class} :
    Class.properties c = [] ↔ (c.properties.map (·.name)).Nodup ∧
      c.properties.countP (·.isUniqueMany) ≠ 1 ∧ c.properties.countP (·.isOrdered) ≤ 1 := by
  simp only [Class.properties, List.append_eq_nil_iff, List.map_eq_nil_iff, repetitions_eq_nil_iff,
    findIf_eq_nil_iff, List.not_mem_nil, not_false_eq_true, implies_true, and_true,
    beq_eq_false_iff_ne, decide_eq_false_iff_not, not_lt, and_assoc]

/-- The step from the computed chain to the relation: `isCyclic_ancestors_iff` for the cycle, and
`mem_ancestors_iff` for the classes on the way up. -/
theorem ancestry_eq_nil_iff {graph : Graph} {id : ClassId} :
    Class.ancestry graph (graph.classAt id) (graph.ancestors id) = [] ↔
      graph.Rooted id ∧ ∀ ancestor, Relation.TransGen graph.IsParent id ancestor →
        ∀ own ∈ (graph.classAt id).properties, ∀ other ∈ (graph.classAt ancestor).properties,
          other.name ≠ own.name := by
  rw [Class.ancestry]
  split
  · next hcyclic =>
    have hnot : ¬ graph.Rooted id := by
      rw [← Graph.isCyclic_ancestors_iff, hcyclic]
      exact Bool.noConfusion
    simp [hnot]
  · next hrooted =>
    have hrooted := (Graph.isCyclic_ancestors_iff id).mp (Bool.eq_false_iff.mpr hrooted)
    simp only [hrooted, true_and, List.flatMap_eq_nil_iff, List.forall_mem_map,
      Graph.mem_ancestors_iff hrooted, Class.redeclared, List.map_eq_nil_iff,
      List.filter_eq_nil_iff, Graph.Class.property?, List.find?_isSome, beq_iff_eq, not_exists,
      not_and, ne_eq]

/-- Types are compared only if both are there, without regard to case. -/
theorem valueDomain_eq_nil_iff {graph : Graph} {c : Graph.Class} {property : Graph.Property} :
    Property.domain graph c property = [] ↔
      ∃ domain, graph.domainOf? property = some domain ∧
        ∀ declared expected, property.dataType = some declared →
          domain.dataType = some expected → Text.lower declared = Text.lower expected := by
  rw [Property.domain, Graph.domainOf?]
  cases property.domain with
  | none => simp
  | some code =>
      cases hfound : graph.domains.get? code with
      | none => simp [hfound]
      | some domain =>
          cases property.dataType <;> cases hexpected : domain.dataType <;>
            simp [hfound, hexpected, findIf_eq_nil_iff, Text.equalsIgnoringCase]

theorem persistence_eq_nil_iff {c : Graph.Class} {property : Graph.Property} :
    Property.persistence c property = [] ↔
      (property.isPersistent = true → c.isPersistent = true) ∧
        (property.isPrimaryKey = true → c.isPersistent = true →
          property.isPersistent = true ∧ property.isRequired = true) := by
  simp only [Property.persistence, List.append_eq_nil_iff, findIf_eq_nil_iff]
  cases property.isPersistent <;> cases c.isPersistent <;> cases property.isPrimaryKey <;>
    cases property.isRequired <;> simp

theorem isPrimitive_iff {property : Graph.Property} :
    property.isPrimitive = true ↔ property.kind = .primitive := by
  simp [Graph.Property.isPrimitive]

/-- Columns are looked at in persistent classes only, and the trigram in front only if the property
is a value. -/
theorem column_eq_nil_iff {engine : Sql.Engine} {c : Graph.Class} {property : Graph.Property} :
    Property.column engine c property = [] ↔
      ∀ column, property.column = some column → property.isColumn = true →
        c.isPersistent = true → ColumnRules engine c property column := by
  have hstart (column : String) : Property.columnStart c property column = [] ↔
      (property.kind = .primitive → ∀ trigram, c.trigram = some trigram →
        (trigram ++ "_").toList <+: column.toList) := by
    rw [Property.columnStart]
    cases c.trigram with
    | none => simp
    | some trigram =>
        simp [findIf_eq_nil_iff, ← isPrimitive_iff, Text.startsWith]
  rw [Property.column]
  cases property.column with
  | none => simp
  | some column =>
      have hrules : ColumnRules engine c property column ↔
          Naming.IsSqlIdentifier engine column ∧
            (property.kind = .primitive → ∀ trigram, c.trigram = some trigram →
              (trigram ++ "_").toList <+: column.toList) :=
        ⟨fun h => ⟨h.name, h.start⟩, fun h => ⟨h.1, h.2⟩⟩
      cases property.isColumn <;> cases c.isPersistent <;>
        simp [hrules, findIf_eq_nil_iff, Naming.isSqlIdentifier_iff, hstart]

theorem selfLink_eq_nil_iff {c : Graph.Class} {id : ClassId} {property : Graph.Property} :
    Property.selfLink c id property = [] ↔
      (property.kind = .reference id ∨ property.kind = .referenceList id →
        property.role.isSome = true) ∧ property.kind ≠ .composition id false := by
  rw [Property.selfLink]
  cases property.kind <;> simp [findIf_eq_nil_iff]

/-- If the class is not `Rooted`, the chain of ancestors is cut short and may miss one. On such a
class there is a finding anyway, by `ancestry_eq_nil_iff`. -/
theorem inherited_eq_nil_iff {graph : Graph} {c : Graph.Class} {id : ClassId}
    {property : Graph.Property} (hrooted : graph.Rooted id) :
    Property.inherited graph c id property = [] ↔
      ∀ target, property.kind = .reference target →
        ∀ ancestor, Relation.TransGen graph.IsParent id ancestor →
          ∀ other ∈ (graph.classAt ancestor).properties,
            other.kind = .reference target → other.role ≠ property.role := by
  have htarget (other : Graph.Property) (target : ClassId) :
      other.target? = some target ↔ other.kind = .reference target := by
    rw [Graph.Property.target?]
    cases other.kind <;> simp
  rw [Property.inherited]
  split
  · next hnone =>
    refine iff_of_true rfl fun target hkind => ?_
    rw [(htarget property target).mpr hkind] at hnone
    cases hnone
  · next target hsome =>
    have hheld : (((graph.ancestors id).chain.map graph.classAt).find?
        (Property.holdsReference · target property.role)) = none ↔
          ∀ ancestor, Relation.TransGen graph.IsParent id ancestor →
            ∀ other ∈ (graph.classAt ancestor).properties,
              other.kind = .reference target → other.role ≠ property.role := by
      simp [List.find?_eq_none, Graph.mem_ancestors_iff hrooted, Property.holdsReference,
        htarget]
    have honly (other : ClassId) : property.kind = .reference other ↔ target = other := by
      rw [← htarget, hsome, Option.some.injEq]
    simp only [honly, forall_eq', ← hheld]
    split
    · next hnone => exact iff_of_true rfl hnone
    · next ancestor hfound => simp only [hfound, List.cons_ne_nil, reduceCtorEq]

/-- The rules of `Property.check`, put together from its six parts. -/
theorem property_eq_nil_iff {engine : Sql.Engine} {graph : Graph} {id : ClassId}
    {property : Graph.Property} (hrooted : graph.Rooted id) :
    Property.check engine graph id (graph.ancestors id).isCyclic property = [] ↔
      PropertyRules engine graph id property := by
  have hcyclic := (Graph.isCyclic_ancestors_iff id).mpr hrooted
  have hvalue : (if property.isPrimitive then
      findIf property.comment.isNone
          (.report .missingComment (graph.classAt id).file
            ("Property " ++ Property.title (graph.classAt id) property ++ " has no comment"))
        ++ Property.domain graph (graph.classAt id) property
      else []) = [] ↔ (property.kind = .primitive → ValueRules graph property) := by
    rw [← isPrimitive_iff]
    split
    · next hprimitive =>
      rw [List.append_eq_nil_iff, findIf_eq_nil_iff, Option.isNone_eq_false_iff,
        valueDomain_eq_nil_iff]
      exact ⟨fun h _ => ⟨h.1, h.2⟩, fun h => ⟨(h hprimitive).comment, (h hprimitive).domain⟩⟩
    · next hother => exact iff_of_true rfl fun hprimitive => absurd hprimitive hother
  simp only [Property.check, List.append_eq_nil_iff, findIf_eq_nil_iff, Bool.not_eq_false',
    Naming.isPascal_iff, hvalue, persistence_eq_nil_iff, column_eq_nil_iff, selfLink_eq_nil_iff,
    hcyclic, Bool.false_eq_true, if_false, inherited_eq_nil_iff hrooted]
  constructor
  · rintro ⟨⟨⟨⟨⟨hname, hvalue⟩, hpersistent, hkey⟩, hcolumn⟩, hrole, hcomposition⟩, hinherited⟩
    exact ⟨hname, hvalue, hpersistent, hkey, hcolumn, hrole, hcomposition, hinherited⟩
  · intro h
    exact ⟨⟨⟨⟨⟨h.name, h.value⟩, h.persistent, h.key⟩, h.column⟩, h.role, h.composition⟩,
      h.inherited⟩

/-! ## Classes

A class is checked as a whole: the parts about its properties need to know that going up from it
ends. -/

/-- The rules of a class as the parts of its check give them. This is also how they are decided. -/
theorem classRules_iff {graph : Graph} {id : ClassId} :
    ((graph.classAt id).comment.isSome = true ∧ (graph.classAt id).label.isSome = true ∧
        Naming.IsPascal (graph.classAt id).name ∧
        (graph.namespaceOf id).isPersistent = (graph.classAt id).isPersistent) ∧
      Class.properties (graph.classAt id) = [] ∧
      Class.ancestry graph (graph.classAt id) (graph.ancestors id) = [] ∧
      ((graph.classAt id).isPersistent = false → TransientRules (graph.classAt id)) ∧
      ((graph.classAt id).isPersistent = true → PersistentRules (graph.classAt id)) ↔
    ClassRules graph id := by
  rw [properties_eq_nil_iff, ancestry_eq_nil_iff]
  constructor
  · rintro ⟨⟨hcomment, hlabel, hname, hhome⟩, ⟨hnames, hunique, hordered⟩, ⟨hrooted, hredeclared⟩,
      htransient, hpersistent⟩
    exact ⟨hcomment, hlabel, hname, hhome, hnames, hunique, hordered, hrooted, hredeclared,
      htransient, hpersistent⟩
  · intro h
    exact ⟨⟨h.comment, h.label, h.name, h.home⟩, ⟨h.properties, h.uniqueMany, h.ordered⟩,
      ⟨h.rooted, h.redeclared⟩, h.transient, h.persistent⟩

/-- The parts of `Class.findings` that do not depend on the registry. Ancestors come first: that the
class is `Rooted` is what the parts about properties need. -/
theorem class_eq_nil_iff {engine : Sql.Engine} {graph : Graph} {id : ClassId} :
    Class.findings engine graph .empty id = [] ↔
      ClassRules graph id ∧
        ((graph.classAt id).isPersistent = true → TableRules engine (graph.classAt id)) ∧
        ∀ property ∈ (graph.classAt id).properties, PropertyRules engine graph id property := by
  -- On the empty registry, no name is taken.
  have hduplicate : Class.duplicate .empty (graph.classAt id) = [] := rfl
  have hkind : (if (graph.classAt id).isPersistent then
      Class.persistent engine graph .empty (graph.classAt id)
      else Class.transient (graph.classAt id)) = [] ↔
        ((graph.classAt id).isPersistent = false → TransientRules (graph.classAt id)) ∧
        ((graph.classAt id).isPersistent = true → PersistentRules (graph.classAt id)) ∧
        ((graph.classAt id).isPersistent = true → TableRules engine (graph.classAt id)) := by
    cases (graph.classAt id).isPersistent with
    | false => simp [transient_eq_nil_iff]
    | true => simp [persistent_eq_nil_iff]
  simp only [Class.findings, Class.documentation, Class.identity, hduplicate,
    List.append_nil, List.append_eq_nil_iff, findIf_eq_nil_iff, Option.isNone_eq_false_iff,
    Bool.not_eq_false', Naming.isPascal_iff, bne_eq_false_iff_eq, hkind, List.flatMap_eq_nil_iff]
  constructor
  · rintro ⟨⟨⟨⟨⟨⟨hcomment, hlabel⟩, hname, hhome⟩, htransient, hpersistent, htable⟩, hproperties⟩,
      hancestry⟩, hchecks⟩
    have hrules := classRules_iff.mp
      ⟨⟨hcomment, hlabel, hname, hhome⟩, hproperties, hancestry, htransient, hpersistent⟩
    exact ⟨hrules, htable, fun property hproperty =>
      (property_eq_nil_iff hrules.rooted).mp (hchecks property hproperty)⟩
  · rintro ⟨hrules, htable, hchecks⟩
    obtain ⟨⟨hcomment, hlabel, hname, hhome⟩, hproperties, hancestry, htransient, hpersistent⟩ :=
      classRules_iff.mpr hrules
    exact ⟨⟨⟨⟨⟨⟨hcomment, hlabel⟩, hname, hhome⟩, htransient, hpersistent, htable⟩, hproperties⟩,
      hancestry⟩, fun property hproperty =>
        (property_eq_nil_iff hrules.rooted).mpr (hchecks property hproperty)⟩

/-! ## Deciding rules

The rules are decided by running the check on the empty registry, so a sample can be tested against
them. -/

instance : DecidablePred ModelRules :=
  fun _ => decidable_of_iff _ model_eq_nil_iff

instance : DecidablePred DomainRules :=
  fun _ => decidable_of_iff _ domain_eq_nil_iff

instance (suffixes : Naming.Suffixes) : DecidablePred (NamespaceRules suffixes) :=
  fun _ => decidable_of_iff _ namespace_eq_nil_iff

instance : DecidablePred TransientRules :=
  fun _ => decidable_of_iff _ transient_eq_nil_iff

instance : DecidablePred PersistentRules :=
  fun c => decidable_of_iff
    ((c.trigram.any fun trigram => decide (Naming.IsTrigram trigram)) = true ∧
      ∃ property ∈ c.properties, property.isPrimaryKey = true)
    ⟨fun h => ⟨by simpa [Option.any_eq_true] using h.1, h.2⟩,
      fun h => ⟨by simpa [Option.any_eq_true] using h.trigram, h.key⟩⟩

instance (graph : Graph) : DecidablePred (ClassRules graph) :=
  fun _ => decidable_of_iff _ classRules_iff

/-! ## Graphs -/

/-- What is asked of the elements of a graph, as far as the given classes are concerned. -/
structure ElementRules (suffixes : Naming.Suffixes) (graph : Graph) (ids : List ClassId) :
    Prop where
  models : ∀ root ∈ graph.models, ModelRules root
  domains : ∀ domain ∈ graph.domains.values, DomainRules domain
  namespaces : ∀ space ∈ graph.namespaces, NamespaceRules suffixes space
  namespaceNames : (graph.namespaces.map (·.name)).Nodup
  classes : ∀ id ∈ ids, ClassRules graph id
  classNames : (ids.map fun id => (graph.classAt id).name).Nodup
  /-- No two persistent classes have the same trigram. -/
  trigrams : (ids.filterMap (claimed? graph)).Nodup

instance (suffixes : Naming.Suffixes) (graph : Graph) (ids : List ClassId) :
    Decidable (ElementRules suffixes graph ids) :=
  decidable_of_iff
    ((∀ root ∈ graph.models, ModelRules root) ∧
      (∀ domain ∈ graph.domains.values, DomainRules domain) ∧
      (∀ space ∈ graph.namespaces, NamespaceRules suffixes space) ∧
      (graph.namespaces.map (·.name)).Nodup ∧ (∀ id ∈ ids, ClassRules graph id) ∧
      (ids.map fun id => (graph.classAt id).name).Nodup ∧
      (ids.filterMap (claimed? graph)).Nodup)
    ⟨fun h => ⟨h.1, h.2.1, h.2.2.1, h.2.2.2.1, h.2.2.2.2.1, h.2.2.2.2.2.1, h.2.2.2.2.2.2⟩,
      fun h => ⟨h.models, h.domains, h.namespaces, h.namespaceNames, h.classes, h.classNames,
        h.trigrams⟩⟩

/-- What is asked of tables and properties, as far as the given classes are concerned. Together with
`ElementRules` this is all that a check asks. -/
structure MappingRules (engine : Sql.Engine) (graph : Graph) (ids : List ClassId) : Prop where
  tables : ∀ id ∈ ids, (graph.classAt id).isPersistent = true →
    TableRules engine (graph.classAt id)
  properties : ∀ id ∈ ids, ∀ property ∈ (graph.classAt id).properties,
    PropertyRules engine graph id property

/-- A check has no findings exactly if the rules hold, as far as the classes are concerned that are
not skipped. The walk and its registry are gone: `inTurn_eq_nil_iff` turns it into one condition for
each visit, and `claims` into lists of names without repetition. -/
theorem run_eq_nil_iff {options : Options} {graph : Graph} (hgraph : graph.WellFormed) :
    (run options graph).1 = [] ↔
      ElementRules options.suffixes graph (checkedIds options graph) ∧
        MappingRules options.engine graph (checkedIds options graph) := by
  have hmodel (root : Graph.Model) : (visit options graph .empty (.model root)).1 = [] ↔
      ModelRules root ∧ ∀ found ∈ ownDomains graph root, DomainRules found := by
    simp only [visit, List.append_eq_nil_iff, model_eq_nil_iff, List.flatMap_eq_nil_iff,
      domain_eq_nil_iff]
  have hspace (n : NamespaceId) : (visit options graph .empty (.space n)).1 = [] ↔
      NamespaceRules options.suffixes (graph.namespaceAt n) :=
    namespace_eq_nil_iff
  have hmember (id : ClassId) : (visit options graph .empty (.member id)).1 = [] ↔
      (options.allowlist.skips (graph.classAt id).name = false → ClassRules graph id ∧
        ((graph.classAt id).isPersistent = true → TableRules options.engine (graph.classAt id)) ∧
        ∀ property ∈ (graph.classAt id).properties,
          PropertyRules options.engine graph id property) := by
    rw [visit, Class.check, ← class_eq_nil_iff]
    cases options.allowlist.skips (graph.classAt id).name <;> simp
  -- Visits range over positions, the rules over elements.
  have hspaces : (∀ n ∈ List.range graph.namespaces.length,
      NamespaceRules options.suffixes (graph.namespaceAt n)) ↔
        ∀ space ∈ graph.namespaces, NamespaceRules options.suffixes space := by
    rw [← List.forall_mem_map, Graph.map_namespaceAt]
  -- A domain is checked with its document or among those without one.
  have hdomains : ((∀ found ∈ sharedDomains graph, DomainRules found) ∧
      ∀ root ∈ graph.models, ∀ found ∈ ownDomains graph root, DomainRules found) ↔
        ∀ found ∈ graph.domains.values, DomainRules found := by
    simp only [mem_domains_iff hgraph, or_imp, forall_and, List.forall_mem_flatMap]
  have hchecked (P : ClassId → Prop) : (∀ id ∈ graph.classIds,
      options.allowlist.skips (graph.classAt id).name = false → P id) ↔
        ∀ id ∈ checkedIds options graph, P id := by
    simp [checkedIds]
  -- No name has an owner at the start.
  have hfree (kind : NameKind) (name : String) :
      (Registry.empty.names kind).contains name = false := by
    cases kind <;> rfl
  have hkinds : (∀ kind, ((claims options graph kind (visits graph)).map (·.1)).Nodup ∧
      ∀ claim ∈ claims options graph kind (visits graph),
        (Registry.empty.names kind).contains claim.1 = false) ↔
      (graph.namespaces.map (·.name)).Nodup ∧
        ((checkedIds options graph).map fun id => (graph.classAt id).name).Nodup ∧
        ((checkedIds options graph).filterMap (claimed? graph)).Nodup := by
    simp only [hfree, implies_true, and_true]
    rw [← map_fst_claims_namespaces options hgraph, ← map_fst_claims_classes options hgraph,
      ← map_fst_claims_trigrams options hgraph]
    exact ⟨fun h => ⟨h .namespaces, h .classes, h .trigrams⟩,
      fun h kind => by cases kind <;> simp only [h]⟩
  rw [run_fst, List.append_eq_nil_iff, inTurn_eq_nil_iff, forall_visits hgraph, hkinds,
    List.flatMap_eq_nil_iff]
  simp only [hmodel, hspace, hmember, hchecked, hspaces, domain_eq_nil_iff]
  constructor
  · rintro ⟨hshared, ⟨hmodels, hspaces, hclasses⟩, hnames, hclassNames, htrigrams⟩
    have hall := hdomains.mp ⟨hshared, fun root hroot => (hmodels root hroot).2⟩
    exact ⟨⟨fun root hroot => (hmodels root hroot).1, hall, hspaces, hnames,
      fun id hid => (hclasses id hid).1, hclassNames, htrigrams⟩,
      ⟨fun id hid => (hclasses id hid).2.1, fun id hid => (hclasses id hid).2.2⟩⟩
  · rintro ⟨helements, hmapping⟩
    obtain ⟨hshared, hown⟩ := hdomains.mpr helements.domains
    exact ⟨hshared, ⟨fun root hroot => ⟨helements.models root hroot, hown root hroot⟩,
      helements.namespaces, fun id hid => ⟨helements.classes id hid, hmapping.tables id hid,
        hmapping.properties id hid⟩⟩,
      helements.namespaceNames, helements.classNames, helements.trigrams⟩

end ModelSchema.Check
