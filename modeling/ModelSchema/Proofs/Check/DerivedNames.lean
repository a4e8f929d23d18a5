import ModelSchema.Proofs.Check.Rules
import ModelSchema.Proofs.Naming.Words
import ModelSchema.Proofs.Reading.Origin
import ModelSchema.Proofs.Sql.Clashes

/-!
# Derived names pass the check

A document may leave out the names of tables and columns and the types of properties. Reading
derives them from codes, trigrams and domains, and a check asks the derived ones to follow the
conventions too. They do:

* the words of a name in Pascal case, joined in upper case, make an identifier for every engine
  (`isSqlIdentifier_upperSnake`), also after a trigram (`isSqlIdentifier_columnName`);
* a finding with one of the `derivedCodes` is about a class and tells what is wrong there
  (`of_mem_findings`, `of_mem_domain`, `code_of_mem_column`), so there is none about what is
  derived.
-/

namespace ModelSchema

/-! ## Identifiers

From the shape of a code to that of the name derived from it. `filter_joinWords` tells which
characters `upperSnake` writes, and that is all that is needed of it. -/

namespace Naming

open Text

/-- Upper-case letters are good for every engine, so a name in upper case need not know it. -/
theorem isSqlLetter_of_isUpper (engine : Sql.Engine) {c : Char} (h : c.isUpper = true) :
    isSqlLetter engine c = true := by
  cases engine with
  | oracle => exact h
  | sqlServer => simp [isSqlLetter, Char.isAlpha, h]

/-- ASCII names give upper-case letters, digits and underscores. -/
theorem isUpper_of_mem_upperSnake {name : String} (hname : ∀ c ∈ name.toList, c.isAlphanum = true)
    {c : Char} (h : c ∈ (upperSnake name).toList) :
    c.isUpper = true ∨ c.isDigit = true ∨ c = '_' := by
  by_cases hunderscore : c = '_'
  · exact .inr (.inr hunderscore)
  · -- But for underscores, there are only the upper cases of letters and digits.
    have hmem : c ∈ (name.toList.filter isAlphanumeric).flatMap uppercase := by
      rw [← filter_joinWords startsBy_breaks, ← toList_upperSnake]
      exact List.mem_filter.mpr ⟨h, by simpa using hunderscore⟩
    obtain ⟨source, hsource, hc⟩ := List.mem_flatMap.mp hmem
    have hsource := hname source (List.mem_filter.mp hsource).1
    rw [uppercase_of_isAlphanum hsource, List.mem_singleton] at hc
    rw [hc]
    rcases isUpper_or_isDigit_toUpper hsource with hupper | hdigit
    · exact .inl hupper
    · exact .inr (.inl hdigit)

section Pascal

variable {name : String}

/-- Pascal case is ASCII: there are no letters from the tables of `Letter` in it. -/
theorem isAlphanum_of_isPascal (h : IsPascal name) : ∀ c ∈ name.toList, c.isAlphanum = true := by
  obtain ⟨first, rest, hname, hfirst, hrest⟩ := h
  rw [hname]
  intro c hc
  rcases List.mem_cons.mp hc with rfl | hc
  · simp [Char.isAlphanum, Char.isAlpha, hfirst]
  · exact hrest c hc

/-- The first letter of a name in Pascal case stays first. -/
theorem exists_upperSnake_eq_cons (h : IsPascal name) :
    ∃ first rest, (upperSnake name).toList = first :: rest ∧ first.isUpper = true := by
  have halnum := isAlphanum_of_isPascal h
  obtain ⟨first, rest, hname, hfirst, -⟩ := h
  have hself : first.isAlphanum = true := halnum first (hname ▸ List.mem_cons_self)
  refine ⟨first.toUpper, joinWords startsWord (some first) rest, ?_, ?_⟩
  · rw [toList_upperSnake, hname, joinWords, if_pos (isAlphanumeric_of_isAlphanum hself),
      uppercase_of_isAlphanum hself]
    rfl
  · rw [Char.isUpper_toUpper_eq_isAlpha, Char.isAlpha, hfirst]
    rfl

/-- An identifier in upper case, digits and underscores after an upper-case letter. -/
theorem isSqlIdentifier_of_isUpper (engine : Sql.Engine) {first : Char} {rest : List Char}
    (hname : name.toList = first :: rest) (hfirst : first.isUpper = true)
    (hrest : ∀ c ∈ rest, c.isUpper = true ∨ c.isDigit = true ∨ c = '_') :
    IsSqlIdentifier engine name := by
  refine ⟨first, rest, hname, isSqlLetter_of_isUpper engine hfirst, fun c hc => ?_⟩
  exact (hrest c hc).imp_left (isSqlLetter_of_isUpper engine)

/-- A name in Pascal case gives a table name. Reading takes `upperSnake` of the code where a class
declares no table. -/
theorem isSqlIdentifier_upperSnake (engine : Sql.Engine) (h : IsPascal name) :
    IsSqlIdentifier engine (upperSnake name) := by
  obtain ⟨first, rest, hsnake, hfirst⟩ := exists_upperSnake_eq_cons h
  refine isSqlIdentifier_of_isUpper engine hsnake hfirst fun c hc => ?_
  apply isUpper_of_mem_upperSnake (isAlphanum_of_isPascal h)
  rw [hsnake]
  exact List.mem_cons_of_mem _ hc

variable {trigram : String}

/-- A trigram is not empty, so `columnName` puts it in front. -/
theorem columnName_of_isTrigram (htrigram : IsTrigram trigram) (name : String) :
    columnName (some trigram) name = trigram ++ "_" ++ upperSnake name := by
  rw [columnName]
  rintro rfl
  cases htrigram.1

/-- With a trigram before it, a name in Pascal case gives a column name. -/
theorem isSqlIdentifier_columnName (engine : Sql.Engine) (htrigram : IsTrigram trigram)
    (h : IsPascal name) : IsSqlIdentifier engine (columnName (some trigram) name) := by
  rw [columnName_of_isTrigram htrigram]
  obtain ⟨hlength, hletters⟩ := htrigram
  cases hchars : trigram.toList with
  | nil =>
      rw [hchars] at hlength
      cases hlength
  | cons first rest =>
      rw [hchars] at hletters
      have hname : (trigram ++ "_" ++ upperSnake name).toList =
          first :: (rest ++ '_' :: (upperSnake name).toList) := by
        simp [String.toList_append, hchars]
      refine isSqlIdentifier_of_isUpper engine hname (hletters first List.mem_cons_self) ?_
      intro c hc
      rcases List.mem_append.mp hc with hc | hc
      · exact .inl (hletters c (List.mem_cons_of_mem _ hc))
      · rcases List.mem_cons.mp hc with rfl | hc
        · exact .inr (.inr rfl)
        · exact isUpper_of_mem_upperSnake (isAlphanum_of_isPascal h) hc

/-- What `Property.columnStart` asks of a column holds by construction. -/
theorem isPrefix_columnName (htrigram : IsTrigram trigram) (name : String) :
    (trigram ++ "_").toList <+: (columnName (some trigram) name).toList := by
  rw [columnName_of_isTrigram htrigram]
  exact ⟨(upperSnake name).toList, String.toList_append.symm⟩

end Pascal

end Naming

/-! ## Findings

Which part of a check a finding comes from can be told from its code. The lemmas go from the parts
to the whole: `of_mem_domain` and `code_of_mem_column` for the two parts of a property, then
`of_mem_property` and `of_mem_findings`. -/

namespace Check

open ModelSchema.Graph (Property)

/-- A finding of `findIf` is the one given, and there was a reason for it. -/
theorem mem_findIf {reason : Bool} {finding other : Diagnostic} :
    finding ∈ findIf reason other ↔ finding = other ∧ reason = true := by
  cases reason <;> simp [findIf]

/-- The codes of findings about what reading may derive: names of tables, names of columns, and
types of properties. -/
def derivedCodes : List Code :=
  [.classTableCasing, .propertyColumnCasing, .propertyColumnPrefix, .propertyDomainMismatch]

section Findings

variable {engine : Sql.Engine} {graph : Graph} {finding : Diagnostic}

/-- A finding about the domain of a property: it is missing, or its type is not the declared one. -/
theorem of_mem_domain {c : Graph.Class} {property : Property}
    (h : finding ∈ Property.domain graph c property) :
    finding.code = .propertyMissingDomain ∨
      finding.code = .propertyDomainMismatch ∧ ∃ domain declared expected,
        graph.domainOf? property = some domain ∧ property.dataType = some declared ∧
        domain.dataType = some expected ∧ Text.equalsIgnoringCase declared expected = false := by
  rw [Property.domain] at h
  split at h
  · rw [List.mem_singleton.mp h]
    exact .inl rfl
  · next code hcode =>
    split at h
    · rw [List.mem_singleton.mp h]
      exact .inl rfl
    · next domain hdomain =>
      split at h
      · next declared expected hdeclared hexpected =>
        obtain ⟨rfl, hdiffer⟩ := mem_findIf.mp h
        refine .inr ⟨rfl, domain, declared, expected, ?_, hdeclared, hexpected, ?_⟩
        · rw [Graph.domainOf?, hcode]
          exact hdomain
        · simpa using hdiffer
      · cases h

/-- The two findings about columns: the casing and the start of the name. -/
theorem code_of_mem_column {c : Graph.Class} {property : Property}
    (h : finding ∈ Property.column engine c property) :
    finding.code = .propertyColumnCasing ∨ finding.code = .propertyColumnPrefix := by
  simp only [Property.column, Property.columnStart] at h
  split at h
  · split at h
    · rcases List.mem_append.mp h with h | h
      · obtain ⟨rfl, -⟩ := mem_findIf.mp h
        exact .inl rfl
      · split at h
        · obtain ⟨rfl, -⟩ := mem_findIf.mp h
          exact .inr rfl
        · cases h
    · cases h
  · cases h

/-- A finding about a property that may be about something derived is about a domain or a column.
The other parts of `Property.check` have codes of their own. -/
theorem of_mem_property {id : ClassId} {isCyclic : Bool} {property : Property}
    (hcode : finding.code ∈ derivedCodes)
    (h : finding ∈ Property.check engine graph id isCyclic property) :
    property.kind = .primitive ∧ finding ∈ Property.domain graph (graph.classAt id) property ∨
      finding ∈ Property.column engine (graph.classAt id) property := by
  have hpersistence : ∀ finding ∈ Property.persistence (graph.classAt id) property,
      finding.code ∉ derivedCodes := by
    simp [Property.persistence, mem_findIf, or_imp, forall_and, derivedCodes]
  have hself : ∀ finding ∈ Property.selfLink (graph.classAt id) id property,
      finding.code ∉ derivedCodes := by
    rw [Property.selfLink]
    split <;> simp [mem_findIf, derivedCodes]
  have hinherited : ∀ finding ∈ Property.inherited graph (graph.classAt id) id property,
      finding.code ∉ derivedCodes := by
    simp only [Property.inherited]
    split
    · simp
    · split <;> simp [derivedCodes]
  simp only [Property.check, List.mem_append] at h
  -- The six parts of `Property.check`, in order.
  rcases h with ((((h | h) | h) | h) | h) | h
  · obtain ⟨rfl, -⟩ := mem_findIf.mp h
    simp [derivedCodes] at hcode
  · split at h
    · next hprimitive =>
      rcases List.mem_append.mp h with h | h
      · obtain ⟨rfl, -⟩ := mem_findIf.mp h
        simp [derivedCodes] at hcode
      · exact .inl ⟨isPrimitive_iff.mp hprimitive, h⟩
    · cases h
  · exact absurd hcode (hpersistence finding h)
  · exact .inr h
  · exact absurd hcode (hself finding h)
  · split at h
    · cases h
    · exact absurd hcode (hinherited finding h)

/-- Among what a class needs for a table, only the name of the table may be derived. -/
theorem of_mem_persistent {registry : Registry} {c : Graph.Class}
    (hcode : finding.code ∈ derivedCodes)
    (h : finding ∈ Class.persistent engine graph registry c) :
    finding.code = .classTableCasing ∧ ¬ Naming.IsSqlIdentifier engine c.table := by
  have htrigram : ∀ finding ∈ Class.trigram registry c, finding.code ∉ derivedCodes := by
    rw [Class.trigram]
    split
    · simp [derivedCodes]
    · split <;> simp [mem_findIf, or_imp, forall_and, derivedCodes]
  simp only [Class.persistent, List.mem_append, mem_findIf] at h
  rcases h with ((h | ⟨rfl, -⟩) | h) | ⟨rfl, htable⟩
  · exact absurd hcode (htrigram finding h)
  · simp [derivedCodes] at hcode
  · split at h
    · rw [List.mem_singleton.mp h] at hcode
      simp [derivedCodes] at hcode
    · cases h
  · refine ⟨rfl, ?_⟩
    rw [← Naming.isSqlIdentifier_iff]
    simpa using htable

/-- A finding about a class that may be about something derived is about its table or one of its
properties. -/
theorem of_mem_findings {registry : Registry} {id : ClassId} (hcode : finding.code ∈ derivedCodes)
    (h : finding ∈ Class.findings engine graph registry id) :
    finding.code = .classTableCasing ∧
        ¬ Naming.IsSqlIdentifier engine (graph.classAt id).table ∨
      ∃ property ∈ (graph.classAt id).properties,
        finding ∈ Property.check engine graph id (graph.ancestors id).isCyclic property := by
  -- All other parts have codes of their own.
  have hdocumentation : ∀ finding ∈ Class.documentation (graph.classAt id),
      finding.code ∉ derivedCodes := by
    simp [Class.documentation, mem_findIf, or_imp, forall_and, derivedCodes]
  have hidentity : ∀ finding ∈ Class.identity registry (graph.namespaceOf id) (graph.classAt id),
      finding.code ∉ derivedCodes := by
    rw [Class.identity, Class.duplicate]
    split <;> simp [mem_findIf, or_imp, forall_and, derivedCodes]
  have htransient : ∀ finding ∈ Class.transient (graph.classAt id),
      finding.code ∉ derivedCodes := by
    simp [Class.transient, mem_findIf, or_imp, forall_and, derivedCodes]
  have hproperties : ∀ finding ∈ Class.properties (graph.classAt id),
      finding.code ∉ derivedCodes := by
    simp [Class.properties, mem_findIf, or_imp, forall_and, derivedCodes]
  have hancestry : ∀ finding ∈ Class.ancestry graph (graph.classAt id) (graph.ancestors id),
      finding.code ∉ derivedCodes := by
    simp only [Class.ancestry]
    split
    · simp [derivedCodes]
    · simp only [Class.redeclared, List.mem_flatMap, List.mem_map]
      rintro _ ⟨_, -, _, -, rfl⟩
      simp [derivedCodes]
  simp only [Class.findings, List.mem_append] at h
  -- The six parts of `Class.findings`, in order.
  rcases h with ((((h | h) | h) | h) | h) | h
  · exact absurd hcode (hdocumentation finding h)
  · exact absurd hcode (hidentity finding h)
  · split at h
    · exact .inl (of_mem_persistent hcode h)
    · exact absurd hcode (htransient finding h)
  · exact absurd hcode (hproperties finding h)
  · exact absurd hcode (hancestry finding h)
  · exact .inr (List.mem_flatMap.mp h)

/-! ## Walks -/

/-- Every finding of a walk is about one of the elements. The registry that it was found with is
some registry; nothing here depends on it. -/
theorem exists_of_mem_inTurn {α : Type} {check : Registry → α → List Diagnostic × Registry}
    {registry : Registry} {entries : List α}
    (h : finding ∈ (Namespace.inTurn check registry entries).1) :
    ∃ entry ∈ entries, ∃ current, finding ∈ (check current entry).1 := by
  induction entries generalizing registry with
  | nil => cases h
  | cons first rest ih =>
      rw [inTurn_cons] at h
      rcases List.mem_append.mp h with h | h
      · exact ⟨first, List.mem_cons_self, registry, h⟩
      · obtain ⟨entry, hentry, hfound⟩ := ih h
        exact ⟨entry, List.mem_cons_of_mem _ hentry, hfound⟩

/-- Only visits of classes can find something with one of the `derivedCodes`; models, namespaces and
domains have codes of their own. -/
theorem exists_class_of_mem_run {options : Options} (hgraph : graph.WellFormed)
    (hcode : finding.code ∈ derivedCodes) (h : finding ∈ (run options graph).1) :
    ∃ id ∈ graph.classIds, ∃ registry,
      finding ∈ Class.findings options.engine graph registry id := by
  have hdomains (domains : List Graph.Domain) :
      ∀ finding ∈ domains.flatMap domain, finding.code ∉ derivedCodes := by
    simp only [List.mem_flatMap, domain, List.mem_append, mem_findIf]
    rintro finding ⟨found, -, ((⟨rfl, -⟩ | ⟨rfl, -⟩) | ⟨rfl, -⟩) | ⟨rfl, -⟩⟩ <;> simp [derivedCodes]
  rw [run_fst] at h
  rcases List.mem_append.mp h with h | h
  · exact absurd hcode (hdomains _ finding h)
  · obtain ⟨v, hv, registry, h⟩ := exists_of_mem_inTurn h
    cases v with
    | model root =>
        rcases List.mem_append.mp h with h | h
        · simp only [model, List.mem_append, mem_findIf] at h
          rcases h with ⟨rfl, -⟩ | ⟨rfl, -⟩ <;> simp [derivedCodes] at hcode
        · exact absurd hcode (hdomains _ finding h)
    | space n =>
        have hspace : ∀ finding ∈ Namespace.findings options.suffixes registry
            (graph.namespaceAt n), finding.code ∉ derivedCodes := by
          rw [Namespace.findings, Namespace.duplicate]
          split <;> simp [mem_findIf, or_imp, forall_and, derivedCodes]
        exact absurd hcode (hspace finding h)
    | member id =>
        refine ⟨id, (member_mem_visits hgraph).mp hv, registry, ?_⟩
        simp only [visit, Class.check] at h
        split at h
        · cases h
        · exact h

end Findings

/-! ## What reading derives

What passes is said of every finding about the element, also about one with other faults, rather
than of an element without findings. -/

/-- What a check does not find about a declared property. -/
structure PropertyPasses (engine : Sql.Engine) (graph : Graph) (id : ClassId)
    (declared : Outline.Property) (property : Property) : Prop where
  name : property.name = declared.code
  kind : property.kind = .primitive
  /-- A column that is named after the property is well named. -/
  column : declared.persistentCode = none → Naming.IsPascal declared.code →
    ∀ trigram, (graph.classAt id).trigram = some trigram → Naming.IsTrigram trigram →
      ∀ finding ∈ Property.check engine graph id (graph.ancestors id).isCyclic property,
        finding.code ≠ .propertyColumnCasing ∧ finding.code ≠ .propertyColumnPrefix
  /-- A property without a type of its own has that of its domain. -/
  dataType : declared.dataType = none →
    ∀ finding ∈ Property.check engine graph id (graph.ancestors id).isCyclic property,
      finding.code ≠ .propertyDomainMismatch

/-- What a check does not find about a declared class. -/
structure ClassPasses (engine : Sql.Engine) (graph : Graph) (declared : Outline.Class)
    (id : ClassId) : Prop where
  name : (graph.classAt id).name = declared.code
  trigram : (graph.classAt id).trigram = declared.trigram
  /-- A table that is named after the class is well named. -/
  table : declared.persistentCode = none → Naming.IsPascal declared.code →
    ∀ registry, ∀ finding ∈ Class.findings engine graph registry id,
      finding.code ≠ .classTableCasing
  /-- The declared properties come first; links, which follow them, have no type. -/
  properties : ∃ own added, (graph.classAt id).properties = own ++ added ∧
    List.Forall₂ (PropertyPasses engine graph id) declared.properties own ∧
    ∀ property ∈ added, property.kind ≠ .primitive ∧
      ∀ finding ∈ Property.check engine graph id (graph.ancestors id).isCyclic property,
        finding.code ≠ .propertyDomainMismatch

/-- A check finds nothing about what the reading of documents has derived. -/
structure Passes (options : Options) (documents : List Reading.Document) (graph : Graph) :
    Prop where
  classes : List.Forall₂ (fun declared id => ClassPasses options.engine graph declared.2 id)
    (Reading.declaredClasses documents) graph.classIds
  /-- Where a finding with one of these codes comes from. -/
  sources : ∀ finding ∈ (run options graph).1, finding.code ∈ derivedCodes →
    ∃ id ∈ graph.classIds,
      (∃ registry, finding ∈ Class.findings options.engine graph registry id) ∧
      (finding.code ≠ .classTableCasing → ∃ property ∈ (graph.classAt id).properties,
        finding ∈ Property.check options.engine graph id (graph.ancestors id).isCyclic property)

section Passes

variable {engine : Sql.Engine} {graph : Graph} {id : ClassId} {isCyclic : Bool}
  {property : Property} {finding : Diagnostic}

/-- A finding about a type is about a value whose type is not that of its domain. -/
theorem of_mismatch (hcode : finding.code = .propertyDomainMismatch)
    (h : finding ∈ Property.check engine graph id isCyclic property) :
    property.kind = .primitive ∧
      property.dataType ≠ (graph.domainOf? property).bind (·.dataType) := by
  have hderived : finding.code ∈ derivedCodes := by simp [hcode, derivedCodes]
  rcases of_mem_property hderived h with ⟨hkind, h⟩ | h
  · refine ⟨hkind, fun hsame => ?_⟩
    rcases of_mem_domain h with hmissing | ⟨-, domain, type, expected, hdomain, htype, hexpected,
      hdiffer⟩
    · rw [hcode] at hmissing
      cases hmissing
    · rw [htype, hdomain, Option.bind_some, hexpected, Option.some.injEq] at hsame
      rw [hsame, Text.equalsIgnoringCase, beq_self_eq_true] at hdiffer
      cases hdiffer
  · rcases code_of_mem_column h with hcolumn | hcolumn <;>
    · rw [hcode] at hcolumn
      cases hcolumn

/-- No finding about a property is about a table. -/
theorem code_ne_of_mem_property (h : finding ∈ Property.check engine graph id isCyclic property) :
    finding.code ≠ .classTableCasing := by
  intro hcode
  have hderived : finding.code ∈ derivedCodes := by simp [hcode, derivedCodes]
  rcases of_mem_property hderived h with ⟨-, h⟩ | h
  · rcases of_mem_domain h with hdomain | ⟨hdomain, -⟩ <;>
    · rw [hcode] at hdomain
      cases hdomain
  · rcases code_of_mem_column h with hcolumn | hcolumn <;>
    · rw [hcode] at hcolumn
      cases hcolumn

/-- A finding about a column name is about a column. -/
theorem column_ne_nil (hcode : finding.code = .propertyColumnCasing ∨
      finding.code = .propertyColumnPrefix)
    (h : finding ∈ Property.check engine graph id isCyclic property) :
    Property.column engine (graph.classAt id) property ≠ [] := by
  have hderived : finding.code ∈ derivedCodes := by
    rcases hcode with hcode | hcode <;> simp [hcode, derivedCodes]
  rcases of_mem_property hderived h with ⟨-, h⟩ | h
  · rcases hcode with hcode | hcode <;> rcases of_mem_domain h with hdomain | ⟨hdomain, -⟩ <;>
    · rw [hcode] at hdomain
      cases hdomain
  · exact List.ne_nil_of_mem h

open Reading.Assembly (propertyOf)

/-- A declared property passes. `propertyOf` derives its column from the trigram of the class and
its type from its domain, and these are the two that the check compares with. -/
theorem passes_propertyOf (engine : Sql.Engine) (graph : Graph) (id : ClassId)
    (scope : List (String × String)) (declared : Outline.Property) :
    PropertyPasses engine graph id declared
      (propertyOf graph.domains scope (graph.classAt id).trigram declared) where
  name := rfl
  kind := rfl
  column hcode hname trigram htrigram hletters finding hfinding := by
    have hcolumn : Property.column engine (graph.classAt id)
        (propertyOf graph.domains scope (graph.classAt id).trigram declared) = [] := by
      rw [column_eq_nil_iff]
      intro column hcolumn _ _
      have hderived : column = Naming.columnName (some trigram) declared.code := by
        simp only [propertyOf, htrigram, hcode, Option.getD_none, Option.ite_none_right_eq_some,
          Option.some.injEq] at hcolumn
        exact hcolumn.2.symm
      rw [hderived]
      refine ⟨Naming.isSqlIdentifier_columnName engine hletters hname, fun _ other hother => ?_⟩
      rw [htrigram, Option.some.injEq] at hother
      rw [← hother]
      exact Naming.isPrefix_columnName hletters declared.code
    constructor <;> intro hfound
    · exact column_ne_nil (.inl hfound) hfinding hcolumn
    · exact column_ne_nil (.inr hfound) hfinding hcolumn
  dataType hnone finding hfinding hfound := by
    -- Reading has looked up the same domain as the check does.
    refine (of_mismatch hfound hfinding).2 ?_
    rw [propertyOf, hnone]
    rfl

variable {suffixes : Naming.Suffixes} {shared : List Graph.Domain}
  {documents : List Reading.Document} {final : Reading.Assembly}

/-- A declared class passes, with all its properties. `classAt_of_run` tells what reading has made
of the declaration; links are added later and have no type to compare. -/
theorem passes_of_run (hrun : Reading.Assembly.run suffixes shared documents = .ok final)
    (engine : Sql.Engine) {id : ClassId} {declared : Reading.Document × Outline.Class}
    (h : (Reading.declaredClasses documents)[id]? = some declared) :
    ClassPasses engine final.graph declared.2 id := by
  obtain ⟨home, parent, added, hlinks, hclass⟩ := Reading.Assembly.classAt_of_run hrun h
  have htrigram : (final.graph.classAt id).trigram = declared.2.trigram := by
    rw [hclass]
    rfl
  refine ⟨?_, htrigram, ?_, ?_⟩
  · rw [hclass]
    rfl
  · intro hcode hname registry finding hfinding hfound
    have hderived : finding.code ∈ derivedCodes := by simp [hfound, derivedCodes]
    rcases of_mem_findings hderived hfinding with ⟨-, htable⟩ | ⟨property, -, hproperty⟩
    · have hsame : (final.graph.classAt id).table = Naming.upperSnake declared.2.code := by
        rw [hclass]
        show declared.2.persistentCode.getD _ = _
        rw [hcode]
        rfl
      rw [hsame] at htable
      exact htable (Naming.isSqlIdentifier_upperSnake engine hname)
    · exact code_ne_of_mem_property hproperty hfound
  · refine ⟨_, added, congrArg (·.properties) hclass, ?_, fun property hadded => ?_⟩
    · rw [← htrigram, List.forall₂_map_right_iff, List.forall₂_same]
      intro own _
      exact passes_propertyOf engine final.graph id _ own
    · have hkind := hlinks property hadded
      exact ⟨hkind, fun finding hfinding hfound => hkind (of_mismatch hfound hfinding).1⟩

end Passes

open Reading (read)

/-- Names and types that reading derives pass every check. A class in Pascal case has a proper table
name unless it declares one, a property in Pascal case has a proper column name if the class has a
trigram, and a property without a type has that of its domain. -/
theorem derived_names_pass {suffixes : Naming.Suffixes} {shared : List Graph.Domain}
    {sources : List Reading.Source} {graph : Graph} {found : List Diagnostic}
    (h : read suffixes shared sources = .ok (graph, found)) (options : Options) :
    ∃ documents,
      List.Forall₂ (fun source document => source.document = .ok document) sources documents ∧
        Passes options documents graph := by
  obtain ⟨documents, hsources, hrun⟩ := Reading.read_eq_ok h
  refine ⟨documents, hsources, ?_, ?_⟩
  · exact Reading.Assembly.forall₂_classIds_of_run hrun fun id declared hdeclared =>
      passes_of_run hrun options.engine hdeclared
  · intro finding hfinding hcode
    have hgraph := Reading.Assembly.wellFormed_of_run hrun
    obtain ⟨id, hid, registry, hfound⟩ := exists_class_of_mem_run hgraph hcode hfinding
    refine ⟨id, hid, ⟨registry, hfound⟩, fun hne => ?_⟩
    rcases of_mem_findings hcode hfound with ⟨htable, -⟩ | hproperty
    · exact absurd htable hne
    · exact hproperty

/-- A class whose table and columns are named after it, and one with names and a type of its own. -/
def accounts : Reading.Source where
  path := "Shop.oom"
  format := .objectModel
  content :=
    "<Model><Code>Shop</Code><Name>Shop</Name>
      <Domains><Domain Id='d'>
        <Code>DO_ID</Code><DataType>int</DataType><PersistentDataType>int</PersistentDataType>
      </Domain></Domains>
      <Packages><Package Id='p'><Code>SalesDataContract</Code><Comment>-</Comment><Classes>
        <Class Id='x'>
          <Code>WEBAccount2</Code><Name>WEBAccount2</Name><Comment>-</Comment>
          <Persistent>1</Persistent><Trigram>ACC</Trigram>
          <Attributes><Attribute Id='i'>
            <Code>Id</Code><Comment>-</Comment><Persistent>1</Persistent>
            <Multiplicity>1..1</Multiplicity><PrimaryIdentifier>1</PrimaryIdentifier>
            <Domain><Domain Ref='d'/></Domain>
          </Attribute></Attributes>
        </Class>
        <Class Id='y'>
          <Code>Ledger</Code><Name>Ledger</Name><Comment>-</Comment>
          <Persistent>1</Persistent><PersistentCode>old ledger</PersistentCode>
          <Trigram>LED</Trigram>
          <Attributes><Attribute Id='j'>
            <Code>Id</Code><Comment>-</Comment><DataType>long</DataType><Persistent>1</Persistent>
            <Multiplicity>1..1</Multiplicity><PrimaryIdentifier>1</PrimaryIdentifier>
            <Domain><Domain Ref='d'/></Domain><PersistentCode>key-1</PersistentCode>
          </Attribute></Attributes>
        </Class>
      </Classes></Package></Packages></Model>"

def accountsOutline : Outline :=
  Sql.Schema.shopOutline
    [Sql.Schema.tableOutline "x" "WEBAccount2" "ACC" false [Sql.Schema.fieldOutline "i" "Id" true],
      { Sql.Schema.tableOutline "y" "Ledger" "LED" false
          [{ Sql.Schema.fieldOutline "j" "Id" true with
            dataType := some "long", persistentCode := some "key-1" }] with
        persistentCode := some "old ledger" }]
    []

set_option maxRecDepth 20000 in
theorem document_accounts : accounts.document = .ok ⟨"Shop.oom", accountsOutline⟩ := by
  rw [Reading.Source.document, Reading.Source.outline,
    show Xml.parse? accounts.content = _ from Reading.parse?_ofList _]
  decide +kernel

theorem derived_names_pass_accounts :
    ∃ graph found, read .standard [] [accounts] = .ok (graph, found) ∧
      (∃ documents, List.Forall₂ (fun source document => source.document = .ok document)
          [accounts] documents ∧ Passes Sql.Schema.strict documents graph) ∧
      graph.classes.map (·.table) = ["WEB_ACCOUNT2", "old ledger"] ∧
      (run Sql.Schema.strict graph).1.map (·.code) = [.classTableCasing, .propertyDomainMismatch,
        .propertyColumnCasing, .propertyColumnPrefix] := by
  obtain ⟨graph, found, hread, hchecked⟩ := Reading.exists_read .standard []
    (.cons document_accounts .nil)
    (P := fun graph _ =>
      graph.classes.map (·.table) == ["WEB_ACCOUNT2", "old ledger"] &&
        (run Sql.Schema.strict graph).1.map (·.code) == [.classTableCasing,
          .propertyDomainMismatch, .propertyColumnCasing, .propertyColumnPrefix])
    (by decide +kernel)
  simp only [Bool.and_eq_true, beq_iff_eq] at hchecked
  exact ⟨graph, found, hread, derived_names_pass hread Sql.Schema.strict, hchecked⟩

end Check

end ModelSchema
