import ModelSchema.Proofs.Naming.Loops
import ModelSchema.Proofs.Naming.Runs
import ModelSchema.Proofs.Reading.Declarations

/-!
# Codes of associations

An association may have a code beside its name. It should be the code that is generated from the
name; if not, reading reports it and goes on.

* A step that puts an association into effect reports the code of this association or none
  (`codeMistakes_addAssociation`), and no other step does.
* So the associations that a run reports are the miscoded ones, in order, up to the link that stops
  the run if there is one (`codeMistakes_of_run`).
-/

namespace ModelSchema

/-- Whether an association has a code that is not generated from its name. -/
def Outline.Association.isMiscoded (association : Outline.Association) : Bool :=
  association.code.any fun code => association.name.any fun name =>
    code != Naming.generatedCode name

namespace Reading

open ModelSchema.Graph (Domain)

/-- The associations that documents declare, in order. -/
def declaredAssociations (documents : List Document) : List (Document × Outline.Association) :=
  documents.flatMap fun document => document.outline.associations.map (document, ·)

/-- The mistakes found on the way to a result or to an error. -/
def mistakesOf {α : Type} (diagnostics : α → List Diagnostic) :
    Except (Error × List Diagnostic) α → List Diagnostic
  | .ok result => diagnostics result
  | .error stopped => stopped.2

def isCodeMistake (diagnostic : Diagnostic) : Bool :=
  diagnostic.code == .readAssociationCodeMismatch

/-- A mistake shows the document of an association, its code, and the code that its name gives. -/
structure ShowsCode (declared : Document × Outline.Association) (diagnostic : Diagnostic) :
    Prop where
  file : diagnostic.file = some declared.1.path
  actual : diagnostic.actual = declared.2.code
  expected : diagnostic.expected = declared.2.name.map Naming.generatedCode

namespace Assembly

def codeMistakeOf? (declared : Document × Outline.Association) : Option Diagnostic :=
  codeMistake? declared.1.path declared.2

/-- Miscoded associations are mistakes, and others are not. -/
theorem codeMistakeOf?_cases (declared : Document × Outline.Association) :
    declared.2.isMiscoded = false ∧ codeMistakeOf? declared = none ∨
      declared.2.isMiscoded = true ∧ ∃ diagnostic,
        codeMistakeOf? declared = some diagnostic ∧ ShowsCode declared diagnostic := by
  simp only [codeMistakeOf?, codeMistake?, Outline.Association.isMiscoded]
  cases hcode : declared.2.code with
  | none => exact .inl ⟨rfl, rfl⟩
  | some code =>
      cases hname : declared.2.name with
      | none => exact .inl ⟨rfl, rfl⟩
      | some name =>
          by_cases hequal : code = Naming.generatedCode name
          · exact .inl ⟨by simp [hequal], by simp [hequal]⟩
          · exact .inr ⟨by simp [hequal], _, if_neg hequal, rfl, hcode.symm, by rw [hname]; rfl⟩

/-- The mistakes show the miscoded associations, one by one. -/
theorem shows_codeMistakes (handled : List (Document × Outline.Association)) :
    List.Forall₂ ShowsCode (handled.filter fun declared => declared.2.isMiscoded)
      (handled.filterMap codeMistakeOf?) := by
  induction handled with
  | nil => exact .nil
  | cons declared rest ih =>
      rcases codeMistakeOf?_cases declared with ⟨hcode, hnone⟩ | ⟨hcode, diagnostic, hsome, hshows⟩
      · rw [List.filterMap_cons_none hnone]
        simpa [hcode] using ih
      · rw [List.filterMap_cons_some hsome]
        simpa [hcode] using List.Forall₂.cons hshows ih

/-! ## Steps

One association. Its other mistakes are among the `associationCodes`, so a filter by code tells them
apart. -/

section Steps

variable {document : Document} {scope : Scope} {assembly next : Assembly}

/-- An association adds the mistake in its code, if there is one, and no other of this kind. -/
theorem codeMistakes_addAssociation {association : Outline.Association}
    (h : addAssociation document scope assembly association = .ok next) :
    next.diagnostics.filter isCodeMistake =
      assembly.diagnostics.filter isCodeMistake ++
        (codeMistakeOf? (document, association)).toList := by
  obtain ⟨a, b, -, -, rfl⟩ := addAssociation_eq_ok h
  obtain ⟨effects, -, henacts⟩ :=
    enacts_addLink assembly (linkOf document association a b) association
  -- The effects of the association come after that mistake.
  have hafter := henacts.keeps (P := fun current => current.diagnostics.filter isCodeMistake =
      (assembly.noteCode (linkOf document association a b) association).diagnostics.filter
        isCodeMistake) ?_ rfl
  · rw [hafter, noteCode, List.filter_append]
    refine congrArg _ (List.filter_eq_self.mpr fun diagnostic hdiagnostic => ?_)
    rw [isCodeMistake, code_of_codeMistake? (Option.mem_toList.mp hdiagnostic)]
    rfl
  · intro current effect hfits hcurrent
    cases effect with
    | property holder target added => exact hcurrent
    | mistake diagnostic =>
        have hother : isCodeMistake diagnostic = false := by
          rw [isCodeMistake, beq_eq_false_iff_ne]
          intro hcode
          have hmem : Code.readAssociationCodeMismatch ∈ associationCodes := hcode ▸ hfits
          exact absurd hmem (by decide)
        simpa [Effect.apply, note, hother] using hcurrent

/-- A link to an unknown class stops a run with the mistakes found before. -/
theorem mistakes_of_addAssociation {association : Outline.Association}
    {stopped : Error × List Diagnostic}
    (h : addAssociation document scope assembly association = .error stopped) :
    stopped.2 = assembly.diagnostics := by
  simp only [addAssociation] at h
  split at h <;> cases h
  rfl

/-- The same for generalizations, which come first. -/
theorem mistakes_of_addGeneralization {link : Outline.Generalization}
    {stopped : Error × List Diagnostic}
    (h : addGeneralization document scope assembly link = .error stopped) :
    stopped.2 = assembly.diagnostics := by
  simp only [addGeneralization] at h
  split at h <;> cases h
  rfl

end Steps

/-! ## Runs

A run that stops reports what was found before. So the statements are about `mistakesOf`, and say up
to where associations were handled. -/

/-- Generalizations find no mistakes. -/
theorem mistakes_generalizations (links : List (Declared Outline.Generalization))
    (assembly : Assembly) :
    mistakesOf (·.diagnostics) (links.foldlM (fun assembly declared =>
      addGeneralization declared.document declared.scope assembly declared.link) assembly) =
        assembly.diagnostics := by
  obtain ⟨handled, reached, -, hreached, hend⟩ := exists_reached (fun assembly declared =>
    addGeneralization declared.document declared.scope assembly declared.link) links assembly
  have hdiagnostics : reached.diagnostics = assembly.diagnostics := by
    refine foldlM_keeps (P := fun current => current.diagnostics = assembly.diagnostics) ?_
      hreached rfl
    intro current declared _ next hcurrent hnext
    obtain ⟨_, _, -, -, rfl⟩ := addGeneralization_eq_ok hnext
    exact hcurrent
  rcases hend with rfl | ⟨declared, -, stopped, hstep, hstopped⟩
  · rw [hreached]
    exact hdiagnostics
  · rw [hstopped]
    exact (mistakes_of_addGeneralization hstep).trans hdiagnostics

/-- Associations that are all handled have their codes reported, in order. -/
theorem codeMistakes_of_foldlM {links : List (Declared Outline.Association)}
    {assembly final : Assembly}
    (h : links.foldlM (fun assembly declared =>
        addAssociation declared.document declared.scope assembly declared.link) assembly =
      .ok final) :
    final.diagnostics.filter isCodeMistake = assembly.diagnostics.filter isCodeMistake ++
      (links.map fun declared => (declared.document, declared.link)).filterMap codeMistakeOf? := by
  induction links generalizing assembly with
  | nil =>
      cases h
      simp
  | cons declared rest ih =>
      rw [List.foldlM_cons] at h
      obtain ⟨next, hnext, hrest⟩ := bind_eq_ok_iff.mp h
      rw [ih hrest, codeMistakes_addAssociation hnext, List.append_assoc, List.map_cons,
        List.filterMap_cons]
      cases codeMistakeOf? (declared.document, declared.link) <;> rfl

/-- The associations that are handled, before one leads to an unknown class, have their codes
reported. `exists_reached` cuts the pass at that link. -/
theorem codeMistakes_associations (links : List (Declared Outline.Association))
    (assembly : Assembly) :
    ∃ handled, handled <+: links.map (fun declared => (declared.document, declared.link)) ∧
      (mistakesOf (·.diagnostics) (links.foldlM (fun assembly declared =>
        addAssociation declared.document declared.scope assembly declared.link)
          assembly)).filter isCodeMistake =
        assembly.diagnostics.filter isCodeMistake ++ handled.filterMap codeMistakeOf? ∧
      ∀ final, links.foldlM (fun assembly declared =>
          addAssociation declared.document declared.scope assembly declared.link) assembly =
          .ok final →
        handled = links.map fun declared => (declared.document, declared.link) := by
  obtain ⟨handled, reached, hprefix, hreached, hend⟩ := exists_reached (fun assembly declared =>
    addAssociation declared.document declared.scope assembly declared.link) links assembly
  refine ⟨handled.map fun declared => (declared.document, declared.link), hprefix.map _, ?_, ?_⟩
  · rw [← codeMistakes_of_foldlM hreached]
    rcases hend with rfl | ⟨declared, -, stopped, hstep, hstopped⟩
    · rw [hreached]
      rfl
    · rw [hstopped]
      exact congrArg _ (mistakes_of_addAssociation hstep)
  · intro final hfinal
    rcases hend with rfl | ⟨declared, -, stopped, -, hstopped⟩
    · rfl
    · rw [hstopped] at hfinal
      cases hfinal

section Run

variable (suffixes : Naming.Suffixes) (shared : List Domain) (documents : List Document)

/-- No code is reported before the associations: the mistakes found there are about domains and
stereotypes. -/
theorem codeMistakes_withClasses :
    (withClasses suffixes shared documents).1.diagnostics.filter isCodeMistake = [] := by
  rw [(extends_withClasses suffixes shared documents).diagnostics,
    (declares_withModels shared documents).diagnostics]
  refine List.filter_eq_nil_iff.mpr fun diagnostic hdiagnostic => ?_
  rw [isCodeMistake, beq_iff_eq]
  rcases List.mem_append.mp hdiagnostic with hdomain | hclass
  · obtain ⟨_, -, rfl⟩ := List.mem_map.mp hdomain
    exact nofun
  · obtain ⟨_, -, hmistake⟩ := List.mem_filterMap.mp hclass
    rw [code_of_stereotypeMistake? hmistake]
    exact nofun

/-- The pass over associations takes them in the order in which documents declare them. -/
theorem associations_declaredLinks :
    (declaredLinks (·.associations) (withClasses suffixes shared documents).2).map
        (fun declared => (declared.document, declared.link)) = declaredAssociations documents := by
  have hdocuments := documents_addDocuments suffixes documents (withModels shared documents) 0
  conv_rhs => rw [← hdocuments]
  simp [declaredLinks, declaredAssociations, withClasses, List.map_flatMap, List.flatMap_map,
    Function.comp_def]

/-- The codes that a run reports are those of the miscoded associations up to the link that stops
it. -/
theorem codeMistakes_of_run :
    ∃ handled, handled <+: declaredAssociations documents ∧
      (mistakesOf (·.diagnostics) (run suffixes shared documents)).filter isCodeMistake =
        handled.filterMap codeMistakeOf? ∧
      ∀ final, run suffixes shared documents = .ok final →
        handled = declaredAssociations documents := by
  have hbefore := codeMistakes_withClasses suffixes shared documents
  have hlinks := associations_declaredLinks suffixes shared documents
  rw [run_eq_bind]
  generalize withClasses suffixes shared documents = laid at hbefore hlinks
  have hparents := mistakes_generalizations (declaredLinks (·.generalizations) laid.2) laid.1
  cases hpass : (declaredLinks (·.generalizations) laid.2).foldlM (fun assembly declared =>
      addGeneralization declared.document declared.scope assembly declared.link) laid.1 with
  | error stopped =>
      rw [hpass] at hparents
      refine ⟨[], List.nil_prefix, ?_, by rintro _ ⟨⟩⟩
      exact (congrArg _ hparents).trans hbefore
  | ok linked =>
      rw [hpass] at hparents
      obtain ⟨handled, hprefix, hcodes, hall⟩ :=
        codeMistakes_associations (declaredLinks (·.associations) laid.2) linked
      have hlinked : linked.diagnostics.filter isCodeMistake = [] :=
        (congrArg _ hparents).trans hbefore
      rw [hlinked, List.nil_append] at hcodes
      rw [hlinks] at hprefix hall
      exact ⟨handled, hprefix, hcodes, hall⟩

end Run

end Assembly

/-! ## Reading -/

/-- The associations that a reading reports for their codes: the miscoded ones in order, up to the
error that stops it if there is one. -/
structure Reported (documents : List Document)
    (result : Except (Error × List Diagnostic) (Graph × List Diagnostic))
    (reported : List (Document × Outline.Association)) : Prop where
  shown : List.Forall₂ ShowsCode reported ((mistakesOf (·.2) result).filter isCodeMistake)
  miscoded : reported <+:
    (declaredAssociations documents).filter fun declared => declared.2.isMiscoded
  complete : ∀ graph found, result = .ok (graph, found) → reported =
    (declaredAssociations documents).filter fun declared => declared.2.isMiscoded

/-- If all sources can be read, none is left out. -/
theorem filterMap_document {sources : List Source} {documents : List Document}
    (h : List.Forall₂ (fun source document => source.document = .ok document) sources documents) :
    sources.filterMap (·.document.toOption) = documents := by
  induction h with
  | nil => rfl
  | cons hfirst _ ih =>
      rw [List.filterMap_cons, hfirst, ih]
      rfl

/-- Reading that fails because of a source that cannot be read reports no code. Any other goes
through `Assembly.run`. -/
theorem exists_reported (suffixes : Naming.Suffixes) (shared : List Domain)
    (sources : List Source) :
    ∃ reported, Reported (sources.filterMap (·.document.toOption)) (read suffixes shared sources)
      reported := by
  rw [read]
  cases hparsed : sources.mapM Source.document with
  | error error => exact ⟨[], .nil, List.nil_prefix, by rintro _ _ ⟨⟩⟩
  | ok documents =>
      rw [filterMap_document (forall₂_of_mapM hparsed)]
      show ∃ reported, Reported documents
        (Assembly.run suffixes shared documents >>= fun assembly =>
          .ok (assembly.graph, assembly.diagnostics)) reported
      obtain ⟨handled, hprefix, hcodes, hall⟩ :=
        Assembly.codeMistakes_of_run suffixes shared documents
      have hshown := Assembly.shows_codeMistakes handled
      rw [← hcodes] at hshown
      cases hrun : Assembly.run suffixes shared documents with
      | error stopped =>
          rw [hrun] at hshown
          exact ⟨_, hshown, hprefix.filter _, by rintro _ _ ⟨⟩⟩
      | ok final =>
          rw [hrun] at hshown
          refine ⟨_, hshown, hprefix.filter _, fun _ _ _ => ?_⟩
          rw [hall final hrun]

/-- A code is generated from the runs of letters and numbers of a name, and a loop that writes
underscores eagerly and trims them gives it too. From an ASCII code the same code is generated, so
an association that has such a code as its name too is not reported. -/
theorem generated_codes_accepted (name : String) :
    Naming.generatedCode name = Naming.codeLoop name ∧
      Naming.generatedCode name =
        "_".intercalate ((Naming.runs name.toList).map fun run =>
          String.ofList (Naming.capitals run)) ∧
      (∀ run ∈ Naming.runs name.toList, Naming.capitals run ≠ [] ∧ '_' ∉ Naming.capitals run) ∧
      (Naming.generatedCode name = "" ↔ ∀ c ∈ name.toList, Text.isAlphanumeric c = false) ∧
      (Text.IsAscii name →
        Naming.generatedCode (Naming.generatedCode name) = Naming.generatedCode name ∧
        ∀ suffixes shared sources, ∃ reported,
          Reported (sources.filterMap (·.document.toOption)) (read suffixes shared sources)
            reported ∧
          ∀ declared ∈ reported, declared.2.name = some (Naming.generatedCode name) →
            declared.2.code ≠ some (Naming.generatedCode name)) := by
  refine ⟨Naming.generatedCode_eq_codeLoop name, Naming.generatedCode_eq_intercalate name,
    fun run => Naming.capitals_spell_runs, Naming.generatedCode_eq_empty_iff, fun hascii => ?_⟩
  have hstable := Naming.generatedCode_of_isAscii hascii
  refine ⟨hstable, fun suffixes shared sources => ?_⟩
  obtain ⟨reported, hreported⟩ := exists_reported suffixes shared sources
  refine ⟨reported, hreported, fun declared hdeclared hname hcode => ?_⟩
  have hmiscoded := (List.mem_filter.mp (hreported.miscoded.mem hdeclared)).2
  rw [Outline.Association.isMiscoded, hname, hcode] at hmiscoded
  simp [hstable] at hmiscoded

/-- A document with two associations. The first has a generated code for its name, the second has
another code than its name gives. -/
def orders : Source where
  path := "Orders.oom"
  format := .objectModel
  content :=
    "<Model><Code>Orders</Code>
      <Packages><Package Id='p'><Code>Sales</Code><Classes>
        <Class Id='x'><Code>Order</Code></Class><Class Id='y'><Code>Line</Code></Class>
      </Classes></Package></Packages>
      <Associations>
        <Association Id='l'>
          <Name>ORDER_LINE</Name><Code>ORDER_LINE</Code>
          <RoleAMultiplicity>1..1</RoleAMultiplicity><RoleBMultiplicity>0..*</RoleBMultiplicity>
          <Object1><Class Ref='x'/></Object1><Object2><Class Ref='y'/></Object2>
        </Association>
        <Association Id='f'>
          <Name>First line</Name><Code>FirstLine</Code>
          <RoleAMultiplicity>0..1</RoleAMultiplicity><RoleBMultiplicity>0..*</RoleBMultiplicity>
          <Object1><Class Ref='x'/></Object1><Object2><Class Ref='y'/></Object2>
        </Association>
      </Associations></Model>"

def ordersOutline : Outline where
  name := "Orders"
  label := none
  domains := []
  domainShortcuts := []
  namespaces := [⟨"p", "Sales", none, none, none,
    [⟨"x", "Order", none, none, none, false, none, none, none, false, false, false, []⟩,
      ⟨"y", "Line", none, none, none, false, none, none, none, false, false, false, []⟩]⟩]
  classShortcuts := []
  generalizations := []
  associations := [
    ⟨"l", some "ORDER_LINE", some "ORDER_LINE", ⟨"x", "1..1", none⟩, ⟨"y", "0..N", none⟩, none⟩,
    ⟨"f", some "FirstLine", some "First line", ⟨"x", "0..1", none⟩, ⟨"y", "0..N", none⟩, none⟩]

section Orders

set_option maxRecDepth 20000

/-- Reading the text once, for the kernel. -/
theorem document_orders : orders.document = .ok ⟨"Orders.oom", ordersOutline⟩ := by
  rw [Source.document, Source.outline, show Xml.parse? orders.content = _ from parse?_ofList _]
  decide +kernel

end Orders

theorem generated_codes_accepted_orders :
    Text.IsAscii " order - line " ∧ Naming.generatedCode " order - line " = "ORDER_LINE" ∧
      Naming.generatedCode (Naming.generatedCode " order - line ") =
        Naming.generatedCode " order - line " ∧
      ∃ graph found, read .standard [] [orders] = .ok (graph, found) ∧
        ∃ reported, Reported [⟨"Orders.oom", ordersOutline⟩] (read .standard [] [orders]) reported ∧
          (∀ declared ∈ reported,
            declared.2.name = some (Naming.generatedCode " order - line ") →
              declared.2.code ≠ some (Naming.generatedCode " order - line ")) ∧
          reported.map (·.2.id) = ["f"] := by
  have hascii : Text.IsAscii " order - line " := by decide +kernel
  obtain ⟨hstable, hread⟩ := (generated_codes_accepted " order - line ").2.2.2.2 hascii
  obtain ⟨reported, hreported, hothers⟩ := hread .standard [] [orders]
  have hsources : List.Forall₂ (fun source document => source.document = .ok document) [orders]
      [⟨"Orders.oom", ordersOutline⟩] := .cons document_orders .nil
  rw [filterMap_document hsources] at hreported
  obtain ⟨graph, found, hread, -⟩ := exists_read .standard [] hsources
    (P := fun _ _ => true) (by decide +kernel)
  refine ⟨hascii, by decide +kernel, hstable, graph, found, hread, reported, hreported, hothers, ?_⟩
  rw [hreported.complete graph found hread]
  decide +kernel

end Reading

end ModelSchema
