import ModelSchema.Proofs.Graph.Matching
import ModelSchema.Proofs.Reading.Declarations

/-!
# The order of documents

Documents may be read in any order, as long as what they declare is unambiguous: classes and domains
have codes of their own, and no class has two parents. Then reading succeeds in one order if it does
in the other, with the same mistakes, and the graphs correspond (`read_perm`). The argument:

* the two layouts hold the same classes in other positions (`renames_of_holds`);
* identifiers stand for classes of the same names (`find?_byName`), so the links of both runs are
  the same up to their order (`perm_allTies`);
* the same links, in any order, make graphs that correspond (`Graph.Renames.corresponds_tieAll`).
-/

namespace ModelSchema.Reading

open ModelSchema.Graph (Domain Property Tie Renames Corresponds)

theorem perm_declaredNamespaces {documents others : List Document}
    (h : others.Perm documents) :
    (declaredNamespaces others).Perm (declaredNamespaces documents) :=
  h.flatMap_right _

/-- In another order, the same namespaces and classes are declared. -/
theorem perm_declaredClasses {documents others : List Document} (h : others.Perm documents) :
    (declaredClasses others).Perm (declaredClasses documents) :=
  (perm_declaredNamespaces h).flatMap_right _

/-- Lists without common members are told apart by any of their members. -/
theorem eq_of_mem_flatMap {α β : Type} {f : α → List β} {as : List α}
    (h : (as.flatMap f).Nodup) {a b : α} (ha : a ∈ as) (hb : b ∈ as) {x : β} (hxa : x ∈ f a)
    (hxb : x ∈ f b) : a = b := by
  by_contra hne
  have hsymm : Std.Symm (Function.onFun List.Disjoint f) :=
    ⟨fun _ _ hdisjoint => hdisjoint.symm⟩
  exact (List.nodup_flatMap.mp h).2.forall ha hb hne hxa hxb

namespace Assembly

/-- The position in another graph of the class with the same name. Between the layouts of two orders
of the documents, this is the renaming. -/
def counterpart (before after : Graph) (id : ClassId) : ClassId :=
  (after.classNamed? (before.classAt id).name).getD 0

/-! ## Layouts

Two layouts of the same documents, in two orders. Everything is compared by name, as positions
differ. -/

section Layouts

variable {suffixes : Naming.Suffixes} {documents others : List Document} {before after : Graph}

/-- Domains do not depend on the order of the documents. Without codes declared twice, all
declarations are in effect. -/
theorem domains_withClasses (suffixes : Naming.Suffixes) {shared : List Domain}
    (hperm : others.Perm documents)
    (hcodes : ((declaredDomains shared documents).map (·.code)).Nodup) :
    (withClasses suffixes shared others).1.graph.domains =
      (withClasses suffixes shared documents).1.graph.domains := by
  have hdomains : (declaredDomains shared others).Perm (declaredDomains shared documents) :=
    (hperm.flatMap_right _).append_left shared
  have hknows := knows_withModels hcodes
  have hothers := knows_withModels ((hdomains.map (·.code)).nodup_iff.mpr hcodes)
  rw [(extends_withClasses suffixes shared others).domains,
    (extends_withClasses suffixes shared documents).domains]
  refine Catalog.ext_get? fun code => Option.ext fun domain => ?_
  rw [hothers.get, hknows.get, hdomains.mem_iff]

/-- A class is found by its name, as no other has it. -/
theorem Holds.own (h : Holds suffixes documents before)
    (hclasses : ((declaredClasses documents).map (·.2.code)).Nodup) {id : ClassId}
    (hid : id < before.classes.length) :
    before.classNamed? (before.classAt id).name = some id := by
  rw [← h.names] at hclasses
  exact Graph.classNamed?_name hclasses hid

variable (hperm : others.Perm documents) (hbefore : Holds suffixes documents before)
  (hafter : Holds suffixes others after)

include hperm hbefore hafter

theorem perm_names : (after.classes.map (·.name)).Perm (before.classes.map (·.name)) := by
  rw [hbefore.names, hafter.names]
  exact (perm_declaredClasses hperm).map _

/-- A name is known in both graphs or in none, and the counterpart of a class is found by the name
of the class. -/
theorem classNamed?_counterpart (name : String) :
    after.classNamed? name = (before.classNamed? name).map (counterpart before after) := by
  have hnames : name ∈ after.classes.map (·.name) ↔ name ∈ before.classes.map (·.name) :=
    (perm_names hperm hbefore hafter).mem_iff
  rw [← Graph.isSome_classNamed?_iff, ← Graph.isSome_classNamed?_iff] at hnames
  cases hfound : before.classNamed? name with
  | none =>
      rw [hfound] at hnames
      simpa using hnames
  | some id =>
      rw [hfound] at hnames
      obtain ⟨other, hother⟩ := Option.isSome_iff_exists.mp (hnames.mpr rfl)
      rw [Option.map_some, counterpart, Graph.name_of_classNamed? hfound, hother]
      rfl

variable (hclasses : ((declaredClasses documents).map (·.2.code)).Nodup)

include hclasses

theorem counterpart_spec {id : ClassId} (hid : id < before.classes.length) :
    after.classNamed? (before.classAt id).name = some (counterpart before after id) := by
  rw [classNamed?_counterpart hperm hbefore hafter, hbefore.own hclasses hid, Option.map_some]

/-- The counterpart of a class is declared by the same declaration. -/
theorem classAt_counterpart (hdomains : after.domains = before.domains) {id : ClassId}
    (hid : id < before.classes.length) :
    after.classAt (counterpart before after id) =
      { before.classAt id with
        home := (after.classAt (counterpart before after id)).home } := by
  have hfound := counterpart_spec hperm hbefore hafter hclasses hid
  obtain ⟨declared, hdeclared, hclass⟩ := hbefore.classes id hid
  obtain ⟨other, hother, hotherClass⟩ := hafter.classes _ (Graph.classNamed?_lt hfound)
  -- Both have one code, so they are one declaration.
  obtain rfl : other = declared := by
    refine List.inj_on_of_nodup_map hclasses ((perm_declaredClasses hperm).mem_iff.mp hother)
      hdeclared ?_
    have hname := Graph.name_of_classNamed? hfound
    rw [hotherClass, hclass] at hname
    exact hname
  rw [hotherClass, hclass, hdomains]
  rfl

/-- The namespace of the counterpart of a class is declared by the same declaration, and lists the
counterparts. -/
theorem namespaceOf_counterpart {id : ClassId} (hid : id < before.classes.length) :
    after.namespaceOf (counterpart before after id) =
      { before.namespaceOf id with
        classes := (before.namespaceOf id).classes.map (counterpart before after) } := by
  have hfound := counterpart_spec hperm hbefore hafter hclasses hid
  obtain ⟨declared, hdeclared, hcode, hspace, hnames⟩ := hbefore.spaces id hid
  obtain ⟨other, hother, hotherCode, hotherSpace, hotherNames⟩ :=
    hafter.spaces _ (Graph.classNamed?_lt hfound)
  -- Both declare the class, so they are one declaration.
  obtain rfl : other = declared := by
    rw [map_code_declaredClasses] at hclasses
    rw [Graph.name_of_classNamed? hfound] at hotherCode
    exact eq_of_mem_flatMap hclasses ((perm_declaredNamespaces hperm).mem_iff.mp hother) hdeclared
      hotherCode hcode
  -- Classes are listed by code, and found by code.
  have hown : ∀ listed ∈ (after.namespaceOf (counterpart before after id)).classes,
      (after.classNamed? (after.classAt listed).name).getD 0 = listed := by
    intro listed hlisted
    have hothers := ((perm_declaredClasses hperm).map (·.2.code)).nodup_iff.mpr hclasses
    rw [hafter.own hothers (hafter.wellFormed.lt_of_listed hlisted)]
    rfl
  have hlist : (after.namespaceOf (counterpart before after id)).classes =
      (before.namespaceOf id).classes.map (counterpart before after) :=
    calc (after.namespaceOf (counterpart before after id)).classes
        = ((after.namespaceOf (counterpart before after id)).classes.map fun listed =>
            (after.classAt listed).name).map fun name => (after.classNamed? name).getD 0 := by
          rw [List.map_map]
          exact (List.map_id _).symm.trans (List.map_congr_left fun listed hlisted =>
            (hown listed hlisted).symm)
      _ = ((before.namespaceOf id).classes.map fun listed =>
            (before.classAt listed).name).map fun name => (after.classNamed? name).getD 0 := by
          rw [hotherNames, hnames]
      _ = (before.namespaceOf id).classes.map (counterpart before after) := List.map_map
  rw [hotherSpace, hlist]
  conv => rhs; rw [hspace]

/-- Classes share a namespace in one order if they do in the other. -/
theorem home_counterpart_iff {a b : ClassId} (ha : a < before.classes.length)
    (hb : b < before.classes.length) :
    (after.classAt (counterpart before after a)).home =
        (after.classAt (counterpart before after b)).home ↔
      (before.classAt a).home = (before.classAt b).home := by
  have hlist (c : ClassId) (hc : c < before.classes.length) :
      (after.namespaceOf (counterpart before after c)).classes =
        (before.namespaceOf c).classes.map (counterpart before after) := by
    rw [namespaceOf_counterpart hperm hbefore hafter hclasses hc]
  have hown := hbefore.wellFormed.mem_namespaceOf hb
  constructor
  · intro hsame
    have hmem : counterpart before after b ∈
        (after.namespaceOf (counterpart before after a)).classes := by
      rw [Graph.namespaceOf, hsame, ← Graph.namespaceOf, hlist b hb]
      exact List.mem_map_of_mem hown
    rw [hlist a ha] at hmem
    obtain ⟨c, hc, heq⟩ := List.mem_map.mp hmem
    -- A class is told by the name of its counterpart.
    have hlt := hbefore.wellFormed.lt_of_listed hc
    have hnames : (before.classAt c).name = (before.classAt b).name := by
      rw [← Graph.name_of_classNamed? (counterpart_spec hperm hbefore hafter hclasses hlt), heq,
        Graph.name_of_classNamed? (counterpart_spec hperm hbefore hafter hclasses hb)]
    have hfound := hbefore.own hclasses hlt
    rw [hnames, hbefore.own hclasses hb] at hfound
    obtain rfl : b = c := Option.some.inj hfound
    exact (hbefore.wellFormed.home _ b hc).symm
  · intro hsame
    have hmem : counterpart before after b ∈
        (after.namespaceOf (counterpart before after a)).classes := by
      rw [hlist a ha, Graph.namespaceOf, hsame]
      exact List.mem_map_of_mem hown
    exact (hafter.wellFormed.home _ _ hmem).symm

/-- The same declarations in another order make a layout with the classes in other positions:
`classAt_counterpart` and `namespaceOf_counterpart` say how they agree, and `home_counterpart_iff`
that namespaces are not split or joined. -/
theorem renames_of_holds (hdomains : after.domains = before.domains) :
    Renames (counterpart before after) before after where
  domains := hdomains
  names := perm_names hperm hbefore hafter
  named := classNamed?_counterpart hperm hbefore hafter
  own _ := hbefore.own hclasses
  classes _ := classAt_counterpart hperm hbefore hafter hclasses hdomains
  unlinked := hbefore.unlinked
  homes _ ha _ hb := home_counterpart_iff hperm hbefore hafter hclasses ha hb
  spaces _ := namespaceOf_counterpart hperm hbefore hafter hclasses
  home_lt id hid := by
    have hlt := Graph.classNamed?_lt (counterpart_spec hperm hbefore hafter hclasses hid)
    exact ⟨hbefore.wellFormed.home_lt hid, hafter.wellFormed.home_lt hlt⟩

end Layouts

/-! ## Links by name

A link means classes through the scope of its document. Replacing all scopes by `Document.byName`
makes the links of two orders comparable. -/

/-- Documents with scopes in which identifiers stand for names. -/
def byNames (documents : List Document) : List (Document × Scope) :=
  documents.map fun document => (document, document.byName)

/-- What is said of a link through the classes its identifiers stand for may be said through their
names. -/
theorem map_declaredLinks_byNames {α β : Type} {f : Declared α → β}
    {placed : List (Document × Scope)}
    (h : ∀ entry ∈ placed, ∀ link, f ⟨entry.1, entry.2, link⟩ = f ⟨entry.1, entry.1.byName, link⟩)
    (links : Outline → List α) :
    (declaredLinks links placed).map f =
      (declaredLinks links (byNames (placed.map (·.1)))).map f := by
  induction placed with
  | nil => rfl
  | cons entry rest ih =>
      have hrest := ih fun other hother => h other (List.mem_cons_of_mem _ hother)
      rw [List.map_cons, byNames, List.map_cons, declaredLinks, List.flatMap_cons, List.map_append,
        declaredLinks, List.flatMap_cons, List.map_append]
      refine congrArg₂ _ ?_ hrest
      rw [List.map_map, List.map_map]
      exact List.map_congr_left fun link _ => h entry List.mem_cons_self link

theorem filterMap_eq_of_map_eq {α γ β : Type} {f : α → Option β} {g : γ → Option β} {as : List α}
    {cs : List γ} (h : as.map f = cs.map g) : as.filterMap f = cs.filterMap g := by
  have hreduce {δ : Type} (k : δ → Option β) (ds : List δ) :
      ds.filterMap k = (ds.map k).filterMap id := by
    rw [List.filterMap_map]
    rfl
  rw [hreduce f as, hreduce g cs, h]

section ByName

variable {suffixes : Naming.Suffixes} {shared : List Domain} {documents : List Document}

/-- Scopes come with the documents they belong to. -/
theorem placed_withClasses :
    (withClasses suffixes shared documents).2.map (·.1) = documents :=
  documents_addDocuments suffixes documents _ 0

variable (hcodes : ((declaredClasses documents).map (·.2.code)).Nodup)

include hcodes

/-- `tieOf?` and `effectsOf?` depend on a scope only through `find?`, so scopes by position may be
replaced by scopes by name. -/
theorem map_tieOf?_byNames :
    (declaredLinks (·.generalizations) (withClasses suffixes shared documents).2).map
        (tieOf? (withClasses suffixes shared documents).1.graph) =
      (declaredLinks (·.generalizations) (byNames documents)).map
        (tieOf? (withClasses suffixes shared documents).1.graph) := by
  rw [map_declaredLinks_byNames, placed_withClasses]
  intro entry hentry link
  simp only [tieOf?, find?_byName hcodes hentry]

theorem map_effectsOf?_byNames :
    (declaredLinks (·.associations) (withClasses suffixes shared documents).2).map
        (effectsOf? (withClasses suffixes shared documents).1.graph) =
      (declaredLinks (·.associations) (byNames documents)).map
        (effectsOf? (withClasses suffixes shared documents).1.graph) := by
  rw [map_declaredLinks_byNames, placed_withClasses]
  intro entry hentry link
  simp only [effectsOf?, find?_byName hcodes hentry]

/-- That every link leads to known classes can be said by name as well. -/
theorem known_byNames :
    Known (withClasses suffixes shared documents).1.graph
        (withClasses suffixes shared documents).2 ↔
      Known (withClasses suffixes shared documents).1.graph (byNames documents) := by
  have hall {α β : Type} {f : α → Option β} {as bs : List α} (h : as.map f = bs.map f) :
      (∀ a ∈ as, (f a).isSome) ↔ ∀ b ∈ bs, (f b).isSome := by
    rw [← List.forall_mem_map (f := f) (P := fun o => o.isSome = true), h, List.forall_mem_map]
  constructor
  · intro h
    exact ⟨(hall (map_tieOf?_byNames hcodes)).mp h.generalizations,
      (hall (map_effectsOf?_byNames hcodes)).mp h.associations⟩
  · intro h
    exact ⟨(hall (map_tieOf?_byNames hcodes)).mpr h.generalizations,
      (hall (map_effectsOf?_byNames hcodes)).mpr h.associations⟩

theorem associationEffects_byNames :
    associationEffects (withClasses suffixes shared documents).1.graph
        (withClasses suffixes shared documents).2 =
      associationEffects (withClasses suffixes shared documents).1.graph (byNames documents) := by
  rw [associationEffects, associationEffects,
    filterMap_eq_of_map_eq (map_effectsOf?_byNames hcodes)]

theorem allTies_byNames :
    allTies (withClasses suffixes shared documents).1.graph
        (withClasses suffixes shared documents).2 =
      allTies (withClasses suffixes shared documents).1.graph (byNames documents) := by
  rw [allTies, allTies, parentTies, parentTies, filterMap_eq_of_map_eq (map_tieOf?_byNames hcodes),
    associationEffects_byNames hcodes]

end ByName

/-! ## Links in two orders -/

/-- The scope of such a link is determined by its document. -/
theorem mem_declaredLinks_byNames {α : Type} {links : Outline → List α} {documents : List Document}
    {declared : Declared α} (h : declared ∈ declaredLinks links (byNames documents)) :
    declared.scope = declared.document.byName := by
  obtain ⟨document, -, heq⟩ := List.mem_map.mp (mem_of_mem_declaredLinks h)
  obtain ⟨hdocument, hscope⟩ := Prod.mk.inj heq
  rw [← hscope, ← hdocument]

/-- By name, the links of two orders are a permutation of each other. By position they would not be.
-/
theorem perm_declaredLinks {α : Type} (links : Outline → List α) {documents others : List Document}
    (h : others.Perm documents) :
    (declaredLinks links (byNames others)).Perm (declaredLinks links (byNames documents)) :=
  (h.map _).flatMap_right _

section Relink

variable {f : ClassId → ClassId} {before after : Graph} (h : Renames f before after)

include h

/-- Names lead to the same classes. -/
theorem find?_relink (document : Document) (reference : String) :
    find? after document.byName reference = (find? before document.byName reference).map f := by
  simp only [find?, Document.byName, List.lookup_nil, h.named]

theorem tieOf?_relink {declared : Declared Outline.Generalization}
    (hscope : declared.scope = declared.document.byName) :
    tieOf? after declared = (tieOf? before declared).map (·.relink f) := by
  simp only [tieOf?, hscope, find?_relink h]
  cases find? before declared.document.byName declared.link.parent <;>
    cases find? before declared.document.byName declared.link.child <;> rfl

/-- An association has the same effects with the classes renamed, since the classes at its ends look
alike (`linkEffects_relink`). -/
theorem effectsOf?_relink {declared : Declared Outline.Association}
    (hscope : declared.scope = declared.document.byName) :
    effectsOf? after declared = (effectsOf? before declared).map (·.map (·.relink f)) := by
  simp only [effectsOf?, hscope, find?_relink h]
  cases ha : find? before declared.document.byName declared.link.a.classId with
  | none => rfl
  | some a =>
      cases hb : find? before declared.document.byName declared.link.b.classId with
      | none => rfl
      | some b =>
          have hwithin : declared.document.byName.Within before.classes.length :=
            fun _ hentry => absurd hentry List.not_mem_nil
          refine congrArg some (linkEffects_relink
            (linkOf declared.document declared.link a b) (fun side => h.alike ?_) declared.link)
          cases side with
          | a => exact find?_lt hwithin ha
          | b => exact find?_lt hwithin hb

variable {documents others : List Document} (hperm : others.Perm documents)

include hperm

/-- Links lead to known classes in one order if they do in the other. -/
theorem known_iff : Known after (byNames others) ↔ Known before (byNames documents) := by
  have hsome {α β : Type} (links : Outline → List α) {g k : Declared α → Option β}
      (heq : ∀ declared ∈ declaredLinks links (byNames documents),
        (g declared).isSome = (k declared).isSome) :
      (∀ declared ∈ declaredLinks links (byNames others), (g declared).isSome) ↔
        ∀ declared ∈ declaredLinks links (byNames documents), (k declared).isSome := by
    simp only [(perm_declaredLinks links hperm).mem_iff]
    exact forall₂_congr fun declared hdeclared => by rw [heq declared hdeclared]
  have hties := hsome (·.generalizations) (g := tieOf? after) (k := tieOf? before)
    fun declared hdeclared => by
      rw [tieOf?_relink h (mem_declaredLinks_byNames hdeclared), Option.isSome_map]
  have heffects := hsome (·.associations) (g := effectsOf? after) (k := effectsOf? before)
    fun declared hdeclared => by
      rw [effectsOf?_relink h (mem_declaredLinks_byNames hdeclared), Option.isSome_map]
  exact ⟨fun hknown => ⟨hties.mp hknown.generalizations, heffects.mp hknown.associations⟩,
    fun hknown => ⟨hties.mpr hknown.generalizations, heffects.mpr hknown.associations⟩⟩

/-- Ties of generalizations: permuted by the order of the documents, and renamed. -/
theorem perm_parentTies :
    (parentTies after (byNames others)).Perm
      ((parentTies before (byNames documents)).map (·.relink f)) := by
  have hrelink : (declaredLinks (·.generalizations) (byNames documents)).filterMap (tieOf? after) =
      (parentTies before (byNames documents)).map (·.relink f) := by
    rw [parentTies, List.map_filterMap]
    exact List.filterMap_congr fun declared hdeclared =>
      tieOf?_relink h (mem_declaredLinks_byNames hdeclared)
  rw [← hrelink]
  exact (perm_declaredLinks _ hperm).filterMap _

theorem perm_associationEffects :
    (associationEffects after (byNames others)).Perm
      ((associationEffects before (byNames documents)).map (·.relink f)) := by
  have hrelink : (declaredLinks (·.associations) (byNames documents)).filterMap
      (effectsOf? after) = ((declaredLinks (·.associations) (byNames documents)).filterMap
        (effectsOf? before)).map (·.map (·.relink f)) := by
    rw [List.map_filterMap]
    exact List.filterMap_congr fun declared hdeclared =>
      effectsOf?_relink h (mem_declaredLinks_byNames hdeclared)
  rw [associationEffects, associationEffects, List.map_flatten, ← hrelink]
  exact ((perm_declaredLinks _ hperm).filterMap _).flatten

/-- The links of both orders are the same up to their order. -/
theorem perm_allTies :
    (allTies after (byNames others)).Perm
      ((allTies before (byNames documents)).map (·.relink f)) := by
  have htie (effects : List Effect) : (effects.map (·.relink f)).filterMap Effect.tie? =
      (effects.filterMap Effect.tie?).map (·.relink f) := by
    rw [List.filterMap_map, List.map_filterMap]
    exact List.filterMap_congr fun effect _ => by cases effect <;> rfl
  rw [allTies, allTies, List.map_append, ← htie]
  exact (perm_parentTies h hperm).append ((perm_associationEffects h hperm).filterMap _)

/-- The mistakes of both orders are the same up to their order. -/
theorem perm_mistakes :
    ((associationEffects after (byNames others)).filterMap Effect.mistake?).Perm
      ((associationEffects before (byNames documents)).filterMap Effect.mistake?) := by
  have hmistake (effects : List Effect) : (effects.map (·.relink f)).filterMap Effect.mistake? =
      effects.filterMap Effect.mistake? := by
    rw [List.filterMap_map]
    exact List.filterMap_congr fun effect _ => by cases effect <;> rfl
  rw [← hmistake (associationEffects before (byNames documents))]
  exact (perm_associationEffects h hperm).filterMap _

end Relink

/-! ## Runs -/

/-- What documents declare leaves no choice: classes and domains have codes of their own, and no
class is the child of two generalizations. -/
structure Unambiguous (suffixes : Naming.Suffixes) (shared : List Domain)
    (documents : List Document) : Prop where
  classes : ((declaredClasses documents).map (·.2.code)).Nodup
  domains : ((declaredDomains shared documents).map (·.code)).Nodup
  children : ((declaredLinks (·.generalizations)
      (withClasses suffixes shared documents).2).filterMap fun declared =>
    find? (withClasses suffixes shared documents).1.graph declared.scope
      declared.link.child).Nodup

/-- The ties of a graph lead from one of its classes to another. -/
theorem within_allTies {graph : Graph} {documents : List Document} :
    ∀ t ∈ allTies graph (byNames documents), t.Within graph.classes.length := by
  refine allTies_lt fun entry hentry => ?_
  obtain ⟨document, -, rfl⟩ := List.mem_map.mp hentry
  intro declared hdeclared
  exact absurd hdeclared List.not_mem_nil

/-- Properties that come with ties are linked to a class. -/
theorem linked_allTies {graph : Graph} {placed : List (Document × Scope)} :
    ∀ t ∈ allTies graph placed, ∀ holder target added, t = .property holder target added →
      added.kind ≠ .primitive := by
  rintro t ht holder target added rfl hprimitive
  have hlinked := (linked_of_mem_allTies ht).2
  rw [hprimitive] at hlinked
  cases hlinked

/-- If all links lead to known classes, the children are those of the generalizations. So
`Unambiguous.children` says that no class gets two parents. -/
theorem filterMap_child?_allTies {graph : Graph} {placed : List (Document × Scope)}
    (hknown : Known graph placed) :
    (allTies graph placed).filterMap Tie.child? =
      (declaredLinks (·.generalizations) placed).filterMap fun declared =>
        find? graph declared.scope declared.link.child := by
  have hproperties : ((associationEffects graph placed).filterMap Effect.tie?).filterMap
      Tie.child? = [] := by
    rw [List.filterMap_eq_nil_iff]
    intro t ht
    obtain ⟨_, _, _, _, -, -, hlink⟩ := exists_association ht
    obtain ⟨_, _, rfl, -, -⟩ := exists_side hlink
    rfl
  rw [allTies, List.filterMap_append, hproperties, List.append_nil, parentTies,
    List.filterMap_filterMap]
  refine List.filterMap_congr fun declared hdeclared => ?_
  have hsome := hknown.generalizations declared hdeclared
  rw [tieOf?] at hsome ⊢
  split at hsome
  · next parent child _ hchild =>
    rw [hchild]
    rfl
  · cases hsome

section Run

variable {suffixes : Naming.Suffixes} {shared : List Domain} {documents others : List Document}
  (hperm : others.Perm documents) (h : Unambiguous suffixes shared documents)

include hperm h

theorem renames_withClasses :
    Renames (counterpart (withClasses suffixes shared documents).1.graph
        (withClasses suffixes shared others).1.graph)
      (withClasses suffixes shared documents).1.graph
      (withClasses suffixes shared others).1.graph :=
  renames_of_holds hperm (holds_withClasses suffixes shared documents)
    (holds_withClasses suffixes shared others) h.classes
    (domains_withClasses suffixes hperm h.domains)

theorem known_withClasses_iff :
    Known (withClasses suffixes shared others).1.graph (withClasses suffixes shared others).2 ↔
      Known (withClasses suffixes shared documents).1.graph
        (withClasses suffixes shared documents).2 := by
  have hclasses := ((perm_declaredClasses hperm).map (·.2.code)).nodup_iff.mpr h.classes
  rw [known_byNames hclasses, known_byNames h.classes]
  exact known_iff (renames_withClasses hperm h) hperm

/-- Before the links the same mistakes have been found: none about domains, and those about
stereotypes class by class. -/
theorem perm_diagnostics_withClasses :
    (withClasses suffixes shared others).1.diagnostics.Perm
      (withClasses suffixes shared documents).1.diagnostics := by
  have hdomains : (declaredDomains shared others).Perm (declaredDomains shared documents) :=
    (hperm.flatMap_right _).append_left shared
  have hcodes := (hdomains.map (·.code)).nodup_iff.mpr h.domains
  rw [(extends_withClasses suffixes shared others).diagnostics,
    (extends_withClasses suffixes shared documents).diagnostics,
    (knows_withModels hcodes).diagnostics, (knows_withModels h.domains).diagnostics]
  exact (perm_declaredClasses hperm).filterMap _

/-- A run on unambiguous documents does not depend on their order. Both runs are in the form of
`run_eq_ok_iff_known`; layouts, links and mistakes are compared one after the other. -/
theorem run_perm :
    ((∃ final, run suffixes shared others = .ok final) ↔
        ∃ final, run suffixes shared documents = .ok final) ∧
      ∀ before after, run suffixes shared documents = .ok before →
        run suffixes shared others = .ok after →
          after.diagnostics.Perm before.diagnostics ∧
            ∃ f, Corresponds f before.graph after.graph := by
  simp only [run_eq_ok_iff_known]
  constructor
  · simp only [exists_and_left, exists_eq, and_true]
    exact known_withClasses_iff hperm h
  · rintro before after ⟨hknown, rfl⟩ ⟨-, rfl⟩
    have hrenames := renames_withClasses hperm h
    have hclasses := ((perm_declaredClasses hperm).map (·.2.code)).nodup_iff.mpr h.classes
    have hchildren := h.children
    rw [← filterMap_child?_allTies hknown] at hchildren
    rw [allTies_byNames h.classes, associationEffects_byNames h.classes] at *
    rw [allTies_byNames hclasses, associationEffects_byNames hclasses]
    refine ⟨?_, _, hrenames.corresponds_tieAll within_allTies (perm_allTies hrenames hperm)
      hchildren linked_allTies⟩
    exact (perm_diagnostics_withClasses hperm h).append (perm_mistakes hrenames hperm)

end Run

end Assembly

/-! ## Reading -/

/-- The order of documents does not matter, if what they declare is unambiguous. Reading succeeds in
one order exactly if it does in the other. Then the same mistakes are found, and classes of one name
agree in every field, up to the order of the properties that associations have added. -/
theorem read_perm {suffixes : Naming.Suffixes} {shared : List Domain} {sources others : List Source}
    (hperm : others.Perm sources)
    (h : ∀ documents, sources.mapM Source.document = .ok documents →
      Assembly.Unambiguous suffixes shared documents) :
    ((∃ result, read suffixes shared others = .ok result) ↔
        ∃ result, read suffixes shared sources = .ok result) ∧
      ∀ graph found other noted, read suffixes shared sources = .ok (graph, found) →
        read suffixes shared others = .ok (other, noted) →
          noted.Perm found ∧ ∃ f, Corresponds f graph other := by
  refine ⟨⟨?_, ?_⟩, ?_⟩
  · rintro ⟨⟨graph, found⟩, hread⟩
    obtain ⟨documents, hothers, hrun⟩ := read_eq_ok hread
    obtain ⟨first, hfirst, hdocuments⟩ := List.perm_comp_forall₂ hperm.symm hothers
    obtain ⟨final, hfinal⟩ :=
      (Assembly.run_perm hdocuments.symm (h first (mapM_of_forall₂ hfirst))).1.mp ⟨_, hrun⟩
    exact ⟨_, read_of_run hfirst hfinal⟩
  · rintro ⟨⟨graph, found⟩, hread⟩
    obtain ⟨documents, hsources, hrun⟩ := read_eq_ok hread
    obtain ⟨second, hsecond, hdocuments⟩ := List.perm_comp_forall₂ hperm hsources
    obtain ⟨final, hfinal⟩ :=
      (Assembly.run_perm hdocuments (h documents (mapM_of_forall₂ hsources))).1.mpr ⟨_, hrun⟩
    exact ⟨_, read_of_run hsecond hfinal⟩
  · intro graph found other noted hread hother
    obtain ⟨documents, hsources, hrun⟩ := read_eq_ok hread
    obtain ⟨second, hsecond, hdocuments⟩ := List.perm_comp_forall₂ hperm hsources
    obtain ⟨same, hsame, hrunOther⟩ := read_eq_ok hother
    obtain rfl : same = second :=
      Except.ok.inj ((mapM_of_forall₂ hsame).symm.trans (mapM_of_forall₂ hsecond))
    exact (Assembly.run_perm hdocuments (h documents (mapM_of_forall₂ hsources))).2 _ _ hrun
      hrunOther

/-- A document with a class that refers to a class of `sample`, by identifiers that mean something
else there. -/
def gallery : Source where
  path := "Art.oom"
  format := .objectModel
  content :=
    "<Model><Code>Art</Code>
      <Packages><Package Id='p'><Code>Gallery</Code><Classes>
        <Class Id='x'><Code>Palette</Code><Persistent>1</Persistent></Class>
        <Shortcut Id='y'><Code>Color</Code></Shortcut>
      </Classes></Package></Packages>
      <Associations><Association Id='s'>
        <RoleAMultiplicity>0..*</RoleAMultiplicity><RoleBMultiplicity>1..1</RoleBMultiplicity>
        <Object1><Class Ref='x'/></Object1><Object2><Shortcut Ref='y'/></Object2>
      </Association></Associations></Model>"

def galleryOutline : Outline where
  name := "Art"
  label := none
  domains := []
  domainShortcuts := []
  namespaces := [⟨"p", "Gallery", none, none, none,
    [⟨"x", "Palette", none, none, none, true, none, none, none, false, false, false, []⟩]⟩]
  classShortcuts := [⟨"y", "Color"⟩]
  generalizations := []
  associations := [⟨"s", none, none, ⟨"x", "0..N", none⟩, ⟨"y", "1..1", none⟩, none⟩]

set_option maxRecDepth 20000 in
theorem document_gallery : gallery.document = .ok ⟨"Art.oom", galleryOutline⟩ := by
  rw [Source.document, Source.outline, show Xml.parse? gallery.content = _ from parse?_ofList _]
  decide +kernel

theorem read_perm_gallery :
    (∀ documents, [sample, gallery].mapM Source.document = .ok documents →
      Assembly.Unambiguous .standard [] documents) ∧
    ∃ graph found other noted,
      read .standard [] [sample, gallery] = .ok (graph, found) ∧
      read .standard [] [gallery, sample] = .ok (other, noted) ∧
      (noted.Perm found ∧ ∃ f, Corresponds f graph other) ∧
      graph.classes.map (·.name) = ["Color", "Shade", "Palette"] ∧
      other.classes.map (·.name) = ["Palette", "Color", "Shade"] := by
  have hdocuments : List.Forall₂ (fun source document => source.document = .ok document)
      [sample, gallery] [⟨"Shop.oom", sampleOutline⟩, ⟨"Art.oom", galleryOutline⟩] :=
    .cons document_sample (.cons document_gallery .nil)
  have hothers : List.Forall₂ (fun source document => source.document = .ok document)
      [gallery, sample] [⟨"Art.oom", galleryOutline⟩, ⟨"Shop.oom", sampleOutline⟩] :=
    .cons document_gallery (.cons document_sample .nil)
  have hdistinct : ∀ documents, [sample, gallery].mapM Source.document = .ok documents →
      Assembly.Unambiguous .standard [] documents := by
    intro documents h
    obtain rfl := Except.ok.inj ((mapM_of_forall₂ hdocuments).symm.trans h)
    exact ⟨by decide +kernel, by decide +kernel, by decide +kernel⟩
  obtain ⟨graph, found, hread, hnames⟩ := exists_read .standard [] hdocuments
    (P := fun graph _ => graph.classes.map (·.name) == ["Color", "Shade", "Palette"])
    (by cbv)
  obtain ⟨other, noted, hother, hotherNames⟩ := exists_read .standard [] hothers
    (P := fun graph _ => graph.classes.map (·.name) == ["Palette", "Color", "Shade"])
    (by cbv)
  exact ⟨hdistinct, graph, found, other, noted, hread, hother,
    (read_perm (.swap ..) hdistinct).2 graph found other noted hread hother,
    beq_iff_eq.mp hnames, beq_iff_eq.mp hotherNames⟩

end ModelSchema.Reading
