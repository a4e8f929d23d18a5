import ModelSchema.Proofs.Catalog
import ModelSchema.Proofs.Graph.Ties

/-!
# Graphs that match

Two graphs may hold the same classes at different positions. `Graph.Renames` says that a function
takes the positions of a graph without links to those of the same classes in another one. If the
same links are put into both, in any order, the results correspond (`corresponds_tieAll`): classes
of one name agree in every field, up to the order of the properties that came with the links.
-/

namespace ModelSchema.Graph

/-! ## Links -/

def Tie.Within (size : Nat) (t : Tie) : Prop :=
  t.user < size ∧ t.used < size

def Tie.child? : Tie → Option ClassId
  | .parent child _ => some child
  | .property _ _ _ => none

/-- A class gets as many parents as it is a child. -/
theorem length_parents (ties : List Tie) (id : ClassId) :
    (ties.filterMap (·.parentAt? id)).length = (ties.filterMap Tie.child?).count id := by
  induction ties with
  | nil => rfl
  | cons t rest ih =>
      cases t with
      | parent child above =>
          rw [List.filterMap_cons_some (f := Tie.child?) rfl, List.count_cons, ← ih]
          by_cases h : child = id <;> simp [Tie.parentAt?, h]
      | property holder target added =>
          rw [List.filterMap_cons_none (f := Tie.child?) rfl, ← ih]
          rfl

/-- A list of at most one element is determined by its elements. -/
theorem eq_of_perm_of_length_le_one {α : Type} {as bs : List α} (h : as.Perm bs)
    (hbs : bs.length ≤ 1) : as = bs := by
  match bs, hbs with
  | [], _ => exact h.eq_nil
  | [b], _ => exact List.perm_singleton.mp h

/-! ## Layouts -/

/-- A function takes the classes of a graph without links to the same classes of another graph. This
is where two readings of the same documents in different order stand after their second pass. -/
structure Renames (f : ClassId → ClassId) (before after : Graph) : Prop where
  domains : after.domains = before.domains
  names : (after.classes.map (·.name)).Perm (before.classes.map (·.name))
  named : ∀ name, after.classNamed? name = (before.classNamed? name).map f
  own : ∀ id < before.classes.length, before.classNamed? (before.classAt id).name = some id
  classes : ∀ id < before.classes.length,
    after.classAt (f id) = { before.classAt id with home := (after.classAt (f id)).home }
  unlinked : ∀ id, (before.classAt id).parent = none ∧
    ∀ property ∈ (before.classAt id).properties, property.kind = .primitive
  /-- Classes share a namespace in one graph if they do in the other. -/
  homes : ∀ a < before.classes.length, ∀ b < before.classes.length,
    (after.classAt (f a)).home = (after.classAt (f b)).home ↔
      (before.classAt a).home = (before.classAt b).home
  spaces : ∀ id < before.classes.length, after.namespaceOf (f id) =
    { before.namespaceOf id with classes := (before.namespaceOf id).classes.map f }
  home_lt : ∀ id < before.classes.length, (before.classAt id).home < before.namespaces.length ∧
    (after.classAt (f id)).home < after.namespaces.length

/-- Classes of one name agree in two graphs. The function takes positions of the first graph to
those of the second. -/
structure Corresponds (f : ClassId → ClassId) (before after : Graph) : Prop where
  domains : after.domains = before.domains
  /-- Both graphs have the same classes. -/
  names : (after.classes.map (·.name)).Perm (before.classes.map (·.name))
  /-- Classes are matched by name. -/
  matched : ∀ id < before.classes.length,
    after.classNamed? (before.classAt id).name = some (f id)
  fields : ∀ id < before.classes.length, after.classAt (f id) =
    { before.classAt id with
      parent := (before.classAt id).parent.map f
      properties := (after.classAt (f id)).properties
      home := (after.classAt (f id)).home }
  /-- Declared properties come first and agree; the others agree up to their order. -/
  properties : ∀ id < before.classes.length, ∃ declared linked others,
    (before.classAt id).properties = declared ++ linked ∧
    (after.classAt (f id)).properties = declared ++ others ∧
    (∀ property ∈ declared, property.kind = .primitive) ∧
    (∀ property ∈ linked, property.kind ≠ .primitive) ∧
    others.Perm (linked.map (·.relink f))
  /-- Namespaces agree, dependencies included. -/
  spaces : ∀ id < before.classes.length, after.namespaceOf (f id) =
    { before.namespaceOf id with classes := (before.namespaceOf id).classes.map f }

namespace Renames

variable {f : ClassId → ClassId} {before after : Graph}

/-- What `f` does is forced: it takes a class to the one of its name. -/
theorem matched (h : Renames f before after) {id : ClassId} (hid : id < before.classes.length) :
    after.classNamed? (before.classAt id).name = some (f id) := by
  rw [h.named, h.own id hid, Option.map_some]

theorem lt (h : Renames f before after) {id : ClassId} (hid : id < before.classes.length) :
    f id < after.classes.length :=
  classNamed?_lt (h.matched hid)

/-- Positions of different classes have different names, and `f` keeps names. -/
theorem injective (h : Renames f before after) {a b : ClassId} (ha : a < before.classes.length)
    (hb : b < before.classes.length) (heq : f a = f b) : a = b := by
  have hname : (before.classAt a).name = (before.classAt b).name := by
    have hnames := congrArg (·.name) (h.classes a ha)
    rw [heq, h.classes b hb] at hnames
    exact hnames.symm
  have hown := h.own a ha
  rw [hname, h.own b hb] at hown
  exact (Option.some.inj hown).symm

/-- An association sees no difference between a class and its image (`Class.Alike`), so it is put
into effect in both graphs alike. -/
theorem alike (h : Renames f before after) {id : ClassId} (hid : id < before.classes.length) :
    (before.classAt id).Alike (after.classAt (f id)) := by
  rw [h.classes id hid]
  exact ⟨rfl, rfl, rfl, rfl, rfl⟩

section Ties

variable {ties others : List Tie} (h : Renames f before after)
  (hwithin : ∀ t ∈ ties, t.Within before.classes.length)

include h hwithin

/-- A class is given the same properties in both graphs. Renaming must not merge two holders, hence
the bound on the ties and `injective`. -/
theorem filterMap_propertyAt? {id : ClassId} (hid : id < before.classes.length) :
    (ties.map (·.relink f)).filterMap (·.propertyAt? (f id)) =
      (ties.filterMap (·.propertyAt? id)).map (·.relink f) := by
  rw [List.filterMap_map, List.map_filterMap]
  refine List.filterMap_congr fun t ht => ?_
  cases t with
  | parent child above => rfl
  | property holder target added =>
      have hholder : holder < before.classes.length := (hwithin _ ht).1
      by_cases heq : holder = id
      · simp [Tie.relink, Tie.propertyAt?, heq]
      · have hne : f holder ≠ f id := fun hsame => heq (h.injective hholder hid hsame)
        simp [Tie.relink, Tie.propertyAt?, heq, hne]

/-- A class is given the same parents in both graphs. -/
theorem filterMap_parentAt? {id : ClassId} (hid : id < before.classes.length) :
    (ties.map (·.relink f)).filterMap (·.parentAt? (f id)) =
      (ties.filterMap (·.parentAt? id)).map f := by
  rw [List.filterMap_map, List.map_filterMap]
  refine List.filterMap_congr fun t ht => ?_
  cases t with
  | property holder target added => rfl
  | parent child above =>
      have hchild : child < before.classes.length := (hwithin _ ht).1
      by_cases heq : child = id
      · simp [Tie.relink, Tie.parentAt?, heq]
      · have hne : f child ≠ f id := fun hsame => heq (h.injective hchild hid hsame)
        simp [Tie.relink, Tie.parentAt?, heq, hne]

variable (hothers : others.Perm (ties.map (·.relink f)))

include hothers

/-- Namespaces come to depend on namespaces of the same names. Dependencies are sets of names, so
here the order of the ties plays no part at all. -/
theorem uses_tieAll {id : ClassId} (hid : id < before.classes.length) :
    ((after.tieAll others).namespaceAt (after.classAt (f id)).home).uses =
      ((before.tieAll ties).namespaceAt (before.classAt id).home).uses := by
  apply NameSet.ext_mem
  intro name
  rw [mem_uses_tieAll (h.home_lt id hid).2, mem_uses_tieAll (h.home_lt id hid).1]
  have hown : name ∈ (after.namespaceAt (after.classAt (f id)).home).uses ↔
      name ∈ (before.namespaceAt (before.classAt id).home).uses := by
    rw [show after.namespaceAt (after.classAt (f id)).home = after.namespaceOf (f id) from rfl,
      h.spaces id hid]
    rfl
  have hleads (t : Tie) (ht : t ∈ ties) :
      ((after.classAt (t.relink f).user).home = (after.classAt (f id)).home ∧
        (after.classAt (t.relink f).used).home ≠ (after.classAt (f id)).home ∧
        name = (after.namespaceOf (t.relink f).used).name) ↔
      ((before.classAt t.user).home = (before.classAt id).home ∧
        (before.classAt t.used).home ≠ (before.classAt id).home ∧
        name = (before.namespaceOf t.used).name) := by
    obtain ⟨huser, hused⟩ := hwithin t ht
    rw [Tie.user_relink, Tie.used_relink, Ne, Ne, h.homes _ huser _ hid, h.homes _ hused _ hid,
      h.spaces _ hused]
  refine or_congr hown ⟨?_, ?_⟩
  · rintro ⟨other, hother, hprops⟩
    obtain ⟨t, ht, rfl⟩ := List.mem_map.mp (hothers.mem_iff.mp hother)
    exact ⟨t, ht, (hleads t ht).mp hprops⟩
  · rintro ⟨t, ht, hprops⟩
    exact ⟨t.relink f, hothers.mem_iff.mpr (List.mem_map_of_mem ht), (hleads t ht).mpr hprops⟩

/-- Ties change `uses` and nothing else about a namespace. -/
theorem namespaceOf_tieAll {id : ClassId} (hid : id < before.classes.length) :
    (after.tieAll others).namespaceOf (f id) =
      { (before.tieAll ties).namespaceOf id with
        classes := ((before.tieAll ties).namespaceOf id).classes.map f } := by
  have hgrows := grows_tieAll before ties
  have hgrowsAfter := grows_tieAll after others
  have hspace : after.namespaceAt (after.classAt (f id)).home =
      { before.namespaceOf id with classes := (before.namespaceOf id).classes.map f } :=
    h.spaces id hid
  rw [namespaceOf, namespaceOf, hgrowsAfter.home, hgrows.home, hgrowsAfter.namespaceAt,
    hgrows.namespaceAt, h.uses_tieAll hwithin hothers hid, hspace]
  rfl

/-- A class keeps its declared properties, and is given the same others. Their order is that of the
ties, so it is only known up to a permutation. -/
theorem properties_tieAll
    (hlinked : ∀ t ∈ ties, ∀ holder target added, t = .property holder target added →
      added.kind ≠ .primitive) {id : ClassId} (hid : id < before.classes.length) :
    ∃ declared linked added,
      ((before.tieAll ties).classAt id).properties = declared ++ linked ∧
      ((after.tieAll others).classAt (f id)).properties = declared ++ added ∧
      (∀ property ∈ declared, property.kind = .primitive) ∧
      (∀ property ∈ linked, property.kind ≠ .primitive) ∧
      added.Perm (linked.map (·.relink f)) := by
  refine ⟨(before.classAt id).properties, ties.filterMap (·.propertyAt? id),
    others.filterMap (·.propertyAt? (f id)), ?_, ?_, (h.unlinked id).2, ?_, ?_⟩
  · rw [classAt_tieAll hid]
  · rw [classAt_tieAll (h.lt hid), h.classes id hid]
  · intro property hproperty
    obtain ⟨t, ht, heq⟩ := List.mem_filterMap.mp hproperty
    cases t with
    | parent child above => cases heq
    | property holder target added =>
        simp only [Tie.propertyAt?, Option.ite_none_right_eq_some, Option.some.injEq] at heq
        exact heq.2 ▸ hlinked _ ht holder target added rfl
  · rw [← h.filterMap_propertyAt? hwithin hid]
    exact hothers.filterMap _

/-- The order of ties does not matter to parents, as a class is given one at most. -/
theorem parents_tieAll (hchildren : (ties.filterMap Tie.child?).Nodup) {id : ClassId}
    (hid : id < before.classes.length) :
    others.filterMap (·.parentAt? (f id)) = (ties.filterMap (·.parentAt? id)).map f := by
  refine eq_of_perm_of_length_le_one ?_ ?_
  · rw [← h.filterMap_parentAt? hwithin hid]
    exact hothers.filterMap _
  · rw [List.length_map, length_parents]
    exact List.nodup_iff_count_le_one.mp hchildren id

/-- The same links, put into both graphs in any order, make graphs that correspond, if no class gets
two parents. With two, the last one would win in either graph, and it need not be the same. -/
theorem corresponds_tieAll (hchildren : (ties.filterMap Tie.child?).Nodup)
    (hlinked : ∀ t ∈ ties, ∀ holder target added, t = .property holder target added →
      added.kind ≠ .primitive) :
    Corresponds f (before.tieAll ties) (after.tieAll others) := by
  have hgrows := grows_tieAll before ties
  have hgrowsAfter := grows_tieAll after others
  refine ⟨?_, ?_, ?_, ?_, ?_, ?_⟩
  · rw [hgrowsAfter.domains, hgrows.domains, h.domains]
  · rw [hgrowsAfter.names, hgrows.names]
    exact h.names
  · intro id hid
    rw [hgrows.size] at hid
    obtain ⟨_, _, heq⟩ := hgrows.classes id
    rw [heq, hgrowsAfter.classNamed?]
    exact h.matched hid
  · intro id hid
    rw [hgrows.size] at hid
    -- There was no parent before the ties, so all of them come from the ties.
    rw [classAt_tieAll hid, classAt_tieAll (h.lt hid), h.classes id hid,
      h.parents_tieAll hwithin hothers hchildren hid, (h.unlinked id).1, List.getLast?_map]
    cases (ties.filterMap (·.parentAt? id)).getLast? <;> rfl
  · intro id hid
    rw [hgrows.size] at hid
    exact h.properties_tieAll hwithin hothers hlinked hid
  · intro id hid
    rw [hgrows.size] at hid
    exact h.namespaceOf_tieAll hwithin hothers hid

end Ties

end Renames

end ModelSchema.Graph
