import ModelSchema.Graph.Basic

/-!
# Graphs that grow

Once all classes of a graph are there, links are put in one by one: a class gets a parent or a
further property, and a namespace a further dependency. `Graph.Grows` says that nothing else has
changed between two graphs. It is reflexive and transitive, and every such step satisfies it, so it
holds between any two moments of a run.
-/

namespace ModelSchema.Graph

/-! ## Looking classes up

Classes are addressed by their positions in `Graph.classes`, and found by name at the first position
that has it. -/

/-- `classAt` is total: a position without class gives the class without anything. Most lemmas below
need no bound on a position because of it. -/
theorem classAt_eq_default {graph : Graph} {id : ClassId} (h : graph.classes.length ≤ id) :
    graph.classAt id = default := by
  simp [classAt, h]

theorem namespaceAt_eq_default {graph : Graph} {n : NamespaceId}
    (h : graph.namespaces.length ≤ n) : graph.namespaceAt n = default := by
  simp [namespaceAt, h]

/-- `classAt` in the terms of `List.getElem?`, for lemmas of the library. -/
theorem getElem?_classes {graph : Graph} {id : ClassId} (h : id < graph.classes.length) :
    graph.classes[id]? = some (graph.classAt id) := by
  simp [classAt, h]

theorem classAt_eq_get {graph : Graph} {id : ClassId} (h : id < graph.classes.length) :
    graph.classAt id = graph.classes.get ⟨id, h⟩ := by
  simp [classAt, h]

theorem classAt_mem {graph : Graph} {id : ClassId} (h : id < graph.classes.length) :
    graph.classAt id ∈ graph.classes :=
  List.mem_of_getElem? (getElem?_classes h)

/-- A class with a property is one of the graph. -/
theorem lt_of_mem_properties {graph : Graph} {id : ClassId} {property : Property}
    (h : property ∈ (graph.classAt id).properties) : id < graph.classes.length := by
  apply Nat.lt_of_not_le
  intro hge
  rw [classAt_eq_default hge] at h
  exact absurd h List.not_mem_nil

/-- Positions stay what they are, whichever class is changed. -/
@[simp] theorem length_modifyClass (graph : Graph) (id : ClassId) (f : Class → Class) :
    (graph.modifyClass id f).classes.length = graph.classes.length := by
  simp [modifyClass]

/-- The law of `modifyClass`: the class at the position is changed, every other one is left as it
is. All updates of classes go through it. -/
theorem classAt_modifyClass (graph : Graph) (id other : ClassId) (f : Class → Class) :
    (graph.modifyClass id f).classAt other =
      if id = other ∧ other < graph.classes.length then f (graph.classAt other)
      else graph.classAt other := by
  simp only [modifyClass, classAt, List.getD_eq_getElem?_getD, List.getElem?_modify]
  by_cases hlt : other < graph.classes.length
  · by_cases heq : id = other <;> simp [hlt, heq]
  · simp [hlt]

/-- `addUse` changes namespaces only. -/
@[simp] theorem classAt_addUse (graph : Graph) (user used id : ClassId) :
    (graph.addUse user used).classAt id = graph.classAt id := by
  simp only [addUse]
  split <;> rfl

@[simp] theorem classes_addUse (graph : Graph) (user used : ClassId) :
    (graph.addUse user used).classes = graph.classes := by
  simp only [addUse]
  split <;> rfl

/-- What all classes have in common with those of another graph can be read off position by
position. -/
theorem map_classes_eq {α : Type} {before after : Graph} (f : Class → α)
    (hsize : after.classes.length = before.classes.length)
    (h : ∀ id, f (after.classAt id) = f (before.classAt id)) :
    after.classes.map f = before.classes.map f := by
  -- Position by position; beyond the last class both lists have nothing.
  apply List.ext_getElem?
  intro id
  by_cases hlt : id < before.classes.length
  · rw [List.getElem?_map, List.getElem?_map, getElem?_classes hlt,
      getElem?_classes (hsize ▸ hlt), Option.map_some, Option.map_some, h]
  · rw [List.getElem?_eq_none (by simp; omega), List.getElem?_eq_none (by simp; omega)]

/-- `classNamed?` reads nothing but names, so graphs with the same names in the same order find the
same classes. -/
theorem classNamed?_congr {before after : Graph}
    (h : after.classes.map (·.name) = before.classes.map (·.name)) (name : String) :
    after.classNamed? name = before.classNamed? name := by
  have by_names (graph : Graph) :
      graph.classNamed? name = (graph.classes.map (·.name)).findIdx? (· == name) := by
    simp [classNamed?, List.findIdx?_map, Function.comp_def]
  rw [by_names, by_names, h]

theorem classNamed?_lt {graph : Graph} {name : String} {id : ClassId}
    (h : graph.classNamed? name = some id) : id < graph.classes.length :=
  (List.findIdx?_eq_some_iff_getElem.mp h).1

/-- With `classNamed?_lt`, all that a successful lookup tells. -/
theorem name_of_classNamed? {graph : Graph} {name : String} {id : ClassId}
    (h : graph.classNamed? name = some id) : (graph.classAt id).name = name := by
  obtain ⟨hid, hname, -⟩ := List.findIdx?_eq_some_iff_getElem.mp h
  rw [classAt_eq_get hid]
  exact eq_of_beq hname

theorem isSome_classNamed?_iff {graph : Graph} {name : String} :
    (graph.classNamed? name).isSome = true ↔ name ∈ graph.classes.map (·.name) := by
  rw [classNamed?, List.findIdx?_isSome, List.any_eq_true, List.mem_map]
  simp only [beq_iff_eq]

/-- If no two classes have one name, every class is found by its name. Otherwise the first one of
the name would be found. -/
theorem classNamed?_name {graph : Graph} (hnames : (graph.classes.map (·.name)).Nodup)
    {id : ClassId} (hid : id < graph.classes.length) :
    graph.classNamed? (graph.classAt id).name = some id := by
  rw [classNamed?, List.findIdx?_eq_some_iff_getElem]
  refine ⟨hid, ?_, ?_⟩
  · simp [classAt_eq_get hid]
  · intro other hother
    have hlt : other < graph.classes.length := Nat.lt_trans hother hid
    have hne := List.pairwise_iff_getElem.mp hnames other id (by simpa) (by simpa) hother
    simp only [List.getElem_map] at hne
    simpa [classAt_eq_get hid] using hne

/-! ## Classes that grow -/

/-- A class grows: it may get another parent, and further properties after those it has. -/
def Class.Grows (before after : Class) : Prop :=
  ∃ parent added, after =
    { before with parent := parent, properties := before.properties ++ added }

namespace Class.Grows

theorem refl (c : Class) : c.Grows c :=
  ⟨c.parent, [], by simp⟩

theorem trans {a b c : Class} (hab : a.Grows b) (hbc : b.Grows c) : a.Grows c := by
  obtain ⟨_, first, rfl⟩ := hab
  obtain ⟨parent, second, rfl⟩ := hbc
  exact ⟨parent, first ++ second, by simp⟩

end Class.Grows

/-! ## Graphs that grow -/

def Namespace.withoutUses (n : Namespace) : Namespace :=
  { n with uses := .empty }

/-- A graph grows: classes grow, and namespaces may depend on others than before. The invariant of
all passes after the second one; `Grows.modifyClass` and `Grows.addUse` are its two steps. -/
structure Grows (before after : Graph) : Prop where
  models : after.models = before.models
  domains : after.domains = before.domains
  namespaces :
    after.namespaces.map Namespace.withoutUses = before.namespaces.map Namespace.withoutUses
  size : after.classes.length = before.classes.length
  classes : ∀ id, (before.classAt id).Grows (after.classAt id)

namespace Grows

theorem refl (graph : Graph) : graph.Grows graph :=
  ⟨rfl, rfl, rfl, rfl, fun _ => .refl _⟩

theorem trans {a b c : Graph} (hab : a.Grows b) (hbc : b.Grows c) : a.Grows c where
  models := hbc.models.trans hab.models
  domains := hbc.domains.trans hab.domains
  namespaces := hbc.namespaces.trans hab.namespaces
  size := hbc.size.trans hab.size
  classes id := (hab.classes id).trans (hbc.classes id)

/-- A class that grows makes the graph grow. `addProperty` and `setParent` are the two ways in which
one does. -/
theorem modifyClass (graph : Graph) (id : ClassId) {f : Class → Class}
    (hf : (graph.classAt id).Grows (f (graph.classAt id))) :
    graph.Grows (graph.modifyClass id f) where
  models := rfl
  domains := rfl
  namespaces := rfl
  size := length_modifyClass ..
  classes other := by
    rw [classAt_modifyClass]
    split
    · next h => exact h.1 ▸ hf
    · exact .refl _

theorem addProperty (graph : Graph) (id : ClassId) (property : Property) :
    graph.Grows (graph.addProperty id property) :=
  modifyClass graph id ⟨(graph.classAt id).parent, [property], rfl⟩

theorem setParent (graph : Graph) (child parent : ClassId) :
    graph.Grows (graph.modifyClass child fun c => { c with parent := some parent }) :=
  modifyClass graph child ⟨some parent, [], by simp⟩

theorem addUse (graph : Graph) (user used : ClassId) : graph.Grows (graph.addUse user used) := by
  simp only [Graph.addUse]
  split
  · exact refl graph
  · refine ⟨rfl, rfl, ?_, rfl, fun _ => .refl _⟩
    -- Only one namespace is touched, and of it only what `withoutUses` leaves out.
    apply List.ext_getElem?
    intro n
    simp only [List.getElem?_map, List.getElem?_modify]
    cases graph.namespaces[n]? with
    | none => rfl
    | some found =>
        simp only [Option.map_some]
        split <;> rfl

theorem namespaceCount {before after : Graph} (h : before.Grows after) :
    after.namespaces.length = before.namespaces.length := by
  simpa using congrArg List.length h.namespaces

/-- No step renames a class, so `classNamed?` has the same answers throughout. -/
theorem names {before after : Graph} (h : before.Grows after) :
    after.classes.map (·.name) = before.classes.map (·.name) := by
  apply map_classes_eq _ h.size
  intro id
  obtain ⟨_, _, heq⟩ := h.classes id
  rw [heq]

theorem classNamed? {before after : Graph} (h : before.Grows after) (name : String) :
    after.classNamed? name = before.classNamed? name :=
  classNamed?_congr h.names name

end Grows

end ModelSchema.Graph
