import ModelSchema.Proofs.Graph.Growth
import ModelSchema.Proofs.Steps

/-!
# Ties

A tie is a link that is put into a graph: a class gets a parent, or a property that is linked to
another class. Either way the namespace of the class comes to depend on that of the other one.

What a list of ties makes of a graph can be read off the list: `classAt_tieAll` tells every class,
and `mem_uses_tieAll` every dependency.
-/

namespace ModelSchema.Graph

/-- A link that is put into a graph. -/
inductive Tie where
  /-- A class gets a parent. -/
  | parent (child above : ClassId)
  /-- A class gets a property that is linked to another class. -/
  | property (holder target : ClassId) (property : Property)

namespace Tie

def user : Tie → ClassId
  | .parent child _ => child
  | .property holder _ _ => holder

def used : Tie → ClassId
  | .parent _ above => above
  | .property _ target _ => target

/-- What becomes of the class that gets the link. -/
def change : Tie → Class → Class
  | .parent _ above, c => { c with parent := some above }
  | .property _ _ added, c => { c with properties := c.properties ++ [added] }

def parentAt? (id : ClassId) : Tie → Option ClassId
  | .parent child above => if child = id then some above else none
  | .property _ _ _ => none

/-- The property that a class gets. -/
def propertyAt? (id : ClassId) : Tie → Option Property
  | .parent _ _ => none
  | .property holder _ added => if holder = id then some added else none

/-- `propertyAt?` inverted: a class gets a property with a tie that is about both. -/
theorem propertyAt?_eq_some_iff {t : Tie} {id : ClassId} {added : Property} :
    t.propertyAt? id = some added ↔ ∃ target, t = .property id target added := by
  cases t with
  | parent child above => simp [propertyAt?]
  | property holder target own =>
      simp only [propertyAt?, Option.ite_none_right_eq_some, Option.some.injEq]
      constructor
      · rintro ⟨rfl, rfl⟩
        exact ⟨target, rfl⟩
      · rintro ⟨_, heq⟩
        cases heq
        exact ⟨rfl, rfl⟩

end Tie

/-- Put a link in: change the class, and note the dependency of its namespace.
`Assembly.addReference` and the pass over generalizations both come down to this. -/
def tie (graph : Graph) (t : Tie) : Graph :=
  (graph.modifyClass t.user t.change).addUse t.user t.used

def tieAll (graph : Graph) (ties : List Tie) : Graph :=
  ties.foldl tie graph

theorem tieAll_cons (graph : Graph) (t : Tie) (rest : List Tie) :
    graph.tieAll (t :: rest) = (graph.tie t).tieAll rest := rfl

/-- Passes one after the other are one list of ties. -/
theorem tieAll_append (graph : Graph) (first second : List Tie) :
    graph.tieAll (first ++ second) = (graph.tieAll first).tieAll second :=
  List.foldl_append

/-! ## What stays -/

/-- The step lemma of `Grows`; `grows_tieAll` is the run. -/
theorem grows_tie (graph : Graph) (t : Tie) : graph.Grows (graph.tie t) := by
  refine (Grows.modifyClass graph t.user ?_).trans (.addUse ..)
  cases t with
  | parent child above => exact ⟨some above, [], by simp [Tie.change]⟩
  | property holder target added => exact ⟨_, [added], rfl⟩

theorem grows_tieAll (graph : Graph) (ties : List Tie) : graph.Grows (graph.tieAll ties) := by
  induction ties generalizing graph with
  | nil => exact .refl graph
  | cons t rest ih => exact (grows_tie graph t).trans (ih (graph.tie t))

/-- Growth leaves classes where they are. -/
theorem Grows.home {before after : Graph} (h : before.Grows after) (id : ClassId) :
    (after.classAt id).home = (before.classAt id).home := by
  obtain ⟨_, _, heq⟩ := h.classes id
  rw [heq]

/-- Growth changes nothing about a namespace but its dependencies. -/
theorem Grows.namespaceAt {before after : Graph} (h : before.Grows after) (n : NamespaceId) :
    after.namespaceAt n =
      { before.namespaceAt n with uses := (after.namespaceAt n).uses } := by
  have hn := congrArg (·[n]?) h.namespaces
  simp only [List.getElem?_map] at hn
  simp only [Graph.namespaceAt, List.getD_eq_getElem?_getD]
  cases hafter : after.namespaces[n]? with
  | none =>
      cases hbefore : before.namespaces[n]? with
      | none => rfl
      | some space =>
          rw [hafter, hbefore] at hn
          cases hn
  | some space =>
      cases hbefore : before.namespaces[n]? with
      | none =>
          rw [hafter, hbefore] at hn
          cases hn
      | some other =>
          rw [hafter, hbefore] at hn
          simp only [Option.map_some, Option.some.injEq, Namespace.withoutUses,
            Namespace.mk.injEq] at hn
          obtain ⟨hname, hlabel, hcomment, hcreator, hpersistent, hfile, hclasses, -⟩ := hn
          simp [← hname, ← hlabel, ← hcomment, ← hcreator, ← hpersistent, ← hfile, ← hclasses]

/-! ## Classes -/

/-- What one tie does to a class, said for every class: most are not concerned by it, and both
`parentAt?` and `propertyAt?` are empty then. -/
theorem classAt_tie {graph : Graph} {id : ClassId} (hid : id < graph.classes.length) (t : Tie) :
    (graph.tie t).classAt id = { graph.classAt id with
      parent := (t.parentAt? id).or (graph.classAt id).parent
      properties := (graph.classAt id).properties ++ (t.propertyAt? id).toList } := by
  rw [tie, classAt_addUse, classAt_modifyClass]
  cases t with
  | parent child above =>
      by_cases h : child = id
      · simp [h, hid, Tie.user, Tie.change, Tie.parentAt?, Tie.propertyAt?]
      · simp [h, Tie.user, Tie.parentAt?, Tie.propertyAt?]
  | property holder target added =>
      by_cases h : holder = id
      · simp [h, hid, Tie.user, Tie.change, Tie.parentAt?, Tie.propertyAt?]
      · simp [h, Tie.user, Tie.parentAt?, Tie.propertyAt?]

/-- A class has the last parent it was given, and all properties it was given. With this the state
of a class after a run is a function of the list of ties. -/
theorem classAt_tieAll {graph : Graph} {id : ClassId} (hid : id < graph.classes.length)
    (ties : List Tie) :
    (graph.tieAll ties).classAt id = { graph.classAt id with
      parent := (ties.filterMap (·.parentAt? id)).getLast?.or (graph.classAt id).parent
      properties := (graph.classAt id).properties ++ ties.filterMap (·.propertyAt? id) } := by
  -- On the ties: the first one changes the class that the rest starts from.
  induction ties generalizing graph with
  | nil => simp [tieAll]
  | cons t rest ih =>
      have hkept : id < (graph.tie t).classes.length := (grows_tie graph t).size ▸ hid
      rw [tieAll_cons, ih hkept, classAt_tie hid]
      have hproperties : (t.propertyAt? id).toList ++ rest.filterMap (·.propertyAt? id) =
          (t :: rest).filterMap (·.propertyAt? id) := by
        cases h : t.propertyAt? id <;> simp [h]
      have hparents : (rest.filterMap (·.parentAt? id)).getLast?.or (t.parentAt? id) =
          ((t :: rest).filterMap (·.parentAt? id)).getLast? := by
        cases h : t.parentAt? id <;> simp [h, List.getLast?_cons, Option.or_some]
      simp only [List.append_assoc, hproperties, ← Option.or_assoc, hparents]

/-- A class has the properties it had, and those it was given. -/
theorem mem_properties_tieAll {graph : Graph} {id : ClassId} (hid : id < graph.classes.length)
    {ties : List Tie} {property : Property} :
    property ∈ ((graph.tieAll ties).classAt id).properties ↔
      property ∈ (graph.classAt id).properties ∨
        ∃ target, .property id target property ∈ ties := by
  rw [classAt_tieAll hid]
  simp only [List.mem_append, List.mem_filterMap, Tie.propertyAt?_eq_some_iff]
  refine or_congr_right ⟨?_, ?_⟩
  · rintro ⟨t, ht, target, rfl⟩
    exact ⟨target, ht⟩
  · rintro ⟨target, ht⟩
    exact ⟨_, ht, target, rfl⟩

/-! ## Dependencies -/

/-- A namespace comes to depend on that of a class it uses, unless it is the same. The law of
`addUse`, said for every namespace. -/
theorem mem_uses_addUse {graph : Graph} {n : NamespaceId} (hn : n < graph.namespaces.length)
    (user used : ClassId) (name : String) :
    name ∈ ((graph.addUse user used).namespaceAt n).uses ↔
      name ∈ (graph.namespaceAt n).uses ∨
        (graph.classAt user).home = n ∧ (graph.classAt used).home ≠ n ∧
          name = (graph.namespaceOf used).name := by
  rw [addUse]
  by_cases hsame : (graph.classAt user).home = (graph.classAt used).home
  · -- Nothing is noted within one namespace.
    rw [if_pos hsame]
    constructor
    · exact .inl
    · rintro (h | ⟨huser, hused, -⟩)
      · exact h
      · exact absurd (hsame ▸ huser) hused
  · rw [if_neg hsame]
    by_cases huser : (graph.classAt user).home = n
    · have hused : (graph.classAt used).home ≠ n := fun heq => hsame (huser.trans heq.symm)
      rw [or_comm]
      simp [namespaceAt, namespaceOf, List.getD_eq_getElem?_getD, huser, hused, hn,
        NameSet.mem_insert]
    · simp [namespaceAt, List.getD_eq_getElem?_getD, List.getElem?_modify_ne _ _ huser, huser]

/-- A tie makes the namespace of its class depend on that of the other class, if they differ. -/
theorem mem_uses_tie {graph : Graph} {n : NamespaceId} (hn : n < graph.namespaces.length) (t : Tie)
    (name : String) :
    name ∈ ((graph.tie t).namespaceAt n).uses ↔
      name ∈ (graph.namespaceAt n).uses ∨
        (graph.classAt t.user).home = n ∧ (graph.classAt t.used).home ≠ n ∧
          name = (graph.namespaceOf t.used).name := by
  have hhome (id : ClassId) : ((graph.modifyClass t.user t.change).classAt id).home =
      (graph.classAt id).home := by
    rw [classAt_modifyClass]
    cases t <;> (split <;> rfl)
  have hspaces (m : NamespaceId) :
      (graph.modifyClass t.user t.change).namespaceAt m = graph.namespaceAt m := rfl
  have hsize : n < (graph.modifyClass t.user t.change).namespaces.length := hn
  rw [tie, mem_uses_addUse hsize, namespaceOf, hhome, hhome, hspaces, hspaces]
  rfl

/-- The dependencies of a namespace are those it had, and one for every tie that leads out of it. -/
theorem mem_uses_tieAll {graph : Graph} {n : NamespaceId} (hn : n < graph.namespaces.length)
    (ties : List Tie) (name : String) :
    name ∈ ((graph.tieAll ties).namespaceAt n).uses ↔
      name ∈ (graph.namespaceAt n).uses ∨
        ∃ t ∈ ties, (graph.classAt t.user).home = n ∧ (graph.classAt t.used).home ≠ n ∧
          name = (graph.namespaceOf t.used).name := by
  induction ties generalizing graph with
  | nil => simp [tieAll]
  | cons t rest ih =>
      have hgrows := grows_tie graph t
      have hkept : n < (graph.tie t).namespaces.length := hgrows.namespaceCount ▸ hn
      -- Where classes are at home and what namespaces are called does not change on the way.
      have hname (id : ClassId) :
          ((graph.tie t).namespaceOf id).name = (graph.namespaceOf id).name := by
        rw [namespaceOf, hgrows.home, hgrows.namespaceAt]
        rfl
      rw [tieAll_cons, ih hkept, mem_uses_tie hn]
      simp only [hgrows.home, hname, List.mem_cons, exists_eq_or_imp, or_assoc]

/-! ## What associations read of a class -/

/-- Two classes look alike to an association: what `Assembly.addAssociation` reads of the classes at
its ends is the same. -/
structure Class.Alike (c other : Class) : Prop where
  name : other.name = c.name
  stereotype : other.stereotype = c.stereotype
  isPersistent : other.isPersistent = c.isPersistent
  trigram : other.trigram = c.trigram
  primaryKey : other.primaryKey? = c.primaryKey?

theorem Class.Alike.refl (c : Class) : c.Alike c :=
  ⟨rfl, rfl, rfl, rfl, rfl⟩

theorem Class.Alike.trans {a b c : Class} (hab : a.Alike b) (hbc : b.Alike c) : a.Alike c :=
  ⟨hbc.name.trans hab.name, hbc.stereotype.trans hab.stereotype,
    hbc.isPersistent.trans hab.isPersistent, hbc.trigram.trans hab.trigram,
    hbc.primaryKey.trans hab.primaryKey⟩

/-- A tie that adds nothing to a primary key. Links never do, so the key of a class is that of its
declaration whenever an association asks for it. -/
def Tie.Keyless : Tie → Prop
  | .parent _ _ => True
  | .property _ _ added => added.isPrimaryKey = false

theorem alike_tie (graph : Graph) {t : Tie} (ht : t.Keyless) (id : ClassId) :
    (graph.classAt id).Alike ((graph.tie t).classAt id) := by
  rw [tie, classAt_addUse, classAt_modifyClass]
  split
  · cases t with
    | parent child above => exact ⟨rfl, rfl, rfl, rfl, rfl⟩
    | property holder target added =>
        refine ⟨rfl, rfl, rfl, rfl, ?_⟩
        have hadded : added.isPrimaryKey = false := ht
        simp [Class.primaryKey?, Tie.change, hadded]
  · exact .refl _

/-- So the order in which associations are put into effect does not matter to the next one. -/
theorem alike_tieAll (graph : Graph) {ties : List Tie} (hties : ∀ t ∈ ties, t.Keyless)
    (id : ClassId) : (graph.classAt id).Alike ((graph.tieAll ties).classAt id) := by
  induction ties generalizing graph with
  | nil => exact .refl _
  | cons t rest ih =>
      have hfirst := alike_tie graph (hties t List.mem_cons_self) id
      exact hfirst.trans (ih (graph.tie t) fun other hother =>
        hties other (List.mem_cons_of_mem _ hother))

/-! ## Renaming

For graphs that hold the same classes at different positions: a link is carried over by renaming the
positions in it. -/

def Kind.relink (f : ClassId → ClassId) : Kind → Kind
  | .primitive => .primitive
  | .reference target => .reference (f target)
  | .referenceList target => .referenceList (f target)
  | .composition target isCollection => .composition (f target) isCollection

def Property.relink (f : ClassId → ClassId) (property : Property) : Property :=
  { property with kind := property.kind.relink f }

/-- A tie with its classes renamed. -/
def Tie.relink (f : ClassId → ClassId) : Tie → Tie
  | .parent child above => .parent (f child) (f above)
  | .property holder target added => .property (f holder) (f target) (added.relink f)

@[simp] theorem Property.relink_id (property : Property) : property.relink id = property := by
  have hkind : property.kind.relink id = property.kind := by cases property.kind <;> rfl
  rw [Property.relink, hkind]

@[simp] theorem Tie.user_relink (f : ClassId → ClassId) (t : Tie) :
    (t.relink f).user = f t.user := by
  cases t <;> rfl

@[simp] theorem Tie.used_relink (f : ClassId → ClassId) (t : Tie) :
    (t.relink f).used = f t.used := by
  cases t <;> rfl

end ModelSchema.Graph
