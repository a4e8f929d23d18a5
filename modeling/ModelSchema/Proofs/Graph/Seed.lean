import ModelSchema.Proofs.Graph.WellFormed

/-!
# Graphs with seed data

Seed data changes the items of classes and nothing else, and the items that a class gets are those
of a batch that names it (`seeded_addSeed`). So a well-formed graph stays well-formed.
-/

namespace ModelSchema.Graph

/-- Give the items of a batch to the class it names. One round of `Graph.addSeed`; a batch for an
unknown class is passed over here and reported by `Check.Seed`. -/
def addBatch (graph : Graph) (entry : String × Seed.Batch) : Graph :=
  match graph.classNamed? entry.1 with
  | some id => graph.modifyClass id fun c => { c with items := entry.2.items }
  | none => graph

/-- Only items differ between two graphs, and those come from batches. Of several batches for one
class the last counts, so it is not said which. -/
structure Seeded (entries : List (String × Seed.Batch)) (before after : Graph) : Prop where
  models : after.models = before.models
  namespaces : after.namespaces = before.namespaces
  domains : after.domains = before.domains
  size : after.classes.length = before.classes.length
  classes : ∀ id, after.classAt id = before.classAt id ∨
    ∃ entry ∈ entries, before.classNamed? entry.1 = some id ∧
      after.classAt id = { before.classAt id with items := entry.2.items }

namespace Seeded

variable {entries : List (String × Seed.Batch)} {before after : Graph}

theorem refl (graph : Graph) : Seeded [] graph graph :=
  ⟨rfl, rfl, rfl, rfl, fun _ => .inl rfl⟩

theorem addBatch (graph : Graph) (entry : String × Seed.Batch) :
    Seeded [entry] graph (graph.addBatch entry) := by
  rw [Graph.addBatch]
  split
  · next id hid =>
    refine ⟨rfl, rfl, rfl, length_modifyClass .., fun other => ?_⟩
    rw [classAt_modifyClass]
    split
    · next h => exact .inr ⟨entry, List.mem_singleton_self _, h.1 ▸ hid, rfl⟩
    · exact .inl rfl
  · exact ⟨rfl, rfl, rfl, rfl, fun _ => .inl rfl⟩

/-- A class is the same as before but for its items. -/
theorem classAt_eq (h : Seeded entries before after) (id : ClassId) :
    ∃ items, after.classAt id = { before.classAt id with items := items } := by
  rcases h.classes id with heq | ⟨entry, -, -, heq⟩
  · exact ⟨(before.classAt id).items, heq⟩
  · exact ⟨entry.2.items, heq⟩

/-- Items have no part in the search by name, so all batches find the classes that the first one
finds. -/
theorem classNamed? (h : Seeded entries before after) (name : String) :
    after.classNamed? name = before.classNamed? name := by
  apply classNamed?_congr
  apply map_classes_eq _ h.size
  intro id
  obtain ⟨_, heq⟩ := h.classAt_eq id
  rw [heq]

theorem trans {more : List (String × Seed.Batch)} {last : Graph}
    (h : Seeded entries before after) (h' : Seeded more after last) :
    Seeded (entries ++ more) before last where
  models := h'.models.trans h.models
  namespaces := h'.namespaces.trans h.namespaces
  domains := h'.domains.trans h.domains
  size := h'.size.trans h.size
  classes id := by
    rcases h'.classes id with heq | ⟨entry, hentry, hnamed, heq⟩
    · rw [heq]
      rcases h.classes id with hsame | ⟨entry, hentry, hnamed, hitems⟩
      · exact .inl hsame
      · exact .inr ⟨entry, List.mem_append_left _ hentry, hnamed, hitems⟩
    · -- A later batch wins; what the earlier ones left is overwritten.
      obtain ⟨_, hsame⟩ := h.classAt_eq id
      refine .inr ⟨entry, List.mem_append_right _ hentry, h.classNamed? entry.1 ▸ hnamed, ?_⟩
      rw [heq, hsame]

/-- No law of `WellFormed` speaks of items. -/
theorem wellFormed (h : Seeded entries before after) (hbefore : before.WellFormed) :
    after.WellFormed where
  namespaces := by rw [h.models, h.namespaces, hbefore.namespaces]
  classes := by rw [h.namespaces, h.size, hbefore.classes]
  home n id hid := by
    obtain ⟨_, heq⟩ := h.classAt_eq id
    rw [namespaceAt, h.namespaces] at hid
    rw [heq]
    exact hbefore.home n id hid
  parent id parent hparent := by
    obtain ⟨_, heq⟩ := h.classAt_eq id
    rw [heq] at hparent
    exact h.size ▸ hbefore.parent id parent hparent
  target id property hproperty := by
    obtain ⟨_, heq⟩ := h.classAt_eq id
    rw [heq] at hproperty
    exact h.size ▸ hbefore.target id property hproperty
  code := h.domains ▸ hbefore.code
  declared := by
    rw [h.models, h.domains]
    exact hbefore.declared

end Seeded

/-- The run lemma of `addBatch`: `Seeded` composes, with the batches appended. -/
theorem seeded_foldl (entries : List (String × Seed.Batch)) (graph : Graph) :
    Seeded entries graph (entries.foldl addBatch graph) := by
  induction entries generalizing graph with
  | nil => exact .refl graph
  | cons entry rest ih => exact (Seeded.addBatch graph entry).trans (ih _)

/-- Seed data changes items only, and to those of a batch that names the class. `Graph.addSeed` is
the fold over the batches in the order of their names. -/
theorem seeded_addSeed (graph : Graph) (seed : Seed) :
    Seeded seed.batches.entries graph (graph.addSeed seed) :=
  seeded_foldl seed.batches.entries graph

theorem properties_addSeed (graph : Graph) (seed : Seed) (id : ClassId) :
    ((graph.addSeed seed).classAt id).properties = (graph.classAt id).properties := by
  obtain ⟨_, heq⟩ := (seeded_addSeed graph seed).classAt_eq id
  rw [heq]

end ModelSchema.Graph
