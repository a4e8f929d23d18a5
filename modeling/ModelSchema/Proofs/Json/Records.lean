import ModelSchema.Json.Record
import ModelSchema.Proofs.Catalog
import ModelSchema.Proofs.Json.RoundTrip
import ModelSchema.Proofs.Steps

/-!
# Records and maps read back

The readers of maps and records give back what the writers put down: a map from its entries
(`asCatalog?_entries`), and the fields of a record from an object that has just these
(`record?_object`).
-/

namespace ModelSchema.Json

variable {α : Type}

/-- A map is read back if each of its values is. -/
theorem asCatalog?_entries (encode : α → Json) {decode : Json → Option α} {catalog : Catalog α}
    (h : ∀ value ∈ catalog.values, decode (encode value) = some value) :
    asCatalog? decode (object (catalog.entries.map fun entry => (entry.1, encode entry.2))) =
      some catalog := by
  have hentries : (catalog.entries.map fun entry => (entry.1, encode entry.2)).mapM
      (fun field => (decode field.2).map fun value => (field.1, value)) =
        some catalog.entries :=
    mapM_map_self fun entry hentry => by
      simp [h entry.2 (List.mem_map_of_mem hentry)]
  rw [asCatalog?, hentries, Option.map_some, Catalog.ofList_of_perm (.refl _)]

/-- What the values of a map hold. -/
@[simp high] theorem all_entries {P : Json → Prop} {encode : α → Json} {catalog : Catalog α} :
    All P (object (catalog.entries.map fun entry => (entry.1, encode entry.2))) ↔
      ∀ value ∈ catalog.values, All P (encode value) := by
  simp only [all_object, List.forall_mem_map, Catalog.values]

/-- A record is found in an object with just its fields. -/
theorem record?_object {names : List String} {fields : List (String × Json)}
    (hnames : fields.map (·.1) = names) (hnodup : names.Nodup) :
    record? names (object fields) = some ⟨false, fields⟩ := by
  have hknown : fields.filter (fun field => names.contains field.1) = fields :=
    List.filter_eq_self.mpr fun field hfield => by
      rw [← hnames]
      exact List.contains_iff_mem.mpr (List.mem_map_of_mem hfield)
  simp only [record?, hknown, hnames, hnodup, ↓reduceIte]

end ModelSchema.Json
