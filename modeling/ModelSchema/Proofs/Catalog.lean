import Mathlib.Data.List.Sort
import ModelSchema.Catalog

/-!
# Laws of catalogs

What is found under a name after an insertion, and where found values stand. Catalogs and name sets
are determined by what they hold (`Catalog.ext_get?`, `NameSet.ext_mem`), and a catalog is made
again by inserting its entries in any order (`Catalog.ofList_of_perm`).
-/

namespace ModelSchema.Catalog

variable {α : Type}

/-- `List.lookup` on a list with a first entry, as a test of equality instead of `==`. -/
theorem lookup_cons_eq_ite (entry : String × α) (rest : List (String × α)) (name : String) :
    (entry :: rest).lookup name = if name = entry.1 then some entry.2 else rest.lookup name := by
  obtain ⟨own, value⟩ := entry
  by_cases h : name = own
  · simp [h]
  · have test : (name == own) = false := beq_eq_false_iff_ne.mpr h
    simp [List.lookup_cons, test, h]

/-- The law of `insertEntry`: the inserted value is found under its name, and every other name finds
what it found before. No order is needed for it. -/
theorem lookup_insertEntry (name other : String) (value : α) (entries : List (String × α)) :
    (insertEntry name value entries).lookup other =
      if other = name then some value else entries.lookup other := by
  -- On the entries, along the three cases of `insertEntry`: before the first one, over it, or
  -- behind it.
  induction entries with
  | nil => simp [insertEntry, lookup_cons_eq_ite]
  | cons first rest ih =>
      rw [insertEntry]
      split
      · rw [lookup_cons_eq_ite]
      · split
        · next heq =>
          rw [lookup_cons_eq_ite, lookup_cons_eq_ite]
          by_cases h : other = name <;> simp [h, ← heq]
        · next hne =>
          rw [lookup_cons_eq_ite, lookup_cons_eq_ite, ih]
          by_cases h : other = name
          · simp [h, hne]
          · simp [h]

/-- Only the name of an insertion gets another value. -/
theorem get?_insert (catalog : Catalog α) (name other : String) (value : α) :
    (catalog.insert name value).get? other =
      if other = name then some value else catalog.get? other :=
  lookup_insertEntry name other value catalog.entries

/-- The names of a catalog after an insertion are those before it and the new one. -/
theorem contains_insert (catalog : Catalog α) (name other : String) (value : α) :
    (catalog.insert name value).contains other = true ↔
      other = name ∨ catalog.contains other = true := by
  simp only [contains, get?_insert]
  by_cases h : other = name <;> simp [h]

/-- With `get?_of_mem_entries`: in a catalog, to find a value and to list it are the same, because
no name occurs twice. -/
theorem mem_entries_of_get? {catalog : Catalog α} {name : String} {value : α}
    (h : catalog.get? name = some value) : (name, value) ∈ catalog.entries := by
  obtain ⟨before, after, heq, -⟩ := List.lookup_eq_some_iff.mp h
  simp [heq]

theorem mem_values_of_get? {catalog : Catalog α} {name : String} {value : α}
    (h : catalog.get? name = some value) : value ∈ catalog.values :=
  List.mem_map.mpr ⟨_, mem_entries_of_get? h, rfl⟩

/-- Entries before the one in question have smaller names (`sorted`), so the lookup passes over
them. -/
theorem get?_of_mem_entries {catalog : Catalog α} {name : String} {value : α}
    (h : (name, value) ∈ catalog.entries) : catalog.get? name = some value := by
  obtain ⟨before, after, heq⟩ := List.append_of_mem h
  refine List.lookup_eq_some_iff.mpr ⟨before, after, heq, fun entry hentry => ?_⟩
  have hsorted := catalog.sorted
  rw [heq] at hsorted
  have hlt := (List.pairwise_append.mp hsorted).2.2 entry hentry _ List.mem_cons_self
  exact bne_iff_ne.mpr (String.ne_of_lt hlt).symm

/-- `sorted` is strict, so no name occurs twice. -/
theorem nodup_names (catalog : Catalog α) : catalog.names.Nodup := by
  rw [names, List.Nodup, List.pairwise_map]
  exact catalog.sorted.imp String.ne_of_lt

theorem mem_names_iff {catalog : Catalog α} {name : String} :
    name ∈ catalog.names ↔ catalog.contains name = true := by
  rw [names, List.mem_map, contains, Option.isSome_iff_exists]
  constructor
  · rintro ⟨entry, hentry, rfl⟩
    exact ⟨entry.2, get?_of_mem_entries hentry⟩
  · rintro ⟨value, hvalue⟩
    exact ⟨(name, value), mem_entries_of_get? hvalue, rfl⟩

/-- `insertEntry` adds an entry exactly if the name is new; otherwise it replaces one. -/
theorem length_insertEntry {name : String} (value : α) {entries : List (String × α)}
    (h : entries.lookup name = none) :
    (insertEntry name value entries).length = entries.length + 1 := by
  induction entries with
  | nil => rfl
  | cons first rest ih =>
      rw [lookup_cons_eq_ite] at h
      split at h
      · cases h
      · next hne =>
        rw [insertEntry, if_neg hne]
        split
        · rfl
        · rw [List.length_cons, ih h, List.length_cons]

/-- A new name makes room for itself. -/
theorem size_insert (catalog : Catalog α) {name : String} (value : α)
    (h : catalog.contains name = false) :
    (catalog.insert name value).size = catalog.size + 1 :=
  length_insertEntry value (by simpa [contains, get?] using h)

/-- Catalogs that find the same values are equal: the order of the entries is fixed by their names,
so a catalog is the partial function `get?`. -/
theorem ext_get? {a b : Catalog α} (h : ∀ name, a.get? name = b.get? name) : a = b := by
  have hantisymm : Std.Antisymm fun a b : String × α => a.1 < b.1 :=
    ⟨fun _ _ hlt hgt => absurd hgt (String.lt_asymm hlt)⟩
  have hirrefl : Std.Irrefl fun a b : String × α => a.1 < b.1 :=
    ⟨fun entry => String.lt_irrefl entry.1⟩
  refine ext (a.sorted.eq_of_mem_iff b.sorted fun entry => ⟨fun hentry => ?_, fun hentry => ?_⟩)
  · exact mem_entries_of_get? ((h entry.1).symm.trans (get?_of_mem_entries hentry))
  · exact mem_entries_of_get? ((h entry.1).trans (get?_of_mem_entries hentry))

/-- A new name is put between the others; up to order it is put in front. -/
theorem perm_insertEntry {entries : List (String × α)} {name : String} (value : α)
    (h : ∀ entry ∈ entries, entry.1 ≠ name) :
    (insertEntry name value entries).Perm ((name, value) :: entries) := by
  induction entries with
  | nil => exact .refl _
  | cons first rest ih =>
      obtain ⟨hfirst, hrest⟩ := List.forall_mem_cons.mp h
      rw [insertEntry]
      split
      · exact .refl _
      · rw [if_neg (Ne.symm hfirst)]
        exact ((ih hrest).cons first).trans (.swap _ _ _)

/-- Inserting entries with different names one by one gives a catalog with just these entries, in
the order of the names. -/
theorem perm_foldl_insert (rest : List (String × α)) (catalog : Catalog α)
    (h : ((rest ++ catalog.entries).map Prod.fst).Nodup) :
    (rest.foldl (fun catalog entry => catalog.insert entry.1 entry.2) catalog).entries.Perm
      (rest ++ catalog.entries) := by
  induction rest generalizing catalog with
  | nil => exact .refl _
  | cons entry rest ih =>
      rw [List.cons_append, List.map_cons, List.nodup_cons] at h
      obtain ⟨hnew, hrest⟩ := h
      -- The entry is new to the catalog, and it stays new to what is left.
      have hinsert :
          (insertEntry entry.1 entry.2 catalog.entries).Perm (entry :: catalog.entries) :=
        perm_insertEntry entry.2 fun other hother heq =>
          hnew (List.mem_map.mpr ⟨other, List.mem_append_right _ hother, heq⟩)
      have hmoved := hinsert.append_left rest |>.trans List.perm_middle
      refine (ih (catalog.insert entry.1 entry.2) ?_).trans hmoved
      exact (hmoved.map Prod.fst).nodup_iff.mpr (List.nodup_cons.mpr ⟨hnew, hrest⟩)

/-- A catalog is made of its entries in any order: `Catalog.ofList` undoes `Catalog.entries`, also
after the entries have been shuffled. Two sorted lists with the same members are equal. -/
theorem ofList_of_perm {entries : List (String × α)} {catalog : Catalog α}
    (h : entries.Perm catalog.entries) : ofList entries = catalog := by
  have hnames : ((entries ++ (empty : Catalog α).entries).map Prod.fst).Nodup := by
    rw [entries_empty, List.append_nil]
    exact (h.map Prod.fst).nodup_iff.mpr catalog.nodup_names
  have hperm := perm_foldl_insert entries empty hnames
  rw [entries_empty, List.append_nil] at hperm
  refine ext ((hperm.trans h).eq_of_pairwise ?_ (ofList entries).sorted catalog.sorted)
  exact fun a b _ _ hlt hgt => absurd hgt (String.lt_asymm hlt)

end ModelSchema.Catalog

namespace ModelSchema.NameSet

/-- Sets with the same names are equal. -/
theorem ext_mem {a b : NameSet} (h : ∀ name, name ∈ a ↔ name ∈ b) : a = b := by
  have hantisymm : Std.Antisymm (α := String) (· < ·) :=
    ⟨fun _ _ hlt hgt => absurd hgt (String.lt_asymm hlt)⟩
  obtain ⟨names, hsorted⟩ := a
  obtain ⟨others, hothers⟩ := b
  congr 1
  exact hsorted.eq_of_mem_iff hothers h

end ModelSchema.NameSet
