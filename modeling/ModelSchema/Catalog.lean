/-!
# Catalogs and name sets

A catalog holds one value under each of its names and lists them in the order of the names; a name
set is the same without values. The order of the entries is part of the type, so two catalogs with
the same entries are equal, and `entries` is the view through which every operation is described.
-/

namespace ModelSchema

/-- Values by name, in increasing order of the names. -/
structure Catalog (α : Type) where
  entries : List (String × α)
  sorted : entries.Pairwise fun a b => a.1 < b.1
deriving DecidableEq

namespace Catalog

variable {α β : Type}

/-! ## Entry lists -/

/-- Put a value in its place in an ordered entry list, over a value of the same name. -/
def insertEntry (name : String) (value : α) : List (String × α) → List (String × α)
  | [] => [(name, value)]
  | entry :: rest =>
    if name < entry.1 then (name, value) :: entry :: rest
    else if name = entry.1 then (name, value) :: rest
    else entry :: insertEntry name value rest

theorem mem_insertEntry {name : String} {value : α} {entry : String × α}
    {entries : List (String × α)} (h : entry ∈ insertEntry name value entries) :
    entry = (name, value) ∨ entry ∈ entries := by
  induction entries with
  | nil => simpa [insertEntry] using h
  | cons first rest ih =>
    rw [insertEntry] at h
    split at h
    · simpa using h
    · split at h
      · rcases List.mem_cons.1 h with h | h
        · exact .inl h
        · exact .inr (List.mem_cons_of_mem _ h)
      · rcases List.mem_cons.1 h with h | h
        · exact .inr (h ▸ List.mem_cons_self)
        · exact (ih h).imp id (List.mem_cons_of_mem _)

theorem sorted_insertEntry (name : String) (value : α) {entries : List (String × α)}
    (h : entries.Pairwise fun a b => a.1 < b.1) :
    (insertEntry name value entries).Pairwise fun a b => a.1 < b.1 := by
  induction entries with
  | nil => simp [insertEntry]
  | cons first rest ih =>
    have hfirst : ∀ {entry}, entry ∈ rest → first.1 < entry.1 := List.rel_of_pairwise_cons h
    have hrest := h.of_cons
    rw [insertEntry]
    split
    · rename_i hlt
      refine .cons (fun entry member => ?_) h
      rcases List.mem_cons.1 member with rfl | member
      · exact hlt
      · exact String.lt_trans hlt (hfirst member)
    · rename_i hge
      split
      · rename_i heq
        refine .cons (fun entry member => ?_) hrest
        exact heq ▸ hfirst member
      · rename_i hne
        refine .cons (fun entry member => ?_) (ih hrest)
        rcases mem_insertEntry member with rfl | member
        · exact Std.lt_of_le_of_ne (String.not_lt.1 hge) (Ne.symm hne)
        · exact hfirst member

/-! ## Catalogs -/

def empty : Catalog α := ⟨[], .nil⟩

instance : Inhabited (Catalog α) := ⟨empty⟩

/-- Put a value under a name, in place of any value it has. -/
def insert (catalog : Catalog α) (name : String) (value : α) : Catalog α :=
  ⟨insertEntry name value catalog.entries, sorted_insertEntry name value catalog.sorted⟩

/-- The catalog of a list of entries; of several entries of one name the last is kept. -/
def ofList (entries : List (String × α)) : Catalog α :=
  entries.foldl (fun catalog entry => catalog.insert entry.1 entry.2) empty

def get? (catalog : Catalog α) (name : String) : Option α :=
  catalog.entries.lookup name

def contains (catalog : Catalog α) (name : String) : Bool :=
  (catalog.get? name).isSome

def names (catalog : Catalog α) : List String :=
  catalog.entries.map (·.1)

def values (catalog : Catalog α) : List α :=
  catalog.entries.map (·.2)

def size (catalog : Catalog α) : Nat :=
  catalog.entries.length

def isEmpty (catalog : Catalog α) : Bool :=
  catalog.entries.isEmpty

@[simp] theorem entries_empty : (empty : Catalog α).entries = [] := rfl

@[simp] theorem entries_insert (catalog : Catalog α) (name : String) (value : α) :
    (catalog.insert name value).entries = insertEntry name value catalog.entries := rfl

@[ext] theorem ext {a b : Catalog α} (h : a.entries = b.entries) : a = b := by
  cases a
  cases b
  congr

end Catalog

/-- Names without repetition, in increasing order. -/
structure NameSet where
  names : List String
  sorted : names.Pairwise (· < ·)
deriving DecidableEq

namespace NameSet

/-- Put a name in its place in an ordered list, unless it is there. -/
def insertName (name : String) : List String → List String
  | [] => [name]
  | first :: rest =>
    if name < first then name :: first :: rest
    else if name = first then first :: rest
    else first :: insertName name rest

theorem mem_insertName {name other : String} {names : List String} :
    other ∈ insertName name names ↔ other = name ∨ other ∈ names := by
  induction names with
  | nil => simp [insertName]
  | cons first rest ih =>
    rw [insertName]
    split
    · simp
    · split
      · rename_i heq
        simp [heq]
      · simp only [List.mem_cons, ih]
        constructor
        · rintro (h | h | h)
          · exact .inr (.inl h)
          · exact .inl h
          · exact .inr (.inr h)
        · rintro (h | h | h)
          · exact .inr (.inl h)
          · exact .inl h
          · exact .inr (.inr h)

theorem sorted_insertName (name : String) {names : List String}
    (h : names.Pairwise (· < ·)) : (insertName name names).Pairwise (· < ·) := by
  induction names with
  | nil => simp [insertName]
  | cons first rest ih =>
    have hfirst : ∀ {other}, other ∈ rest → first < other := List.rel_of_pairwise_cons h
    rw [insertName]
    split
    · rename_i hlt
      refine .cons (fun other member => ?_) h
      rcases List.mem_cons.1 member with rfl | member
      · exact hlt
      · exact String.lt_trans hlt (hfirst member)
    · rename_i hge
      split
      · exact h
      · rename_i hne
        refine .cons (fun other member => ?_) (ih h.of_cons)
        rcases mem_insertName.1 member with rfl | member
        · exact Std.lt_of_le_of_ne (String.not_lt.1 hge) (Ne.symm hne)
        · exact hfirst member

def empty : NameSet := ⟨[], .nil⟩

instance : Inhabited NameSet := ⟨empty⟩

def insert (set : NameSet) (name : String) : NameSet :=
  ⟨insertName name set.names, sorted_insertName name set.sorted⟩

def ofList (names : List String) : NameSet :=
  names.foldl insert empty

instance : Membership String NameSet := ⟨fun set name => name ∈ set.names⟩

@[simp] theorem mem_insert {set : NameSet} {name other : String} :
    other ∈ set.insert name ↔ other = name ∨ other ∈ set :=
  mem_insertName

end NameSet

end ModelSchema
