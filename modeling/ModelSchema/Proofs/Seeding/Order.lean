import Mathlib
import ModelSchema.Sql.Seeding

/-!
# The order of lists

Lists are put in order by exchanges: as long as a class refers to a later one, the first such class
changes places with the first it refers to. The main properties:

* an order that is found has the same classes, and none refers to a later one
  (`order_eq_ok`);
* an order is found exactly if references do not form a cycle (`order_ok_iff`);
* failing that, the error names the classes (`order_eq_error`).

That the budget is large enough rests on a potential (`potential_swap_lt`). An exchange leaves the
places before it settled, and brings a class to the first unsettled place that fewer classes can be
reached from.
-/

namespace ModelSchema.Sql.Seeding

def Refers (graph : Graph) (ids : List ClassId) (id other : ClassId) : Prop :=
  id ∈ ids ∧ other ∈ ids ∧ refersTo graph id other = true

/-- References between classes of a list do not form a cycle. -/
def Acyclic (graph : Graph) (ids : List ClassId) : Prop :=
  ∀ id, ¬ Relation.TransGen (Refers graph ids) id id

def Settled (graph : Graph) (ids : List ClassId) : Prop :=
  ids.Pairwise fun earlier later => refersTo graph earlier later = false

theorem ne_of_refersTo {graph : Graph} {id other : ClassId} (h : refersTo graph id other = true) :
    id ≠ other := by
  intro heq
  simp [refersTo, heq] at h

/-! ## Conflicts

Exchanges are made at the first place whose class refers to a later one. -/

/-- All pairs of places, by the first place. The nested loops of `conflict?` go through them in this
order. -/
def places (count : Nat) : List (Nat × Nat) :=
  (List.range count).flatMap fun i => (List.range' (i + 1) (count - (i + 1))).map fun j => (i, j)

/-- Every pair of places is looked at, and in `places_sorted` that no first place comes after a
later one. -/
theorem mem_places {count i j : Nat} : (i, j) ∈ places count ↔ i < j ∧ j < count := by
  simp only [places, List.mem_flatMap, List.mem_range, List.mem_map, List.mem_range'_1,
    Prod.mk.injEq]
  constructor
  · rintro ⟨_, hi, _, hj, rfl, rfl⟩
    omega
  · intro h
    exact ⟨i, by omega, j, by omega, rfl, rfl⟩

theorem places_sorted (count : Nat) : (places count).Pairwise fun a b => a.1 ≤ b.1 := by
  rw [places, List.pairwise_flatMap]
  constructor
  · intro i _
    simp [List.pairwise_iff_getElem]
  · refine (List.pairwise_lt_range).imp fun {i k} hik a ha b hb => ?_
    obtain ⟨_, _, rfl⟩ := List.mem_map.mp ha
    obtain ⟨_, _, rfl⟩ := List.mem_map.mp hb
    exact Nat.le_of_lt hik

theorem conflict?_eq (graph : Graph) (ids : List ClassId) :
    conflict? graph ids = (places ids.length).find? fun (i, j) =>
      refersTo graph (ids.getD i 0) (ids.getD j 0) := rfl

/-- The class at a place refers to that at a later place, and all places before are settled. -/
structure Conflict (graph : Graph) (ids : List ClassId) (i j : Nat) : Prop where
  lt : i < j
  bound : j < ids.length
  refers : refersTo graph (ids.getD i 0) (ids.getD j 0) = true
  first : ∀ k l, k < i → k < l → l < ids.length →
    refersTo graph (ids.getD k 0) (ids.getD l 0) = false

/-- What `conflict?` finds is a conflict at the first unsettled place. At this place, it may be with
any later one. -/
theorem conflict_of_eq_some {graph : Graph} {ids : List ClassId} {i j : Nat}
    (h : conflict? graph ids = some (i, j)) : Conflict graph ids i j := by
  rw [conflict?_eq, List.find?_eq_some_iff_append] at h
  obtain ⟨hrefers, before, after, hplaces, hbefore⟩ := h
  have hmem : (i, j) ∈ places ids.length := hplaces ▸ by simp
  refine ⟨(mem_places.mp hmem).1, (mem_places.mp hmem).2, hrefers, fun k l hk hkl hl => ?_⟩
  have hpair : (k, l) ∈ before ++ (i, j) :: after := hplaces ▸ mem_places.mpr ⟨hkl, hl⟩
  rcases List.mem_append.mp hpair with hpair | hpair
  · simpa using hbefore _ hpair
  · -- From `(i, j)` on, the first place is not before `i`.
    have hsorted := hplaces ▸ places_sorted ids.length
    have hafter := List.pairwise_cons.mp (List.pairwise_append.mp hsorted).2.1
    rcases List.mem_cons.mp hpair with heq | hpair
    · cases heq
      exact absurd hk (Nat.lt_irrefl _)
    · exact absurd hk (Nat.not_lt_of_le (hafter.1 _ hpair))

/-- No conflict at any two places. -/
theorem settled_of_eq_none {graph : Graph} {ids : List ClassId}
    (h : conflict? graph ids = none) : Settled graph ids := by
  rw [conflict?_eq, List.find?_eq_none] at h
  rw [Settled, List.pairwise_iff_getElem]
  intro i j hi hj hij
  have hpair := h (i, j) (mem_places.mpr ⟨hij, hj⟩)
  simpa [List.getD_eq_getElem?_getD, hi, hj] using hpair

/-! ## Exchanges

An exchange is a permutation of the list, and does not undo what was settled before its place. -/

@[simp] theorem length_swap (ids : List ClassId) (i j : Nat) :
    (swap ids i j).length = ids.length := by
  simp [swap]

/-- An exchange place by place. -/
theorem getD_swap {ids : List ClassId} {i j : Nat} (hi : i < ids.length) (hj : j < ids.length)
    (k : Nat) :
    (swap ids i j).getD k 0 =
      if k = j then ids.getD i 0 else if k = i then ids.getD j 0 else ids.getD k 0 := by
  simp only [swap, List.getD_eq_getElem?_getD, List.getElem?_set, List.length_set]
  grind

theorem swap_perm {ids : List ClassId} {i j : Nat} (hi : i < ids.length) (hj : j < ids.length) :
    (swap ids i j).Perm ids := by
  simpa [swap, List.getD_eq_getElem?_getD, hi, hj] using List.set_set_perm hi hj

/-- An exchange leaves the places before it settled. -/
theorem Conflict.first_swap {graph : Graph} {ids : List ClassId} {i j : Nat}
    (h : Conflict graph ids i j) {k l : Nat} (hk : k < i) (hkl : k < l) (hl : l < ids.length) :
    refersTo graph ((swap ids i j).getD k 0) ((swap ids i j).getD l 0) = false := by
  have hj := h.bound
  have hij := h.lt
  rw [getD_swap (by omega) hj, getD_swap (by omega) hj, if_neg (by omega), if_neg (by omega)]
  -- The later class has come from a place after `k` as well.
  split
  · exact h.first k i hk hk (by omega)
  · split
    · exact h.first k j hk (by omega) hj
    · exact h.first k l hk hkl hl

/-! ## Progress

Why exchanges come to an end. At one place, the class there is replaced by one that it refers to;
without cycles this can happen fewer times than there are classes. Then the conflict moves on to a
later place. -/

open Classical in
/-- The classes of a list that can be reached from a class by references. -/
noncomputable def reach (graph : Graph) (ids : List ClassId) (id : ClassId) : Finset ClassId :=
  ids.toFinset.filter (Relation.TransGen (Refers graph ids) id)

theorem mem_reach {graph : Graph} {ids : List ClassId} {id other : ClassId} :
    other ∈ reach graph ids id ↔ other ∈ ids ∧ Relation.TransGen (Refers graph ids) id other := by
  simp [reach]

/-- A class that is referred to reaches fewer classes: everything it reaches, and not itself, as
there is no cycle. -/
theorem card_reach_lt {graph : Graph} {ids : List ClassId} (hacyclic : Acyclic graph ids)
    {id other : ClassId} (h : Refers graph ids id other) :
    (reach graph ids other).card < (reach graph ids id).card := by
  refine Finset.card_lt_card (Finset.ssubset_iff_of_subset ?_ |>.mpr ⟨other, ?_, ?_⟩)
  · intro target htarget
    obtain ⟨hmem, hpath⟩ := mem_reach.mp htarget
    exact mem_reach.mpr ⟨hmem, .head h hpath⟩
  · exact mem_reach.mpr ⟨h.2.1, .single h⟩
  · intro hself
    exact hacyclic other (mem_reach.mp hself).2

/-- A class does not reach itself, so it reaches fewer classes than there are. -/
theorem card_reach_lt_length {graph : Graph} {ids : List ClassId} (hacyclic : Acyclic graph ids)
    {id : ClassId} (h : id ∈ ids) : (reach graph ids id).card < ids.length := by
  refine Nat.lt_of_lt_of_le (Finset.card_lt_card ?_) (List.toFinset_card_le ids)
  refine Finset.ssubset_iff_of_subset ?_ |>.mpr ⟨id, ?_, ?_⟩
  · intro target htarget
    exact List.mem_toFinset.mpr (mem_reach.mp htarget).1
  · exact List.mem_toFinset.mpr h
  · intro hself
    exact hacyclic id (mem_reach.mp hself).2

/-- A bound on the exchanges that are still needed while the class at place `i` is in conflict. The
first summand counts the places after `i`, each with as many exchanges as there are classes; the
second is for the place itself. -/
noncomputable def potential (graph : Graph) (all ids : List ClassId) (i : Nat) : Nat :=
  (all.length - 1 - i) * all.length + (reach graph all (ids.getD i 0)).card

section Potential

variable {graph : Graph} {all ids : List ClassId} {i j : Nat}

theorem getD_mem {k : Nat} (hperm : ids.Perm all) (hk : k < ids.length) :
    ids.getD k 0 ∈ all := by
  rw [← hperm.mem_iff, List.getD_eq_getElem?_getD, List.getElem?_eq_getElem hk]
  exact List.getElem_mem hk

/-- The potential is below that of the whole place, since a class reaches fewer classes than there
are. -/
theorem Conflict.potential_lt (h : Conflict graph ids i j) (hperm : ids.Perm all)
    (hacyclic : Acyclic graph all) : potential graph all ids i < (all.length - i) * all.length := by
  have hj := h.bound
  have hij := h.lt
  have hlength := hperm.length_eq
  have hreach := card_reach_lt_length hacyclic (getD_mem hperm (Nat.lt_trans hij hj))
  have hsplit : all.length - i = all.length - 1 - i + 1 := by omega
  rw [potential, hsplit, Nat.add_mul, Nat.one_mul]
  omega

/-- Every exchange makes the potential smaller. -/
theorem potential_swap_lt (h : Conflict graph ids i j) (hperm : ids.Perm all)
    (hacyclic : Acyclic graph all) {k l : Nat} (hnext : Conflict graph (swap ids i j) k l) :
    potential graph all (swap ids i j) k < potential graph all ids i := by
  have hj := h.bound
  have hi := Nat.lt_trans h.lt hj
  -- The places before `i` stay settled, so the next conflict is not before `i`.
  have hlater : i ≤ k := by
    apply Nat.le_of_not_lt
    intro hk
    have hsettled := h.first_swap hk hnext.lt (by simpa using hnext.bound)
    rw [hnext.refers] at hsettled
    cases hsettled
  rcases Nat.eq_or_lt_of_le hlater with rfl | hik
  · -- The place is still in conflict, but its new class was referred to by the old one.
    have hclass : (swap ids i j).getD i 0 = ids.getD j 0 := by
      rw [getD_swap hi hj, if_neg (Nat.ne_of_lt h.lt), if_pos rfl]
    rw [potential, potential, hclass]
    exact Nat.add_lt_add_left
      (card_reach_lt hacyclic ⟨getD_mem hperm hi, getD_mem hperm hj, h.refers⟩) _
  · -- The conflict has moved on, and the places that are left bound its potential.
    have hswap := (swap_perm hi hj).trans hperm
    calc potential graph all (swap ids i j) k
        < (all.length - k) * all.length := hnext.potential_lt hswap hacyclic
      _ ≤ (all.length - 1 - i) * all.length := Nat.mul_le_mul_right _ (by omega)
      _ ≤ potential graph all ids i := Nat.le_add_right _ _

end Potential

/-! ## Settling

The loop, with its budget. `settle_cases` holds for any budget; `exists_settle` says when it is
enough. -/

/-- `settle` by its cases. The budget matters only if there is a conflict. -/
theorem settle_eq (graph : Graph) (budget : Nat) (ids : List ClassId) :
    settle graph budget ids =
      match conflict? graph ids with
      | none => .ok ids
      | some (i, j) =>
        match budget with
        | 0 => .error (.unorderable (ids.map fun id => (graph.classAt id).name))
        | budget + 1 => settle graph budget (swap ids i j) := by
  cases hfound : conflict? graph ids with
  | none => rw [settle, hfound]
  | some pair => cases budget <;> rw [settle, hfound]

/-- What is found has the same classes and is settled; an error names the same classes. -/
theorem settle_cases (graph : Graph) (budget : Nat) (ids : List ClassId) :
    (∃ sorted, settle graph budget ids = .ok sorted ∧ sorted.Perm ids ∧ Settled graph sorted) ∨
      ∃ left : List ClassId, settle graph budget ids =
        .error (.unorderable (left.map fun id => (graph.classAt id).name)) ∧ left.Perm ids := by
  induction budget generalizing ids with
  | zero =>
      rw [settle_eq]
      split
      · next hnone => exact .inl ⟨ids, rfl, .refl _, settled_of_eq_none hnone⟩
      · exact .inr ⟨ids, rfl, .refl _⟩
  | succ budget ih =>
      rw [settle_eq]
      split
      · next hnone => exact .inl ⟨ids, rfl, .refl _, settled_of_eq_none hnone⟩
      · next i j hconflict =>
        have h := conflict_of_eq_some hconflict
        have hperm := swap_perm (Nat.lt_trans h.lt h.bound) h.bound
        rcases ih (swap ids i j) with ⟨sorted, heq, hsame, hsettled⟩ | ⟨left, heq, hsame⟩
        · exact .inl ⟨sorted, heq, hsame.trans hperm, hsettled⟩
        · exact .inr ⟨left, heq, hsame.trans hperm⟩

/-- A budget above the potential is enough. By induction on the budget: each exchange takes one from
it, and lowers the potential. -/
theorem exists_settle {graph : Graph} {all : List ClassId} (hacyclic : Acyclic graph all)
    (budget : Nat) (ids : List ClassId) (hperm : ids.Perm all)
    (hbudget : ∀ i j, Conflict graph ids i j → potential graph all ids i < budget) :
    ∃ sorted, settle graph budget ids = .ok sorted := by
  induction budget generalizing ids with
  | zero =>
      rw [settle_eq]
      split
      · exact ⟨ids, rfl⟩
      · next i j hconflict =>
        exact absurd (hbudget i j (conflict_of_eq_some hconflict)) (Nat.not_lt_zero _)
  | succ budget ih =>
      rw [settle_eq]
      split
      · exact ⟨ids, rfl⟩
      · next i j hconflict =>
        have h := conflict_of_eq_some hconflict
        refine ih (swap ids i j) ((swap_perm (Nat.lt_trans h.lt h.bound) h.bound).trans hperm) ?_
        intro k l hnext
        exact Nat.lt_of_lt_of_le (potential_swap_lt h hperm hacyclic hnext)
          (Nat.le_of_lt_succ (hbudget i j h))

/-! ## Orders -/

section Settled

variable {graph : Graph} {ids : List ClassId}

/-- In a settled list, a class comes after those it refers to. -/
theorem Settled.idxOf_lt (h : Settled graph ids) {id other : ClassId} (hid : id ∈ ids)
    (hother : other ∈ ids) (hrefers : refersTo graph id other = true) :
    ids.idxOf other < ids.idxOf id := by
  apply Nat.lt_of_not_le
  intro hle
  have hi := List.idxOf_lt_length_of_mem hid
  have hj := List.idxOf_lt_length_of_mem hother
  have hne : ids.idxOf id ≠ ids.idxOf other := fun heq =>
    ne_of_refersTo hrefers ((List.idxOf_inj hid).mp heq)
  have hforward := List.pairwise_iff_getElem.mp h _ _ hi hj (Nat.lt_of_le_of_ne hle hne)
  rw [List.getElem_idxOf, List.getElem_idxOf, hrefers] at hforward
  cases hforward

/-- Along references, places go down. So no class refers back to itself. -/
theorem Settled.acyclic (h : Settled graph ids) : Acyclic graph ids := by
  intro id hcycle
  have hpath (other : ClassId) (hreach : Relation.TransGen (Refers graph ids) id other) :
      ids.idxOf other < ids.idxOf id := by
    induction hreach with
    | single hstep => exact h.idxOf_lt hstep.1 hstep.2.1 hstep.2.2
    | tail _ hstep ih => exact Nat.lt_trans (h.idxOf_lt hstep.1 hstep.2.1 hstep.2.2) ih
  exact Nat.lt_irrefl _ (hpath id hcycle)

/-- The same said with sublists, as it is used for rows. -/
theorem Settled.sublist (h : Settled graph ids) {id other : ClassId} (hid : id ∈ ids)
    (hother : other ∈ ids) (hrefers : refersTo graph id other = true) :
    [other, id].Sublist ids := by
  have hlt := h.idxOf_lt hid hother hrefers
  have hbefore : other ∈ ids.take (ids.idxOf id) := (List.mem_take_iff_idxOf_lt hother).mpr hlt
  have hafter : id ∈ ids.drop (ids.idxOf id) := by
    rw [List.drop_eq_getElem_cons (List.idxOf_lt_length_of_mem hid), List.getElem_idxOf]
    exact List.mem_cons_self
  have hsublist := (List.singleton_sublist.mpr hbefore).append (List.singleton_sublist.mpr hafter)
  rwa [List.take_append_drop] at hsublist

end Settled

theorem acyclic_iff_of_perm {graph : Graph} {ids others : List ClassId} (h : ids.Perm others) :
    Acyclic graph ids ↔ Acyclic graph others := by
  have hrefers : Refers graph ids = Refers graph others := by
    funext id other
    simp only [Refers, h.mem_iff]
  rw [Acyclic, Acyclic, hrefers]

/-- `order` gives the squared number of classes as budget. What is found does not depend on it. -/
theorem order_eq_ok {graph : Graph} {ids sorted : List ClassId}
    (h : order graph ids = .ok sorted) : sorted.Perm ids ∧ Settled graph sorted := by
  rcases settle_cases graph (ids.length * ids.length) ids with ⟨found, heq, hfound⟩ | ⟨_, heq, -⟩
  · rw [order, heq] at h
    cases h
    exact hfound
  · rw [order, heq] at h
    cases h

/-- Without an order, the error names the classes. -/
theorem order_eq_error {graph : Graph} {ids : List ClassId} {error : Error}
    (h : order graph ids = .error error) :
    ∃ left : List ClassId, left.Perm ids ∧
      error = .unorderable (left.map fun id => (graph.classAt id).name) := by
  rcases settle_cases graph (ids.length * ids.length) ids with ⟨_, heq, -⟩ | ⟨left, heq, hleft⟩
  · rw [order, heq] at h
    cases h
  · rw [order, heq] at h
    cases h
    exact ⟨left, hleft, rfl⟩

/-- There is an order exactly if references do not form a cycle. The potential at the start is below
the budget of `order`. -/
theorem order_ok_iff {graph : Graph} {ids : List ClassId} :
    (∃ sorted, order graph ids = .ok sorted) ↔ Acyclic graph ids := by
  constructor
  · rintro ⟨sorted, h⟩
    obtain ⟨hperm, hsettled⟩ := order_eq_ok h
    exact (acyclic_iff_of_perm hperm).mp hsettled.acyclic
  · intro hacyclic
    refine exists_settle hacyclic _ ids (.refl _) fun i j h => ?_
    calc potential graph ids ids i
        < (ids.length - i) * ids.length := h.potential_lt (.refl _) hacyclic
      _ ≤ ids.length * ids.length := Nat.mul_le_mul_right _ (Nat.sub_le ..)

end ModelSchema.Sql.Seeding
