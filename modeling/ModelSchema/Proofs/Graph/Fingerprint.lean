import ModelSchema.Graph.Fingerprint
import ModelSchema.Proofs.Json.Distinct
import ModelSchema.Proofs.Json.Records

/-!
# Fingerprints identify graphs

The text that the fingerprint of a graph is taken from can be the text of no other graph: each
record is written with all its data (`toJson_injective`), and the text of JSON identifies the value
if it has no infinite doubles in it (`all_distinct`). So graphs with one fingerprint are equal, or
their texts are two messages with one digest.
-/

namespace ModelSchema

/-! ## Parts of records -/

namespace NameSet

/-- The proof of order in a `NameSet` is no data. -/
theorem names_inj {a b : NameSet} : a.names = b.names ↔ a = b := by
  constructor
  · intro h
    cases a
    cases b
    cases h
    rfl
  · rintro rfl
    rfl

end NameSet

namespace Json

variable {α : Type} {encode : α → Json}

@[simp] theorem ofText?_inj {a b : Option String} : ofText? a = ofText? b ↔ a = b := by
  cases a <;> cases b <;> simp [ofText?]

@[simp] theorem nat_inj {n m : Nat} : nat n = nat m ↔ n = m := by
  simp [nat]

theorem text_injective : Function.Injective text :=
  fun _ _ => text.inj

theorem nat_injective : Function.Injective nat :=
  fun _ _ => nat_inj.mp

/-- A list is written with all its items. -/
theorem map_inj (hencode : Function.Injective encode) {xs ys : List α} :
    xs.map encode = ys.map encode ↔ xs = ys :=
  (List.map_injective_iff.mpr hencode).eq_iff

/-- A map is written with all its entries, and a catalog has no other order to forget. -/
theorem entries_inj (hencode : Function.Injective encode) {a b : Catalog α} :
    a.entries.map (fun entry => (entry.1, encode entry.2)) =
      b.entries.map (fun entry => (entry.1, encode entry.2)) ↔ a = b := by
  have hentry : Function.Injective fun entry : String × α => (entry.1, encode entry.2) := by
    rintro ⟨name, value⟩ ⟨other, value'⟩ h
    rw [Prod.mk.injEq] at h ⊢
    exact ⟨h.1, hencode h.2⟩
  rw [(List.map_injective_iff.mpr hentry).eq_iff, Catalog.ext_iff]

end Json

/-! ## Records -/

theorem Stereotype.key_injective : Function.Injective Stereotype.key := by
  intro a b h
  cases a <;> cases b <;> simp_all [key]

namespace Seed

theorem Value.toJson_injective : Function.Injective Value.toJson := by
  intro a b h
  cases a <;> cases b <;> simp_all [Value.toJson]

/-- An item is a name with two maps, of values and of labels. -/
theorem Item.toJson_injective : Function.Injective Item.toJson := by
  intro a b h
  cases a
  cases b
  simpa [Item.toJson, Json.entries_inj Value.toJson_injective,
    Json.entries_inj Json.text_injective] using h

end Seed

namespace Graph

@[simp] theorem natJson_inj {a b : Option Nat} : natJson a = natJson b ↔ a = b := by
  cases a <;> cases b <;> simp [natJson, Json.nat]

@[simp] theorem textsJson_inj {a b : List String} : textsJson a = textsJson b ↔ a = b := by
  simp [textsJson, Json.map_inj Json.text_injective]

theorem Domain.toJson_injective : Function.Injective Domain.toJson := by
  intro a b h
  cases a
  cases b
  simpa [Domain.toJson] using h

theorem Model.toJson_injective : Function.Injective Model.toJson := by
  intro a b h
  cases a
  cases b
  simpa [Model.toJson, Json.map_inj Json.nat_injective] using h

theorem Namespace.toJson_injective : Function.Injective Namespace.toJson := by
  intro a b h
  cases a
  cases b
  simpa [Namespace.toJson, Json.map_inj Json.nat_injective, NameSet.names_inj] using h

theorem Kind.toJson_injective : Function.Injective Kind.toJson := by
  intro a b h
  cases a <;> cases b <;> simp_all [Kind.toJson]

theorem Property.toJson_injective : Function.Injective Property.toJson := by
  intro a b h
  cases a
  cases b
  simpa [Property.toJson, Kind.toJson_injective.eq_iff, and_assoc] using h

/-- Items are written unless there are none. A class without items is told from one with some by the
missing field. -/
theorem itemFields_inj {xs ys : List Seed.Item} :
    (if xs.isEmpty then [] else [("constant_values", Json.array (xs.map Seed.Item.toJson))]) =
      (if ys.isEmpty then [] else [("constant_values", Json.array (ys.map Seed.Item.toJson))]) ↔
        xs = ys := by
  cases xs <;> cases ys <;>
    simp [Seed.Item.toJson_injective.eq_iff, Json.map_inj Seed.Item.toJson_injective]

/-- The largest record; the field of items is the only one that may be missing. -/
theorem Class.toJson_injective : Function.Injective Class.toJson := by
  intro a b h
  cases a
  cases b
  -- Only the rewriting of equations may touch the list of items, so that it stays in one piece.
  simpa only [Class.toJson, List.cons_append, List.nil_append, List.cons.injEq, Prod.mk.injEq,
    Json.object.injEq, Json.text.injEq, Json.bool.injEq, Json.array.injEq, Json.ofText?_inj,
    Json.nat_inj, natJson_inj, itemFields_inj, Stereotype.key_injective.eq_iff,
    Json.map_inj Property.toJson_injective, Class.mk.injEq, true_and, and_true, and_assoc] using h

/-- No two graphs are written as the same JSON. Record by record, so a new field of a record
concerns one lemma. -/
theorem toJson_injective : Function.Injective toJson := by
  intro a b h
  cases a
  cases b
  simpa [toJson, Json.map_inj Model.toJson_injective, Json.map_inj Namespace.toJson_injective,
    Json.map_inj Class.toJson_injective, Json.entries_inj Domain.toJson_injective] using h

end Graph

/-! ## Finite doubles -/

/-- A value that is no double, or a finite one. JSON has no spelling for infinity and for what is
not a number: they are all written alike. -/
def Seed.Value.IsFinite : Seed.Value → Prop
  | double f => f.isFinite = true
  | _ => True

instance : DecidablePred Seed.Value.IsFinite
  | .double f => inferInstanceAs (Decidable (f.isFinite = true))
  | .null | .bool _ | .integer _ | .text _ => isTrue trivial

theorem Seed.Value.all_distinct {value : Seed.Value} (h : value.IsFinite) :
    value.toJson.All Json.IsDistinct := by
  cases value with
  | double f =>
      simp only [toJson, Json.All]
      exact h
  | _ => trivial

namespace Graph

def Class.IsFinite (c : Class) : Prop :=
  ∀ item ∈ c.items, ∀ value ∈ item.values.values, value.IsFinite

/-- All doubles among the values of a graph are finite. -/
def IsFinite (graph : Graph) : Prop :=
  ∀ c ∈ graph.classes, c.IsFinite

instance : DecidablePred IsFinite :=
  fun graph => inferInstanceAs (Decidable (∀ c ∈ graph.classes, ∀ item ∈ c.items,
    ∀ value ∈ item.values.values, value.IsFinite))

end Graph

namespace Json

@[simp] theorem isDistinct_bool (b : Bool) : IsDistinct (bool b) := trivial

@[simp] theorem all_distinct_nat (n : Nat) : (nat n).All IsDistinct := by
  simp [nat, IsDistinct]

@[simp] theorem all_distinct_ofText? (s : Option String) : (ofText? s).All IsDistinct := by
  cases s <;> simp [ofText?, IsDistinct]

end Json

namespace Graph

@[simp] theorem all_distinct_natJson (n : Option Nat) : (natJson n).All Json.IsDistinct := by
  cases n with
  | none => simp [natJson, Json.IsDistinct]
  | some n => exact Json.all_distinct_nat n

@[simp] theorem all_distinct_textsJson (texts : List String) :
    (textsJson texts).All Json.IsDistinct := by
  simp [textsJson]

theorem Domain.all_distinct (domain : Domain) : domain.toJson.All Json.IsDistinct := by
  simp [toJson]

theorem Model.all_distinct (model : Model) : model.toJson.All Json.IsDistinct := by
  simp [toJson]

theorem Namespace.all_distinct (n : Namespace) : n.toJson.All Json.IsDistinct := by
  simp [toJson]

theorem Property.all_distinct (property : Property) : property.toJson.All Json.IsDistinct := by
  have hkind : property.kind.toJson.All Json.IsDistinct := by
    cases property.kind <;> simp [Kind.toJson]
  simp [toJson, hkind]

/-- Only the items of a class can hold doubles. -/
theorem Class.all_distinct {c : Class} (h : c.IsFinite) : c.toJson.All Json.IsDistinct := by
  have hitems : ∀ item ∈ c.items, item.toJson.All Json.IsDistinct := by
    intro item hitem
    have hvalues : ∀ value ∈ item.values.values, value.toJson.All Json.IsDistinct :=
      fun value hvalue => Seed.Value.all_distinct (h item hitem value hvalue)
    simpa [Seed.Item.toJson] using hvalues
  have hfields : ∀ field ∈ (if c.items.isEmpty then []
      else [("constant_values", Json.array (c.items.map Seed.Item.toJson))]),
      field.2.All Json.IsDistinct := by
    split
    · simp
    · simpa using hitems
  rw [toJson, Json.all_object, List.forall_mem_append]
  refine ⟨?_, hfields⟩
  simp [Property.all_distinct]

theorem all_distinct {graph : Graph} (h : graph.IsFinite) : graph.toJson.All Json.IsDistinct := by
  have hclasses : ∀ c ∈ graph.classes, c.toJson.All Json.IsDistinct :=
    fun c hc => Class.all_distinct (h c hc)
  simpa [toJson, Model.all_distinct, Namespace.all_distinct, Domain.all_distinct] using hclasses

end Graph

/-! ## Digests -/

namespace Digest.Sha256

def hexDigits (word : UInt32) : List Char :=
  (List.range 8).map fun i => Nat.digitChar (word.toNat / Nat.pow 16 (7 - i) % 16)

/-- A number is told from its lowest hexadecimal digits, up to what stands above them. -/
theorem mod_eq_of_digits {n m count : Nat}
    (h : ∀ i < count, n / 16 ^ i % 16 = m / 16 ^ i % 16) : n % 16 ^ count = m % 16 ^ count := by
  induction count with
  | zero => rw [pow_zero, Nat.mod_one, Nat.mod_one]
  | succ count ih =>
      have hlower := ih fun i hi => h i (Nat.lt_succ_of_lt hi)
      rw [Nat.mod_pow_succ, Nat.mod_pow_succ, hlower, h count (Nat.lt_succ_self count)]

/-- Eight hexadecimal digits tell a word of 32 bits. -/
theorem hexDigits_injective : Function.Injective hexDigits := by
  intro word other h
  have hdigits : ∀ i < 8, word.toNat / 16 ^ i % 16 = other.toNat / 16 ^ i % 16 := by
    intro i hi
    have hchar := List.map_inj_left.mp h (7 - i) (List.mem_range.mpr (by omega))
    have hvalue := congrArg Json.hexValue? hchar
    rw [← Json.hexDigit, ← Json.hexDigit, Json.hexValue?_hexDigit, Json.hexValue?_hexDigit,
      Nat.sub_sub_self (by omega)] at hvalue
    exact Option.some.inj hvalue
  -- Both words are below `16 ^ 8`, so their eight lowest digits are all they have.
  have hword : word.toNat < 16 ^ 8 := word.toNat_lt
  have hother : other.toNat < 16 ^ 8 := other.toNat_lt
  have hmod := mod_eq_of_digits hdigits
  rw [Nat.mod_eq_of_lt hword, Nat.mod_eq_of_lt hother] at hmod
  exact UInt32.toNat_inj.mp hmod

/-- The digits of all words in a row tell the words: each has eight. -/
theorem flatMap_hexDigits_injective : Function.Injective (List.flatMap hexDigits) := by
  intro words
  induction words with
  | nil =>
      intro others h
      cases others with
      | nil => rfl
      | cons other others => simp [hexDigits] at h
  | cons word words ih =>
      intro others h
      cases others with
      | nil => simp [hexDigits] at h
      | cons other others =>
          -- All words have eight digits, so the first ones end at the same place.
          rw [List.flatMap_cons, List.flatMap_cons] at h
          obtain ⟨hfirst, hrest⟩ := List.append_inj h (by simp [hexDigits])
          rw [hexDigits_injective hfirst, ih hrest]

/-- The digits of a digest tell its words. -/
theorem digest_eq_of_hex {message other : List UInt8} (h : hex message = hex other) :
    digest message = digest other :=
  flatMap_hexDigits_injective (String.ofList_injective h)

/-- Two messages with one digest. Nothing is assumed about `Sha256.digest`: a collision is a
possible outcome of the theorem, not a case that a hypothesis rules out. -/
def Collision (message other : List UInt8) : Prop :=
  message ≠ other ∧ digest message = digest other

end Digest.Sha256

namespace Text

/-- The loop behind `ByteArray.toList` has read the bytes before `i`, in reverse. -/
theorem toList_loop (bytes : ByteArray) (i : Nat) (read : List UInt8) :
    ByteArray.toList.loop bytes i read = read.reverse ++ bytes.data.toList.drop i := by
  fun_induction ByteArray.toList.loop bytes i read with
  | case1 i read h ih =>
      have hlt : i < bytes.data.toList.length := h
      have hbyte : bytes.get! i = bytes.data.toList[i] := getElem!_pos bytes.data i h
      rw [ih, hbyte, List.drop_eq_getElem_cons hlt, List.reverse_cons, List.append_assoc,
        List.singleton_append]
  | case2 i read h =>
      have hge : bytes.data.toList.length ≤ i := not_lt.mp h
      rw [List.drop_eq_nil_of_le hge, List.append_nil]

/-- A text is told from its bytes. -/
theorem bytes_injective {s t : String} (h : s.toUTF8.toList = t.toUTF8.toList) : s = t := by
  rw [ByteArray.toList, ByteArray.toList, toList_loop, toList_loop] at h
  apply String.toByteArray_inj.mp
  apply ByteArray.ext
  apply Array.toList_inj.mp
  simpa using h

end Text

/-! ## Fingerprints -/

namespace Graph

/-- A graph with one class, whose only item has a value. -/
def holding (value : Seed.Value) : Graph :=
  let item : Seed.Item := ⟨"item", Catalog.empty.insert "rate" value, .empty⟩
  { empty with classes := [{ (default : Class) with items := [item] }] }

/-- Graphs with finite doubles only have one text only if they are equal. Graphs with one
fingerprint are equal, unless their texts are a collision. -/
theorem fingerprint_identifies {graph other : Graph} (h : graph.IsFinite) (hother : other.IsFinite) :
    (graph.toJson.render = other.toJson.render ↔ graph = other) ∧
      (graph.fingerprint = other.fingerprint → graph = other ∨
        Digest.Sha256.Collision graph.toJson.render.toUTF8.toList
          other.toJson.render.toUTF8.toList) := by
  have htext : graph.toJson.render = other.toJson.render → graph = other := fun heq =>
    toJson_injective (Json.eq_of_render (all_distinct h) (all_distinct hother) heq)
  refine ⟨⟨htext, fun heq => by rw [heq]⟩, ?_⟩
  intro hfingerprint
  by_cases heq : graph = other
  · exact .inl heq
  · refine .inr ⟨?_, Digest.Sha256.digest_eq_of_hex hfingerprint⟩
    intro hbytes
    apply heq
    apply htext
    exact Text.bytes_injective hbytes

/-- The two zeros are equal numbers, but not equal doubles. -/
theorem fingerprint_identifies_zeros :
    (holding (.double 0.0)).IsFinite ∧ (holding (.double (-0.0))).IsFinite ∧
      (holding (.double 0.0)).toJson.render ≠ (holding (.double (-0.0))).toJson.render ∧
      ((holding (.double 0.0)).fingerprint = (holding (.double (-0.0))).fingerprint →
        Digest.Sha256.Collision (holding (.double 0.0)).toJson.render.toUTF8.toList
          (holding (.double (-0.0))).toJson.render.toUTF8.toList) := by
  have hpositive : (holding (.double 0.0)).IsFinite := by decide
  have hnegative : (holding (.double (-0.0))).IsFinite := by decide
  have hne : holding (.double 0.0) ≠ holding (.double (-0.0)) := by decide
  obtain ⟨htext, hfingerprint⟩ := fingerprint_identifies hpositive hnegative
  exact ⟨hpositive, hnegative, htext.not.mpr hne, fun h => (hfingerprint h).resolve_left hne⟩

end Graph

end ModelSchema
