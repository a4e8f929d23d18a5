import ModelSchema.Proofs.Json.Records
import ModelSchema.Seed

/-!
# Data files read back

Seed data without doubles is read back from the text it is written as (`parse_render`). Values,
items and batches are read back from their JSON each in turn (`ofJson?_toJson`), and the JSON from
its text because all its numbers are whole numbers of 64 bits (`all_toJson`).
-/

namespace ModelSchema.Seed

/-! ## Records -/

/-- A value that is no double, and a whole number only within 64 bits. -/
def Value.IsPlain : Value → Prop
  | null | bool _ | text _ => True
  | integer n => -(2 ^ 63) ≤ n ∧ n < 2 ^ 63
  | double _ => False

instance : DecidablePred Value.IsPlain
  | .null | .bool _ | .text _ => isTrue trivial
  | .integer n => inferInstanceAs (Decidable (-(2 ^ 63) ≤ n ∧ n < 2 ^ 63))
  | .double _ => isFalse not_false

/-- JSON has one kind of numbers. A whole number is read as an integer if it is one of 64 bits, and
`IsPlain` asks for that. -/
theorem Value.ofJson?_toJson {value : Value} (h : value.IsPlain) :
    Value.ofJson? value.toJson = some value := by
  cases value with
  | integer n =>
      have hinteger : isInteger n = true := by
        have hpow : (Nat.pow 2 63 : Nat) = 2 ^ 63 := rfl
        have hlow := h.1
        have hhigh := h.2
        simp only [isInteger, hpow, Bool.and_eq_true, decide_eq_true_eq]
        omega
      simp [toJson, ofJson?, hinteger]
  | double f => exact h.elim
  | _ => rfl

def Item.IsPlain (item : Item) : Prop :=
  ∀ value ∈ item.values.values, value.IsPlain

instance : DecidablePred Item.IsPlain :=
  fun item => inferInstanceAs (Decidable (∀ value ∈ item.values.values, value.IsPlain))

/-- Values and translations are catalogs, and `Json.asCatalog?_entries` reads those back. -/
theorem Item.ofJson?_toJson {item : Item} (h : item.IsPlain) :
    Item.ofJson? item.toJson = some item := by
  have hvalues := Json.asCatalog?_entries Value.toJson
    fun value hvalue => Value.ofJson?_toJson (h value hvalue)
  have htranslations : Json.asCatalog? Json.asText? _ = some item.translations :=
    Json.asCatalog?_entries Json.text fun _ _ => rfl
  rw [Item.ofJson?, Item.toJson, Json.record?_object (by rfl) (by decide)]
  simp [Json.Record.required, Json.Record.defaulted, List.lookup, Json.asText?, hvalues,
    htranslations]

def Batch.IsPlain (batch : Batch) : Prop :=
  ∀ item ∈ batch.items, item.IsPlain

instance : DecidablePred Batch.IsPlain :=
  fun batch => inferInstanceAs (Decidable (∀ item ∈ batch.items, item.IsPlain))

theorem Batch.ofJson?_toJson {batch : Batch} (h : batch.IsPlain) :
    Batch.ofJson? batch.toJson = some batch := by
  have hitems : (batch.items.map Item.toJson).mapM Item.ofJson? = some batch.items :=
    mapM_map_self fun item hitem => Item.ofJson?_toJson (h item hitem)
  have hkind : Kind.ofKey? batch.kind.key = some batch.kind := by
    cases batch.kind <;> decide
  rw [Batch.ofJson?, Batch.toJson, Json.record?_object (by rfl) (by decide)]
  simp [Json.Record.required, Json.Record.defaulted, List.lookup, Json.asText?, Json.asCase?,
    Json.asList?, hitems, hkind]

/-- All values of seed data are plain. -/
def IsPlain (seed : Seed) : Prop :=
  ∀ batch ∈ seed.batches.values, batch.IsPlain

instance : DecidablePred IsPlain :=
  fun seed => inferInstanceAs (Decidable (∀ batch ∈ seed.batches.values, batch.IsPlain))

/-- The file that the data comes from is not written. -/
theorem ofJson?_toJson {seed : Seed} (h : seed.IsPlain) :
    ofJson? seed.toJson = some ⟨seed.batches, none⟩ := by
  have hbatches := Json.asCatalog?_entries Batch.toJson
    fun batch hbatch => Batch.ofJson?_toJson (h batch hbatch)
  rw [ofJson?, toJson, hbatches, Option.map_some]

/-! ## Texts -/

/-- Texts of JSON are read back if all numbers in them are exact. What is plain has exact numbers.
-/
theorem Value.all_toJson {value : Value} (h : value.IsPlain) :
    value.toJson.All Json.IsExact := by
  cases value with
  | integer n => exact ⟨h.1, h.2.trans (by decide)⟩
  | double f => exact h.elim
  | _ => trivial

theorem Item.all_toJson {item : Item} (h : item.IsPlain) : item.toJson.All Json.IsExact := by
  have hvalues : ∀ value ∈ item.values.values, value.toJson.All Json.IsExact :=
    fun value hvalue => Value.all_toJson (h value hvalue)
  simpa [toJson] using hvalues

theorem Batch.all_toJson {batch : Batch} (h : batch.IsPlain) :
    batch.toJson.All Json.IsExact := by
  have hitems : ∀ item ∈ batch.items, item.toJson.All Json.IsExact :=
    fun item hitem => Item.all_toJson (h item hitem)
  simpa [toJson] using hitems

theorem all_toJson {seed : Seed} (h : seed.IsPlain) : seed.toJson.All Json.IsExact :=
  Json.all_entries.mpr fun batch hbatch => Batch.all_toJson (h batch hbatch)

/-- A batch with the ends of the range of numbers, and texts that need escapes. -/
def awkwardBatch : Batch :=
  { factory := "a\\b\"c",
    kind := .reference,
    items :=
      [{ name := "",
         values := Catalog.ofList
          [("low", .integer (-(2 ^ 63))), ("high", .integer (2 ^ 63 - 1)),
            ("none", .null), ("flag", .bool true), ("digits", .text "12"), ("null", .text "null")],
         translations := Catalog.ofList [("fr", "\x00\x1f\n\t\r\x7f"), ("de", "Größe  ")] }] }

/-- Two batches under names that need escapes, from a file. -/
def awkward : Seed :=
  ⟨Catalog.ofList [("\"\"", awkwardBatch), ("\\u0041", { awkwardBatch with kind := .static })],
    some "awkward.json"⟩

/-- Seed data is read back from its text, in both ways to write it: for every batch of items whose
values are null, truth values, whole numbers of 64 bits and texts, whatever the names, labels and
texts are. The file that the data comes from is not part of it. -/
theorem parse_render {seed : Seed} (h : seed.IsPlain) :
    parse seed.toJson.render = .ok ⟨seed.batches, none⟩ ∧
      parse seed.toJson.renderPretty = .ok ⟨seed.batches, none⟩ := by
  have hexact := all_toJson h
  simp only [parse, Json.parse?_render hexact, Json.parse?_renderPretty hexact, Option.bind_some,
    ofJson?_toJson h, and_self]

theorem parse_render_awkward : awkward.IsPlain ∧
    parse awkward.toJson.render = .ok ⟨awkward.batches, none⟩ ∧
      parse awkward.toJson.renderPretty = .ok ⟨awkward.batches, none⟩ :=
  have h : awkward.IsPlain := by decide +kernel
  ⟨h, parse_render h⟩

end ModelSchema.Seed
