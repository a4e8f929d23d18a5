import ModelSchema.Proofs.Json.Numerals
import ModelSchema.Proofs.Json.Strings

/-!
# JSON read back

Both ways to write a value leave some room between tokens: `spread` says how much, and `compact` and
`pretty` are two choices of it. Whatever the room, reading gives the value back (`parse?_spread`),
if all its numbers are whole numbers of 64 bits.
-/

namespace ModelSchema.Json

/-! ## What a value holds -/

mutual

/-- Everything in a value that holds no others satisfies `P`. Used for `IsExact` here, and for
`IsDistinct` where texts are compared. -/
def All (P : Json → Prop) : Json → Prop
  | array items => AllItems P items
  | object fields => AllFields P fields
  | json => P json

def AllItems (P : Json → Prop) : List Json → Prop
  | [] => True
  | item :: items => All P item ∧ AllItems P items

def AllFields (P : Json → Prop) : List (String × Json) → Prop
  | [] => True
  | (_, value) :: fields => All P value ∧ AllFields P fields

end

section

variable {P : Json → Prop}

/-- The mutual definitions are for recursion; from outside, all items satisfy `P`. -/
theorem allItems_iff {items : List Json} : AllItems P items ↔ ∀ item ∈ items, All P item := by
  induction items with
  | nil => simp [AllItems]
  | cons item items ih => simp [AllItems, ih]

theorem allFields_iff {fields : List (String × Json)} :
    AllFields P fields ↔ ∀ field ∈ fields, All P field.2 := by
  induction fields with
  | nil => simp [AllFields]
  | cons field fields ih =>
      obtain ⟨name, value⟩ := field
      simp only [AllFields, ih, List.forall_mem_cons]

@[simp] theorem all_null : All P null ↔ P null := by
  simp only [All]

@[simp] theorem all_bool {b : Bool} : All P (bool b) ↔ P (bool b) := by
  simp only [All]

@[simp] theorem all_int {n : Int} : All P (int n) ↔ P (int n) := by
  simp only [All]

@[simp] theorem all_text {s : String} : All P (text s) ↔ P (text s) := by
  simp only [All]

@[simp] theorem all_array {items : List Json} :
    All P (array items) ↔ ∀ item ∈ items, All P item := by
  rw [All, allItems_iff]

@[simp] theorem all_object {fields : List (String × Json)} :
    All P (object fields) ↔ ∀ field ∈ fields, All P field.2 := by
  rw [All, allFields_iff]

end

/-- The values without others that are read back as they are written. Doubles are not among them,
since `Numeral.value` rounds while it scales a significand. -/
def IsExact : Json → Prop
  | null | bool _ | text _ => True
  | int n => -(2 ^ 63) ≤ n ∧ n < 2 ^ 64
  | _ => False

@[simp] theorem isExact_text (s : String) : IsExact (text s) := trivial

/-! ## Room between tokens -/

section

variable (gap : Nat → List Char) (pad : List Char)

mutual

/-- A value with `gap` before each item and field and `pad` before each value of a field. The level
is counted for the sake of `newLine`. -/
def spread (level : Nat) : Json → List Char
  | array [] => ['[', ']']
  | array (item :: items) =>
    '[' :: (gap (level + 1) ++ (spread (level + 1) item ++ spreadItems level items))
  | object [] => ['\x7b', '\x7d']
  | object ((name, value) :: fields) =>
    '\x7b' :: (gap (level + 1) ++ (quoted name ++
      ':' :: (pad ++ (spread (level + 1) value ++ spreadFields level fields))))
  | json => scalar json

def spreadItems (level : Nat) : List Json → List Char
  | [] => gap level ++ [']']
  | item :: items =>
    ',' :: (gap (level + 1) ++ (spread (level + 1) item ++ spreadItems level items))

def spreadFields (level : Nat) : List (String × Json) → List Char
  | [] => gap level ++ ['\x7d']
  | (name, value) :: fields =>
    ',' :: (gap (level + 1) ++ (quoted name ++
      ':' :: (pad ++ (spread (level + 1) value ++ spreadFields level fields))))

end

end

mutual

/-- Nothing between tokens is one choice of room. -/
theorem compact_eq (level : Nat) (json : Json) :
    json.compact = json.spread (fun _ => []) [] level := by
  cases json with
  | array items =>
      cases items with
      | nil => simp [compact, spread]
      | cons item items =>
          simp [compact, spread, compact_eq (level + 1) item, compactItems_eq level items]
  | object fields =>
      cases fields with
      | nil => simp [compact, spread]
      | cons field fields =>
          obtain ⟨name, value⟩ := field
          simp [compact, spread, compact_eq (level + 1) value, compactFields_eq level fields]
  | _ => simp [compact, spread]

theorem compactItems_eq (level : Nat) (items : List Json) :
    compactItems items = spreadItems (fun _ => []) [] level items := by
  cases items with
  | nil => simp [compactItems, spreadItems]
  | cons item items =>
      simp [compactItems, spreadItems, compact_eq (level + 1) item, compactItems_eq level items]

theorem compactFields_eq (level : Nat) (fields : List (String × Json)) :
    compactFields fields = spreadFields (fun _ => []) [] level fields := by
  cases fields with
  | nil => simp [compactFields, spreadFields]
  | cons field fields =>
      obtain ⟨name, value⟩ := field
      simp [compactFields, spreadFields, compact_eq (level + 1) value,
        compactFields_eq level fields]

end

mutual

/-- Lines and blanks are another, `newLine` being the room for each level. -/
theorem pretty_eq (level : Nat) (json : Json) :
    json.pretty level = json.spread newLine [' '] level := by
  cases json with
  | array items =>
      cases items with
      | nil => simp [pretty, spread]
      | cons item items =>
          simp [pretty, spread, pretty_eq (level + 1) item, prettyItems_eq level items]
  | object fields =>
      cases fields with
      | nil => simp [pretty, spread]
      | cons field fields =>
          obtain ⟨name, value⟩ := field
          simp [pretty, spread, pretty_eq (level + 1) value, prettyFields_eq level fields]
  | _ => simp [pretty, spread]

theorem prettyItems_eq (level : Nat) (items : List Json) :
    prettyItems level items = spreadItems newLine [' '] level items := by
  cases items with
  | nil => simp [prettyItems, spreadItems]
  | cons item items =>
      simp [prettyItems, spreadItems, pretty_eq (level + 1) item, prettyItems_eq level items]

theorem prettyFields_eq (level : Nat) (fields : List (String × Json)) :
    prettyFields level fields = spreadFields newLine [' '] level fields := by
  cases fields with
  | nil => simp [prettyFields, spreadFields]
  | cons field fields =>
      obtain ⟨name, value⟩ := field
      simp [prettyFields, spreadFields, pretty_eq (level + 1) value, prettyFields_eq level fields]

end

/-! ## Reading -/

def IsRoom (room : List Char) : Prop :=
  ∀ c ∈ room, isBlank c = true

/-- Readers skip room, and stop at the first character that is none. -/
theorem skipBlanks_room {room : List Char} (h : IsRoom room) (cs : List Char) :
    skipBlanks (room ++ cs) = skipBlanks cs :=
  List.dropWhile_append_of_pos h

theorem skipBlanks_cons {c : Char} (h : isBlank c = false) (cs : List Char) :
    skipBlanks (c :: cs) = c :: cs := by
  simp [skipBlanks, h]

/-- Behind a number there may be room, and then a bracket or a comma. None of these go on with it.
-/
theorem ends_room {room : List Char} (h : IsRoom room) {c : Char}
    (hc : c.isDigit = false ∧ c ≠ '.' ∧ c ≠ 'e' ∧ c ≠ 'E') (rest : List Char) :
    Ends (room ++ c :: rest) := by
  cases room with
  | nil => exact ends_cons hc
  | cons blank room =>
      apply ends_cons
      have hblank := h blank List.mem_cons_self
      simp only [isBlank, Bool.or_eq_true, beq_iff_eq] at hblank
      rcases hblank with ((rfl | rfl) | rfl) | rfl <;> decide

/-- The readers of values, items and fields all begin by skipping room. -/
theorem value?_room (fuel : Nat) {room : List Char} (h : IsRoom room) (cs : List Char) :
    value? fuel (room ++ cs) = value? fuel cs := by
  cases fuel with
  | zero => rfl
  | succ fuel => simp only [value?, skipBlanks_room h]

theorem items?_room (fuel : Nat) {room : List Char} (h : IsRoom room) (cs : List Char) :
    items? fuel (room ++ cs) = items? fuel cs := by
  cases fuel with
  | zero => rfl
  | succ fuel => simp only [items?, value?_room fuel h]

theorem fields?_room (fuel : Nat) {room : List Char} (h : IsRoom room) (cs : List Char) :
    fields? fuel (room ++ cs) = fields? fuel cs := by
  cases fuel with
  | zero => rfl
  | succ fuel => simp only [fields?, skipBlanks_room h]

/-- Numbers are the last case of `value?`, so every other start has to be ruled out. -/
theorem ne_of_starts {c other : Char} (hc : c.isDigit = true ∨ c = '-')
    (hother : other.isDigit = false ∧ other ≠ '-') : c ≠ other := by
  rintro rfl
  simp [hother] at hc

theorem isBlank_of_starts {c : Char} (hc : c.isDigit = true ∨ c = '-') : isBlank c = false := by
  have hspace : c ≠ ' ' := ne_of_starts hc (by decide)
  have htab : c ≠ '\t' := ne_of_starts hc (by decide)
  have hline : c ≠ '\n' := ne_of_starts hc (by decide)
  have hreturn : c ≠ '\r' := ne_of_starts hc (by decide)
  simp [isBlank, hspace, htab, hline, hreturn]

/-- Numerals are read as their values. -/
theorem value?_numeral (fuel : Nat) {numeral : Numeral} (h : numeral.IsProper) {rest : List Char}
    (hrest : Ends rest) :
    value? (fuel + 1) (numeral.spelling ++ rest) = some (numeral.value, rest) := by
  have hread := numeral?_spelling h hrest
  obtain ⟨c, cs, hspelling, hc⟩ := Numeral.spelling_start h
  rw [hspelling, List.cons_append] at hread ⊢
  rw [value?, skipBlanks_cons (isBlank_of_starts hc)]
  split
  case h_7 => rw [hread]; rfl
  all_goals
    next heq => exact absurd (List.cons.inj heq).1 (ne_of_starts hc (by decide))

/-- What a value starts with: it is no blank and closes nothing. -/
theorem spread_start (gap : Nat → List Char) (pad : List Char) (level : Nat) {json : Json}
    (h : All IsExact json) :
    ∃ c cs, json.spread gap pad level = c :: cs ∧ isBlank c = false ∧ c ≠ ']' := by
  cases json with
  | null => exact ⟨'n', _, rfl, by decide, by decide⟩
  | bool b =>
      cases b with
      | true => exact ⟨'t', _, rfl, by decide, by decide⟩
      | false => exact ⟨'f', _, rfl, by decide, by decide⟩
  | int n =>
      obtain ⟨c, cs, hspelling, hc⟩ := Numeral.spelling_start (isProper_ofInt n)
      exact ⟨c, cs, (int_spelling n).trans hspelling, isBlank_of_starts hc,
        ne_of_starts hc (by decide)⟩
  | text s => exact ⟨'"', _, rfl, by decide, by decide⟩
  | array items => cases items <;> exact ⟨'[', _, rfl, by decide, by decide⟩
  | object fields => cases fields <;> exact ⟨'\x7b', _, rfl, by decide, by decide⟩
  | double f => exact h.elim
  | unusable => exact h.elim

/-- Names are read as strings, which may be unusable. Those that were written are not. -/
theorem ofFields_some (fields : List (String × Json)) :
    ofFields (fields.map fun field => (some field.1, field.2)) = object fields := by
  have hnames : (fields.map fun field => (some field.1, field.2)).mapM
      (fun field : Option String × Json => field.1.map (·, field.2)) = some fields := by
    induction fields with
    | nil => rfl
    | cons field fields ih => simp [ih]
  rw [ofFields]
  simp [hnames]

section

variable {gap : Nat → List Char} {pad : List Char}

/-- With so much fuel, values, items and fields are read back. The three readers call each other
with one unit less, so they share one bound: twice the length, as an item takes a step for itself
and one for its value. -/
structure Reads (gap : Nat → List Char) (pad : List Char) (fuel : Nat) : Prop where
  value : ∀ (level : Nat) (json : Json) (rest : List Char), All IsExact json → Ends rest →
    2 * (json.spread gap pad level).length ≤ fuel →
      value? fuel (json.spread gap pad level ++ rest) = some (json, rest)
  items : ∀ (level : Nat) (item : Json) (items : List Json) (rest : List Char),
    All IsExact item → AllItems IsExact items →
    2 * ((item.spread gap pad (level + 1)).length +
      (spreadItems gap pad level items).length) ≤ fuel →
      items? fuel (item.spread gap pad (level + 1) ++ (spreadItems gap pad level items ++ rest)) =
        some (item :: items, rest)
  fields : ∀ (level : Nat) (name : String) (value : Json) (fields : List (String × Json))
    (rest : List Char), All IsExact value → AllFields IsExact fields →
    2 * ((value.spread gap pad (level + 1)).length +
      (spreadFields gap pad level fields).length) ≤ fuel →
      fields? fuel (quoted name ++ ':' :: (pad ++ (value.spread gap pad (level + 1) ++
        (spreadFields gap pad level fields ++ rest)))) =
        some (((name, value) :: fields).map fun field => (some field.1, field.2), rest)

/-- No value is written as nothing, so there is nothing to read without fuel. -/
theorem reads_zero : Reads gap pad 0 where
  value := by
    intro level json rest hjson hrest hfuel
    obtain ⟨c, cs, hstart, -, -⟩ := spread_start gap pad level hjson
    simp [hstart] at hfuel
  items := by
    intro level item items rest hitem hitems hfuel
    obtain ⟨c, cs, hstart, -, -⟩ := spread_start gap pad (level + 1) hitem
    simp [hstart] at hfuel
  fields := by
    intro level name value fields rest hvalue hfields hfuel
    obtain ⟨c, cs, hstart, -, -⟩ := spread_start gap pad (level + 1) hvalue
    simp [hstart] at hfuel

variable (hgap : ∀ level, IsRoom (gap level)) (hpad : IsRoom pad)

include hgap

/-- What follows an item lets it end. -/
theorem ends_spreadItems (level : Nat) (items : List Json) (rest : List Char) :
    Ends (spreadItems gap pad level items ++ rest) := by
  cases items with
  | nil =>
      simp only [spreadItems, List.append_assoc, List.singleton_append]
      exact ends_room (hgap level) (by decide) rest
  | cons item items => exact ends_cons (by decide)

theorem ends_spreadFields (level : Nat) (fields : List (String × Json)) (rest : List Char) :
    Ends (spreadFields gap pad level fields ++ rest) := by
  cases fields with
  | nil =>
      simp only [spreadFields, List.append_assoc, List.singleton_append]
      exact ends_room (hgap level) (by decide) rest
  | cons field fields => exact ends_cons (by decide)

/-- One step for each of the three readers. A value is read from its items or fields with the fuel
that is left. -/
theorem value?_succ {fuel : Nat} (h : Reads gap pad fuel) (level : Nat) (json : Json)
    (rest : List Char) (hjson : All IsExact json) (hrest : Ends rest)
    (hfuel : 2 * (json.spread gap pad level).length ≤ fuel + 1) :
    value? (fuel + 1) (json.spread gap pad level ++ rest) = some (json, rest) := by
  -- Only arrays and objects need what is read with less fuel.
  cases json with
  | null => rfl
  | bool b => cases b <;> rfl
  | int n =>
      rw [show (int n).spread gap pad level = _ from int_spelling n,
        value?_numeral fuel (isProper_ofInt n) hrest, value_ofInt hjson.1 hjson.2]
  | text s =>
      have htext : (text s).spread gap pad level = quoted s := rfl
      rw [htext, quoted_append, value?, skipBlanks_cons (by decide)]
      simp [string?_quoted]
  | double f => exact hjson.elim
  | unusable => exact hjson.elim
  | array items =>
      cases items with
      | nil => rfl
      | cons item items =>
          obtain ⟨hitem, hitems⟩ := hjson
          obtain ⟨c, cs, hstart, hblank, hclose⟩ := spread_start gap pad (level + 1) hitem
          have hread := h.items level item items rest hitem hitems (by
            simp [spread] at hfuel
            omega)
          simp only [spread, List.cons_append, List.append_assoc] at hfuel ⊢
          rw [value?, skipBlanks_cons (by decide)]
          simp only [skipBlanks_room (hgap (level + 1)), hstart, List.cons_append,
            skipBlanks_cons hblank] at hread ⊢
          simp [hclose, hread]
  | object fields =>
      cases fields with
      | nil => rfl
      | cons field fields =>
          obtain ⟨name, value⟩ := field
          obtain ⟨hvalue, hfields⟩ := hjson
          have hread := h.fields level name value fields rest hvalue hfields (by
            simp [spread] at hfuel
            omega)
          have hquote : isBlank '"' = false := by decide
          simp only [quoted_append] at hread
          simp only [spread, List.cons_append, List.append_assoc, quoted_append] at hfuel ⊢
          rw [value?, skipBlanks_cons (by decide)]
          simp only [skipBlanks_room (hgap (level + 1)), skipBlanks_cons hquote]
          show Option.map (fun read => (ofFields read.1, read.2)) (fields? fuel _) = _
          rw [hread, Option.map_some, ofFields_some]

/-- An item is followed by another one or the bracket. -/
theorem items?_succ {fuel : Nat} (h : Reads gap pad fuel) (level : Nat) (item : Json)
    (items : List Json) (rest : List Char) (hitem : All IsExact item)
    (hitems : AllItems IsExact items)
    (hfuel : 2 * ((item.spread gap pad (level + 1)).length +
      (spreadItems gap pad level items).length) ≤ fuel + 1) :
    items? (fuel + 1)
        (item.spread gap pad (level + 1) ++ (spreadItems gap pad level items ++ rest)) =
      some (item :: items, rest) := by
  have hends : Ends (spreadItems gap pad level items ++ rest) :=
    ends_spreadItems hgap level items rest
  cases items with
  | nil =>
      have hread := h.value (level + 1) item _ hitem hends (by
        simp [spreadItems] at hfuel
        omega)
      have hclose : isBlank ']' = false := by decide
      rw [items?, hread]
      simp only [spreadItems, List.append_assoc, List.singleton_append,
        skipBlanks_room (hgap level), skipBlanks_cons hclose]
  | cons next items =>
      have hread := h.value (level + 1) item _ hitem hends (by
        simp [spreadItems] at hfuel
        omega)
      have hlater := h.items level next items rest hitems.1 hitems.2 (by
        simp [spreadItems] at hfuel
        omega)
      have hcomma : isBlank ',' = false := by decide
      rw [items?, hread]
      simp only [spreadItems, List.cons_append, List.append_assoc, skipBlanks_cons hcomma]
      show Option.map (fun read => (item :: read.1, read.2)) (items? fuel _) = _
      rw [items?_room fuel (hgap (level + 1)), hlater, Option.map_some]

include hpad

/-- So is a field, whose name is read first. -/
theorem fields?_succ {fuel : Nat} (h : Reads gap pad fuel) (level : Nat) (name : String)
    (value : Json) (fields : List (String × Json)) (rest : List Char) (hvalue : All IsExact value)
    (hfields : AllFields IsExact fields)
    (hfuel : 2 * ((value.spread gap pad (level + 1)).length +
      (spreadFields gap pad level fields).length) ≤ fuel + 1) :
    fields? (fuel + 1) (quoted name ++ ':' :: (pad ++ (value.spread gap pad (level + 1) ++
        (spreadFields gap pad level fields ++ rest)))) =
      some (((name, value) :: fields).map fun field => (some field.1, field.2), rest) := by
  have hends : Ends (spreadFields gap pad level fields ++ rest) :=
    ends_spreadFields hgap level fields rest
  have hquote : isBlank '"' = false := by decide
  have hcolon : isBlank ':' = false := by decide
  have hread := h.value (level + 1) value _ hvalue hends (by
    cases fields <;> simp [spreadFields] at hfuel <;> omega)
  rw [fields?, quoted_append, skipBlanks_cons hquote]
  simp only [string?_quoted, skipBlanks_cons hcolon]
  rw [value?_room fuel hpad, hread]
  cases fields with
  | nil =>
      have hclose : isBlank '\x7d' = false := by decide
      simp only [spreadFields, List.append_assoc, List.singleton_append,
        skipBlanks_room (hgap level), skipBlanks_cons hclose]
      rfl
  | cons field fields =>
      obtain ⟨other, next⟩ := field
      have hlater := h.fields level other next fields rest hfields.1 hfields.2 (by
        simp [spreadFields] at hfuel
        omega)
      have hcomma : isBlank ',' = false := by decide
      simp only [spreadFields, List.cons_append, List.append_assoc, skipBlanks_cons hcomma]
      show Option.map (fun read => ((some name, value) :: read.1, read.2)) (fields? fuel _) = _
      rw [fields?_room fuel (hgap (level + 1)), hlater, Option.map_some]
      rfl

/-- Reading undoes writing, with any fuel that the length of the text asks for. -/
theorem reads (fuel : Nat) : Reads gap pad fuel := by
  -- The reader recurs on its fuel, and so does the proof.
  induction fuel with
  | zero => exact reads_zero
  | succ fuel ih =>
      exact ⟨value?_succ hgap ih, items?_succ hgap ih, fields?_succ hgap hpad ih⟩

/-- A value is read back from its text, whatever room is left between the tokens. -/
theorem parse?_spread {json : Json} (h : All IsExact json) (level : Nat) :
    parse? (String.ofList (json.spread gap pad level)) = some json := by
  have hread := (reads hgap hpad _).value level json [] h ends_nil (Nat.le_add_right _ 2)
  rw [List.append_nil] at hread
  simp [parse?, hread, skipBlanks]

end

/-- A value is read back from its text without blanks. -/
theorem parse?_render {json : Json} (h : All IsExact json) : parse? json.render = some json := by
  rw [render, compact_eq 0]
  exact parse?_spread (fun _ _ hc => by cases hc) (fun _ hc => by cases hc) h 0

/-- A value is read back from its text over several lines. -/
theorem parse?_renderPretty {json : Json} (h : All IsExact json) :
    parse? json.renderPretty = some json := by
  have hline (level : Nat) : IsRoom (newLine level) := by
    intro c hc
    rcases List.mem_cons.mp hc with rfl | hc
    · decide
    · rw [List.eq_of_mem_replicate hc]
      decide
  have hspace : IsRoom [' '] := by
    intro c hc
    rw [List.mem_singleton.mp hc]
    decide
  rw [renderPretty, pretty_eq]
  exact parse?_spread hline hspace h 0

end ModelSchema.Json
