import ModelSchema.Proofs.Json.Doubles
import ModelSchema.Proofs.Json.RoundTrip

/-!
# JSON texts identify values

Two values are written in the same way only if they are equal (`eq_of_render`). The first character
tells what kind of value is written, numbers can be told from their numerals and strings from their
escapes, and no value is written as the start of another one that goes on (`compact_inj`). Doubles
that are no numbers are left out: they are written as `null` is.
-/

namespace ModelSchema.Json

/-- The values without others that no other value is written as. Doubles that are not finite and
`unusable` are out: both are written as `null`. -/
def IsDistinct : Json → Prop
  | double f => f.isFinite = true
  | unusable => False
  | _ => True

@[simp] theorem isDistinct_text (s : String) : IsDistinct (text s) := trivial

/-! ## Numbers -/

/-- A numeral is what a number is written as. -/
def Numeral.IsOf (numeral : Numeral) : Json → Prop
  | int n => numeral = Numeral.ofInt n
  | double f => numeral.Writes f
  | _ => False

/-- What is written is a numeral that can be read. -/
theorem Numeral.IsOf.proper {numeral : Numeral} {json : Json} (h : numeral.IsOf json) :
    numeral.IsProper := by
  cases json with
  | int n => exact h ▸ isProper_ofInt n
  | double f => exact Numeral.Writes.proper h
  | _ => exact h.elim

/-- By reading: the digits of a number have its value, `digitsValue_toDigits`. -/
theorem ofInt_injective {n m : Int} (h : Numeral.ofInt n = Numeral.ofInt m) : n = m := by
  simp only [Numeral.ofInt, Numeral.mk.injEq, decide_eq_decide] at h
  have hdigits := congrArg digitsValue h.2.1
  rw [digitsValue_toDigits, digitsValue_toDigits] at hdigits
  omega

/-- A numeral is that of one number only: no double is written as a whole number. -/
theorem Numeral.IsOf.unique {numeral : Numeral} {json other : Json} (h : numeral.IsOf json)
    (hother : numeral.IsOf other) : json = other := by
  cases json with
  | int n =>
      cases h
      cases other with
      | int m => rw [ofInt_injective hother]
      | double g => exact absurd (Numeral.Writes.marked hother) (by simp [Numeral.ofInt])
      | _ => exact hother.elim
  | double f =>
      cases other with
      | int m =>
          cases hother
          exact absurd (Numeral.Writes.marked h) (by simp [Numeral.ofInt])
      | double g => rw [Numeral.Writes.unique h hother]
      | _ => exact hother.elim
  | _ => exact h.elim

/-! ## Kinds -/

/-- The kinds of values that the first character tells apart. -/
inductive Shape where
  | null
  | truth
  | number
  | text
  | array
  | object
deriving DecidableEq

def shape : Json → Shape
  | bool _ => .truth
  | int _ | double _ => .number
  | text _ => .text
  | array _ => .array
  | object _ => .object
  | null | unusable => .null

def Shape.ofStart (c : Char) : Shape :=
  if c = 'n' then .null
  else if c = 't' ∨ c = 'f' then .truth
  else if c = '"' then .text
  else if c = '[' then .array
  else if c = '\x7b' then .object
  else .number

/-- Numbers start with a digit or a sign, and nothing else does. -/
theorem ofStart_number {c : Char} (h : c.isDigit = true ∨ c = '-') :
    Shape.ofStart c = .number := by
  have hne {other : Char} (hother : other.isDigit = false ∧ other ≠ '-') : c ≠ other :=
    ne_of_starts h hother
  simp [Shape.ofStart, hne]

/-- Whole numbers and doubles have one theory from here on, that of their numerals. -/
theorem exists_numeral {json : Json} (hdistinct : json.All IsDistinct)
    (h : json.shape = .number) :
    ∃ numeral : Numeral, numeral.IsOf json ∧ json.compact = numeral.spelling := by
  cases json with
  | int n => exact ⟨.ofInt n, rfl, by rw [← int_spelling]; simp [compact]⟩
  | double f =>
      obtain ⟨numeral, hwrites, htext⟩ := exists_writes (All.eq_def IsDistinct _ ▸ hdistinct)
      exact ⟨numeral, hwrites, by rw [← htext]; simp [compact]⟩
  | _ => cases h

/-- The two cases of `compact_start` that take more than a look. -/
theorem start_of_number {json : Json} (hdistinct : json.All IsDistinct)
    (h : json.shape = .number) :
    ∃ c cs, json.compact = c :: cs ∧ c ≠ ']' ∧ Shape.ofStart c = json.shape := by
  obtain ⟨numeral, hof, htext⟩ := exists_numeral hdistinct h
  obtain ⟨c, cs, hspelling, hc⟩ := Numeral.spelling_start hof.proper
  exact ⟨c, cs, htext.trans hspelling, ne_of_starts hc (by decide),
    (ofStart_number hc).trans h.symm⟩

theorem not_distinct_unusable : ¬ unusable.All IsDistinct := by
  simp [All, IsDistinct]

/-- The first character tells the kind, and closes no list. -/
theorem compact_start {json : Json} (hdistinct : json.All IsDistinct) :
    ∃ c cs, json.compact = c :: cs ∧ c ≠ ']' ∧ Shape.ofStart c = json.shape := by
  cases json with
  | null => exact ⟨'n', "ull".toList, by simp [compact, scalar], by decide, rfl⟩
  | bool b =>
      cases b with
      | true => exact ⟨'t', "rue".toList, by simp [compact, scalar], by decide, rfl⟩
      | false => exact ⟨'f', "alse".toList, by simp [compact, scalar], by decide, rfl⟩
  | int n => exact start_of_number hdistinct rfl
  | double f => exact start_of_number hdistinct rfl
  | text s => exact ⟨'"', _, by simp only [compact, scalar, quoted]; rfl, by decide, rfl⟩
  | array items =>
      cases items with
      | nil => exact ⟨'[', [']'], by rw [compact], by decide, rfl⟩
      | cons item items => exact ⟨'[', _, by rw [compact], by decide, rfl⟩
  | object fields =>
      cases fields with
      | nil => exact ⟨'\x7b', ['\x7d'], by rw [compact], by decide, rfl⟩
      | cons field fields => exact ⟨'\x7b', _, by rw [compact], by decide, rfl⟩
  | unusable => exact (not_distinct_unusable hdistinct).elim

/-- Values that are written alike are of one kind, whatever follows them. This leaves one
constructor to compare in `compact_inj`. -/
theorem shape_eq {json other : Json} (hjson : json.All IsDistinct) (hother : other.All IsDistinct)
    {rest last : List Char} (h : json.compact ++ rest = other.compact ++ last) :
    json.shape = other.shape := by
  obtain ⟨c, cs, hc, -, hshape⟩ := compact_start hjson
  obtain ⟨d, ds, hd, -, hshape'⟩ := compact_start hother
  rw [hc, hd] at h
  rw [← hshape, ← hshape', (List.cons.inj h).1]

/-! ## Texts -/

/-- By reading: `string?` gives both the string and what follows. -/
theorem quoted_inj {s t : String} {rest last : List Char}
    (h : quoted s ++ rest = quoted t ++ last) : s = t ∧ rest = last := by
  rw [quoted_append, quoted_append] at h
  have hread := string?_quoted s rest
  rw [(List.cons.inj h).2, string?_quoted t last] at hread
  cases hread
  exact ⟨rfl, rfl⟩

/-- A numeral ends where a character follows that cannot go on with it, so `Ends` is needed for what
follows here and nowhere else. -/
theorem number_inj {json other : Json} (hjson : json.All IsDistinct) (hother : other.All IsDistinct)
    (hnumber : json.shape = .number) (hsame : other.shape = .number) {rest last : List Char}
    (hrest : Ends rest) (hlast : Ends last)
    (h : json.compact ++ rest = other.compact ++ last) : json = other ∧ rest = last := by
  obtain ⟨numeral, hof, htext⟩ := exists_numeral hjson hnumber
  obtain ⟨numeral', hof', htext'⟩ := exists_numeral hother hsame
  rw [htext, htext'] at h
  obtain ⟨rfl, hrests⟩ := Numeral.spelling_inj hof.proper hof'.proper hrest hlast h
  exact ⟨hof.unique hof', hrests⟩

/-- Behind an item there is a comma or a bracket. -/
theorem ends_compactItems (items : List Json) (rest : List Char) :
    Ends (compactItems items ++ rest) := by
  cases items with
  | nil => exact ends_cons (by decide)
  | cons item items => exact ends_cons (by decide)

theorem ends_compactFields (fields : List (String × Json)) (rest : List Char) :
    Ends (compactFields fields ++ rest) := by
  cases fields with
  | nil => exact ends_cons (by decide)
  | cons field fields => exact ends_cons (by decide)

/-- An empty list is told from others by its second character. -/
theorem compact_ne_close {json : Json} (hdistinct : json.All IsDistinct) (rest last : List Char) :
    json.compact ++ rest ≠ ']' :: last := by
  obtain ⟨c, cs, hc, hne, -⟩ := compact_start hdistinct
  rw [hc]
  intro h
  exact hne (List.cons.inj h).1

/-- The first item of a list is told apart as the later ones are, so `compactItems_inj` covers whole
lists. -/
theorem compactItems_of_array {items others : List Json} (hitems : AllItems IsDistinct items)
    (hothers : AllItems IsDistinct others) {rest last : List Char}
    (h : (array items).compact ++ rest = (array others).compact ++ last) :
    compactItems items ++ rest = compactItems others ++ last := by
  cases items with
  | nil =>
      cases others with
      | nil => simpa [compact, compactItems] using h
      | cons other others =>
          simp only [compact, List.cons_append, List.append_assoc, List.cons.injEq, true_and] at h
          exact absurd h.symm (compact_ne_close hothers.1 _ _)
  | cons item items =>
      cases others with
      | nil =>
          simp only [compact, List.cons_append, List.append_assoc, List.cons.injEq, true_and] at h
          exact absurd h (compact_ne_close hitems.1 _ _)
      | cons other others => simpa [compact, compactItems] using h

theorem compactFields_of_object {fields others : List (String × Json)} {rest last : List Char}
    (h : (object fields).compact ++ rest = (object others).compact ++ last) :
    compactFields fields ++ rest = compactFields others ++ last := by
  cases fields with
  | nil =>
      cases others with
      | nil => simpa [compact, compactFields] using h
      | cons other others => simp [compact, quoted] at h
  | cons field fields =>
      cases others with
      | nil => simp [compact, quoted] at h
      | cons other others => simpa [compact, compactFields] using h

mutual

/-- A value can be told from a text that starts with it, and so can what follows. -/
theorem compact_inj (json other : Json) (hjson : json.All IsDistinct)
    (hother : other.All IsDistinct) {rest last : List Char} (hrest : Ends rest) (hlast : Ends last)
    (h : json.compact ++ rest = other.compact ++ last) : json = other ∧ rest = last := by
  -- Of all pairs of constructors, only equal ones are left.
  have hshape := shape_eq hjson hother h
  cases json with
  | null =>
      cases other with
      | null => exact ⟨rfl, List.append_cancel_left h⟩
      | unusable => exact (not_distinct_unusable hother).elim
      | _ => cases hshape
  | bool b =>
      cases other with
      | bool b' =>
          simp only [compact] at h
          cases b <;> cases b' <;> simp_all [scalar]
      | _ => cases hshape
  | int n => exact number_inj hjson hother rfl hshape.symm hrest hlast h
  | double f => exact number_inj hjson hother rfl hshape.symm hrest hlast h
  | text s =>
      cases other with
      | text t =>
          simp only [compact, scalar] at h
          obtain ⟨rfl, hrests⟩ := quoted_inj h
          exact ⟨rfl, hrests⟩
      | _ => cases hshape
  | array items =>
      cases other with
      | array others =>
          rw [All] at hjson hother
          obtain ⟨rfl, hrests⟩ := compactItems_inj items others hjson hother
            (compactItems_of_array hjson hother h)
          exact ⟨rfl, hrests⟩
      | _ => cases hshape
  | object fields =>
      cases other with
      | object others =>
          rw [All] at hjson hother
          obtain ⟨rfl, hrests⟩ := compactFields_inj fields others hjson hother
            (compactFields_of_object h)
          exact ⟨rfl, hrests⟩
      | _ => cases hshape
  | unusable => exact (not_distinct_unusable hjson).elim

/-- Item by item: a comma goes on and a bracket ends the list. -/
theorem compactItems_inj (items others : List Json) (hitems : AllItems IsDistinct items)
    (hothers : AllItems IsDistinct others) {rest last : List Char}
    (h : compactItems items ++ rest = compactItems others ++ last) :
    items = others ∧ rest = last := by
  cases items with
  | nil =>
      cases others with
      | nil => exact ⟨rfl, List.append_cancel_left h⟩
      | cons other others => simp [compactItems] at h
  | cons item items =>
      cases others with
      | nil => simp [compactItems] at h
      | cons other others =>
          simp only [compactItems, List.cons_append, List.append_assoc, List.cons.injEq,
            true_and] at h
          obtain ⟨rfl, hnext⟩ := compact_inj item other hitems.1 hothers.1
            (ends_compactItems items rest) (ends_compactItems others last) h
          obtain ⟨rfl, hrests⟩ := compactItems_inj items others hitems.2 hothers.2 hnext
          exact ⟨rfl, hrests⟩

theorem compactFields_inj (fields others : List (String × Json))
    (hfields : AllFields IsDistinct fields) (hothers : AllFields IsDistinct others)
    {rest last : List Char} (h : compactFields fields ++ rest = compactFields others ++ last) :
    fields = others ∧ rest = last := by
  cases fields with
  | nil =>
      cases others with
      | nil => exact ⟨rfl, List.append_cancel_left h⟩
      | cons other others => simp [compactFields] at h
  | cons field fields =>
      cases others with
      | nil => simp [compactFields] at h
      | cons other others =>
          obtain ⟨name, value⟩ := field
          obtain ⟨name', value'⟩ := other
          simp only [compactFields, List.cons_append, List.append_assoc, List.cons.injEq,
            true_and] at h
          obtain ⟨rfl, hvalue⟩ := quoted_inj h
          obtain ⟨rfl, hnext⟩ := compact_inj value value' hfields.1 hothers.1
            (ends_compactFields fields rest) (ends_compactFields others last)
            (List.cons.inj hvalue).2
          obtain ⟨rfl, hrests⟩ := compactFields_inj fields others hfields.2 hothers.2 hnext
          exact ⟨rfl, hrests⟩

end

/-- Values with one text are equal. So `render` can stand for a value wherever texts are compared.
-/
theorem eq_of_render {json other : Json} (hjson : json.All IsDistinct)
    (hother : other.All IsDistinct) (h : json.render = other.render) : json = other := by
  have htext : json.compact = other.compact := String.ofList_injective h
  exact (compact_inj json other hjson hother ends_nil ends_nil (by rw [htext])).1

end ModelSchema.Json
