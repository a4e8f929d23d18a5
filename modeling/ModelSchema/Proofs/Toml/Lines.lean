import Mathlib
import ModelSchema.Proofs.Toml.Strings

/-!
# Lines of TOML documents read back

Keys, strings and lists of strings are read back from a line, and so are headers. A text `Writes`
lines if it puts them in front of whatever follows it; such texts can be put one after the other.
-/

namespace ModelSchema.Toml

/-! ## First characters

Readers decide by the first character what they read, so the first character of every text that is
written has to be known. -/

/-- Characters that keys start with. An opening bracket is none of them, which is how `line?` tells
pairs from headers. -/
def IsLead (c : Char) : Prop :=
  isBare c = true ∨ IsQuote c

instance : DecidablePred IsLead := fun c =>
  inferInstanceAs (Decidable (isBare c = true ∨ IsQuote c))

/-- To rule out a character, compute that no key starts with it. -/
theorem IsLead.ne {c d : Char} (h : IsLead c) (hd : ¬ IsLead d) : c ≠ d := by
  rintro rfl
  exact hd h

theorem IsLead.isSolid {c : Char} (h : IsLead c) : IsSolid c := by
  intro hc
  simp only [List.mem_cons, List.not_mem_nil, or_false] at hc
  rcases hc with rfl | rfl | rfl | rfl | rfl <;> exact absurd h (by decide)

theorem IsQuote.isLead {c : Char} (h : IsQuote c) : IsLead c :=
  .inr h

/-- A key is bare, or starts with a quote. -/
theorem keyText_start (s : String) : ∃ c cs, (keyText s).toList = c :: cs ∧ IsLead c := by
  simp only [keyText]
  split_ifs with hbare hbasic hquoted
  · simp only [Bool.and_eq_true, Bool.not_eq_true', List.isEmpty_eq_false_iff,
      List.all_eq_true] at hbare
    obtain ⟨c, cs, hc⟩ := List.exists_cons_of_ne_nil hbare.1
    exact ⟨c, cs, hc, .inl (hbare.2 c (hc ▸ List.mem_cons_self))⟩
  · exact ⟨_, _, toList_basicText s, .inr (.inl rfl)⟩
  · exact ⟨_, _, toList_quoted s, .inr (.inr rfl)⟩
  · exact ⟨_, _, toList_basicText s, .inr (.inl rfl)⟩

theorem opening_start {quote : Char} {quotes : String}
    (h : quotes.toList = List.replicate 3 quote) (s body : String) :
    ∃ cs, (opening quotes s ++ body).toList = quote :: cs := by
  rw [String.toList_append, opening]
  split
  · exact ⟨_, by rw [String.toList_append, h]; rfl⟩
  · exact ⟨_, by rw [h]; rfl⟩

/-- A string starts with a quote in all four forms. -/
theorem stringText_start (s : String) : ∃ c cs, (stringText s).toList = c :: cs ∧ IsQuote c := by
  have hbasic : ∃ c cs, (basicText s).toList = c :: cs ∧ IsQuote c :=
    ⟨_, _, toList_basicText s, .inl rfl⟩
  have hlines : ∃ c cs, (basicLines s).toList = c :: cs ∧ IsQuote c := by
    rw [basicLines, String.append_assoc]
    obtain ⟨cs, hcs⟩ := opening_start (show "\"\"\"".toList = List.replicate 3 '"' from rfl) s _
    exact ⟨_, cs, hcs, .inl rfl⟩
  have hliteral : ∃ c cs, (literalLines s).toList = c :: cs ∧ IsQuote c := by
    rw [literalLines, String.append_assoc]
    obtain ⟨cs, hcs⟩ := opening_start (show "'''".toList = List.replicate 3 '\'' from rfl) s _
    exact ⟨_, cs, hcs, .inr rfl⟩
  simp only [stringText]
  split_ifs
  · exact hbasic
  · exact ⟨_, _, toList_quoted s, .inr rfl⟩
  · exact hlines
  · exact hliteral
  · exact hlines
  · exact hbasic

/-! ## Keys -/

/-- No key starts with a blank. -/
theorem skipBlanks_keyText (s : String) (rest : List Char) :
    skipBlanks ((keyText s).toList ++ rest) = (keyText s).toList ++ rest := by
  obtain ⟨c, cs, hkey, hlead⟩ := keyText_start s
  rw [hkey]
  exact hlead.isSolid.skipBlanks _

/-- The parts of a key are read back. What follows it is neither part of a name nor a dot. `key?`
counts parts, so `fuel` is the limit on them. -/
theorem key?_pathText {path : List String} (hpath : path ≠ []) {rest : List Char}
    (hbare : ∀ c, rest.head? = some c → isBare c = false)
    (hdot : (skipBlanks rest).head? ≠ some '.') {fuel : Nat} (h : path.length ≤ fuel) :
    key? fuel ((pathText path).toList ++ rest) = some (path, skipBlanks rest) := by
  induction path generalizing fuel with
  | nil => exact absurd rfl hpath
  | cons name path ih =>
      obtain ⟨fuel, rfl⟩ := Nat.exists_eq_add_one_of_ne_zero (Nat.ne_zero_of_lt h)
      cases path with
      | nil =>
          show key? (fuel + 1) ((keyText name).toList ++ rest) = _
          rw [key?, skipBlanks_keyText, keyPart?_keyText name hbare]
          simp only
          split
          · next hrest => simp [hrest] at hdot
          · rfl
      | cons next path =>
          have htext : (pathText (name :: next :: path)).toList ++ rest =
              (keyText name).toList ++ '.' :: ((pathText (next :: path)).toList ++ rest) := by
            simp [pathText, Text.join]
          rw [htext, key?, skipBlanks_keyText, keyPart?_keyText name (stops_cons rfl _)]
          show (key? fuel ((pathText (next :: path)).toList ++ rest)).map _ = _
          rw [ih (by simp) (Nat.le_of_succ_le_succ h)]
          rfl

/-! ## Values -/

/-- `value?` leaves everything that starts with a quote to `string?`. -/
theorem value?_quote {c : Char} (h : IsQuote c) (fuel depth : Nat) (rest : List Char) :
    value? (fuel + 1) depth (c :: rest) =
      (string? (c :: rest)).map fun read => (.string read.1, read.2) := by
  rcases h with rfl | rfl <;> rfl

/-- A string is read back as a value. -/
theorem value?_stringText (s : String) {rest : List Char} (h : Unquoted rest) (fuel depth : Nat) :
    value? (fuel + 1) depth ((stringText s).toList ++ rest) = some (.string s, rest) := by
  obtain ⟨c, cs, hstart, hquote⟩ := stringText_start s
  have hread := string?_stringText s h
  rw [hstart, List.cons_append] at hread ⊢
  rw [value?_quote hquote, hread]
  rfl

/-- Nothing is skipped in front of a solid character. -/
theorem IsSolid.skipLines? {c : Char} (h : IsSolid c) (fuel : Nat) (rest : List Char) :
    skipLines? (fuel + 1) (c :: rest) = some (c :: rest) := by
  rw [Toml.skipLines?, h.skipBlanks]
  simp only [IsSolid, List.mem_cons, not_or] at h
  split <;> simp_all

theorem skipLines?_stringText (s : String) (fuel : Nat) (rest : List Char) :
    skipLines? (fuel + 1) ((stringText s).toList ++ rest) =
      some ((stringText s).toList ++ rest) := by
  obtain ⟨c, cs, hstart, hquote⟩ := stringText_start s
  rw [hstart]
  exact hquote.isLead.isSolid.skipLines? fuel _

/-- Line ends and blanks before an item are skipped, `fuel` counting the lines. -/
theorem skipLines?_blank {c : Char} (h : isBlank c = true) (fuel : Nat) (rest : List Char) :
    skipLines? fuel (c :: rest) = skipLines? fuel rest := by
  cases fuel with
  | zero => rfl
  | succ fuel => rw [skipLines?, skipLines?, skipBlanks, skipBlanks, List.dropWhile_cons_of_pos h]

theorem skipLines?_line (fuel : Nat) (rest : List Char) :
    skipLines? (fuel + 1) ('\n' :: rest) = skipLines? fuel rest :=
  rfl

def itemLine (s : String) : List Char :=
  '\n' :: ' ' :: ' ' :: ' ' :: ' ' :: ((stringText s).toList ++ [','])

section

variable {s : String} {cs rest after : List Char}
  (hskip : skipLines? (cs.length + 1) cs = some ((stringText s).toList ++ rest))
  (hend : Unquoted rest)

include hskip hend

/-- An item is read, and then its comma and the other items. -/
theorem items?_comma (hcomma : skipLines? (rest.length + 1) rest = some (',' :: after))
    (fuel depth : Nat) :
    items? (fuel + 2) depth cs =
      (items? (fuel + 1) depth after).map fun read => (.string s :: read.1, read.2) := by
  obtain ⟨c, tail, hstart, hquote⟩ := stringText_start s
  have hvalue := value?_stringText s hend fuel depth
  have hclose : c ≠ ']' := hquote.isLead.ne (by decide)
  rw [hstart, List.cons_append] at hskip hvalue
  rw [items?]
  simp [hskip, hvalue, hcomma, hclose]

/-- The last item is followed by the bracket instead. -/
theorem items?_last (hlast : skipLines? (rest.length + 1) rest = some (']' :: after))
    (fuel depth : Nat) : items? (fuel + 2) depth cs = some ([.string s], after) := by
  obtain ⟨c, tail, hstart, hquote⟩ := stringText_start s
  have hvalue := value?_stringText s hend fuel depth
  have hclose : c ≠ ']' := hquote.isLead.ne (by decide)
  rw [hstart, List.cons_append] at hskip hvalue
  rw [items?]
  simp [hskip, hvalue, hlast, hclose]

end

/-- An item on a line of its own always has a comma, the last one too. -/
theorem items?_itemLine (s : String) (fuel depth : Nat) (rest : List Char) :
    items? (fuel + 2) depth (itemLine s ++ rest) =
      (items? (fuel + 1) depth rest).map fun read => (.string s :: read.1, read.2) := by
  have hskip : skipLines? ((itemLine s ++ rest).length + 1) (itemLine s ++ rest) =
      some ((stringText s).toList ++ ',' :: rest) := by
    simp only [itemLine, List.cons_append, List.append_assoc, List.nil_append, List.length_cons,
      skipLines?_line, skipLines?_blank (show isBlank ' ' = true from rfl), skipLines?_stringText]
  refine items?_comma hskip (unquoted_cons (by decide) rest) ?_ fuel depth
  exact IsSolid.skipLines? (by decide) _ rest

/-- All items on their lines, up to the bracket. `items?` takes one unit of `fuel` for each item and
one for the value in it, hence the bound. -/
theorem items?_lines (items : List String) (rest : List Char) {fuel : Nat}
    (h : items.length + 2 ≤ fuel) (depth : Nat) :
    items? fuel depth (items.flatMap itemLine ++ '\n' :: ']' :: rest) =
      some (items.map .string, rest) := by
  induction items generalizing fuel with
  | nil =>
      obtain ⟨fuel, rfl⟩ := Nat.exists_eq_add_of_le' h
      rfl
  | cons s items ih =>
      obtain ⟨fuel, rfl⟩ := Nat.exists_eq_add_of_le' h
      rw [List.flatMap_cons, List.append_assoc, List.length_cons,
        show fuel + (items.length + 1 + 2) = (fuel + items.length + 1) + 2 by omega,
        items?_itemLine, ih (by omega)]
      rfl

/-- `itemTexts` recurses together with `Value.text`; on strings it is a map. -/
theorem itemTexts_strings (items : List String) :
    itemTexts (items.map .string) = items.map stringText := by
  induction items with
  | nil => rfl
  | cons s items ih => rw [List.map_cons, itemTexts, ih, Value.text, List.map_cons]

/-- A line feed behind each text and one before all is one before each and one at the end. -/
theorem cons_flatMap_append (c : Char) (f : String → List Char) (items : List String) :
    c :: items.flatMap (fun item => f item ++ [c]) =
      items.flatMap (fun item => c :: f item) ++ [c] := by
  induction items with
  | nil => rfl
  | cons item items ih => simp [← ih]

theorem text_nothing : (Value.array []).text = "[]" := by
  rw [Value.text, itemTexts]

theorem text_single (s : String) :
    (Value.array ([s].map .string)).text = "[" ++ stringText s ++ "]" := by
  rw [Value.text, itemTexts_strings]
  rfl

/-- Several items stand on lines of their own. -/
theorem toList_several (first second : String) (items : List String) :
    (Value.array ((first :: second :: items).map .string)).text.toList =
      '[' :: ((first :: second :: items).flatMap itemLine ++ ['\n', ']']) := by
  rw [Value.text, itemTexts_strings]
  show ("[\n" ++ String.join (((first :: second :: items).map stringText).map
    fun item => "    " ++ item ++ ",\n") ++ "]").toList = _
  generalize first :: second :: items = several
  have hshift := cons_flatMap_append '\n'
    (fun item => ' ' :: ' ' :: ' ' :: ' ' :: ((stringText item).toList ++ [','])) several
  calc
    _ = '[' :: ('\n' :: several.flatMap fun item =>
          ' ' :: ' ' :: ' ' :: ' ' :: ((stringText item).toList ++ [',']) ++ ['\n']) ++ [']'] := by
      simp [List.flatMap_map]
    _ = '[' :: (several.flatMap itemLine ++ ['\n', ']']) := by
      rw [hshift]
      show '[' :: (several.flatMap itemLine ++ ['\n'] ++ [']']) = _
      rw [List.append_assoc]
      rfl

/-- The bound of `items?_lines` is met, since every item takes up a line. -/
theorem length_le_flatMap_itemLine (items : List String) :
    items.length ≤ (items.flatMap itemLine).length := by
  induction items with
  | nil => exact le_rfl
  | cons s items ih =>
      rw [List.flatMap_cons, List.length_append, List.length_cons, itemLine, List.length_cons]
      omega

inductive IsInline : Value → Prop
  | string (s : String) : IsInline (.string s)
  | strings (items : List String) : IsInline (.array (items.map .string))

/-- Behind a key, nothing is nested yet and the limit on depth is out of reach. -/
theorem value?_array (fuel : Nat) (rest : List Char) :
    value? (fuel + 1) 0 ('[' :: rest) =
      (items? fuel 1 rest).map fun read => (.array read.1, read.2) :=
  rfl

/-- A list of strings is read back as a value. -/
theorem value?_strings (items : List String) (rest : List Char) {fuel : Nat}
    (hfuel : (Value.array (items.map .string)).text.toList.length < fuel) :
    value? fuel 0 ((Value.array (items.map .string)).text.toList ++ rest) =
      some (.array (items.map .string), rest) := by
  obtain ⟨fuel, rfl⟩ := Nat.exists_eq_add_one_of_ne_zero (Nat.ne_zero_of_lt hfuel)
  -- No item, one item behind the bracket, or several on lines of their own.
  rcases items with _ | ⟨s, _ | ⟨second, items⟩⟩
  · rw [List.map_nil, text_nothing] at hfuel ⊢
    have hlength : "[]".toList.length = 2 := rfl
    obtain ⟨fuel, rfl⟩ := Nat.exists_eq_add_one_of_ne_zero (show fuel ≠ 0 by omega)
    rfl
  · rw [text_single] at hfuel ⊢
    have htext : ("[" ++ stringText s ++ "]").toList = '[' :: ((stringText s).toList ++ [']']) := by
      simp
    rw [htext] at hfuel ⊢
    obtain ⟨c, cs, hstart, -⟩ := stringText_start s
    rw [List.length_cons, List.length_append, List.length_singleton, hstart, List.length_cons]
      at hfuel
    obtain ⟨fuel, rfl⟩ := Nat.exists_eq_add_of_le' (show 2 ≤ fuel by omega)
    rw [List.cons_append, List.append_assoc, value?_array, items?_last]
    · rfl
    · exact skipLines?_stringText s _ _
    · exact unquoted_cons (by decide) rest
    · exact IsSolid.skipLines? (by decide) _ rest
  · rw [toList_several] at hfuel ⊢
    have hlength := length_le_flatMap_itemLine (s :: second :: items)
    simp only [List.length_cons, List.length_append, List.length_nil] at hfuel hlength
    rw [List.cons_append, List.append_assoc, value?_array]
    show (items? fuel 1 ((s :: second :: items).flatMap itemLine ++ '\n' :: ']' :: rest)).map _ = _
    rw [items?_lines]
    · rfl
    · simp only [List.length_cons]
      omega

/-- Inline values start with a quote or a bracket, so no blank is skipped before them. -/
theorem IsInline.text_start {value : Value} (h : IsInline value) :
    ∃ c cs, value.text.toList = c :: cs ∧ IsSolid c := by
  cases h with
  | string s =>
      obtain ⟨c, cs, hstart, hquote⟩ := stringText_start s
      exact ⟨c, cs, by rw [Value.text, hstart], hquote.isLead.isSolid⟩
  | strings items =>
      rcases items with _ | ⟨s, _ | ⟨second, items⟩⟩
      · exact ⟨'[', _, by rw [List.map_nil, text_nothing]; rfl, by decide⟩
      · refine ⟨'[', (stringText s ++ "]").toList, ?_, by decide⟩
        rw [text_single, String.append_assoc, String.toList_append]
        rfl
      · exact ⟨'[', _, toList_several s second items, by decide⟩

/-- Inline values are read back. `line?` gives `value?` twice the length of the text, which is more
than enough. -/
theorem IsInline.value?_text {value : Value} (h : IsInline value) {rest : List Char}
    (hrest : Unquoted rest) {fuel : Nat} (hfuel : value.text.toList.length < fuel) :
    value? fuel 0 (value.text.toList ++ rest) = some (value, rest) := by
  cases h with
  | string s =>
      obtain ⟨fuel, rfl⟩ := Nat.exists_eq_add_one_of_ne_zero (Nat.ne_zero_of_lt hfuel)
      rw [Value.text]
      exact value?_stringText s hrest fuel 0
  | strings items => exact value?_strings items rest hfuel

/-! ## Lines -/

theorem finishLine?_line (rest : List Char) : finishLine? ('\n' :: rest) = some rest :=
  rfl

section

variable {cs rest after : List Char} {key : List String}

/-- The three kinds of lines, from what their parts are read as. -/
theorem line?_of_key {value : Value} {read : List Char} (hstart : cs.head? ≠ some '[')
    (hkey : dottedKey? cs = some (key, '=' :: rest))
    (hvalue : value? (2 * (skipBlanks rest).length + 2) 0 (skipBlanks rest) = some (value, read))
    (hend : finishLine? read = some after) : line? cs = some (.pair key value, after) := by
  rw [line?]
  · simp [hkey, hvalue, hend]
  · rintro tail rfl
    exact hstart rfl
  · rintro tail rfl
    exact hstart rfl

theorem line?_of_header (hstart : cs.head? ≠ some '[')
    (hkey : dottedKey? cs = some (key, ']' :: rest)) (hend : finishLine? rest = some after) :
    line? ('[' :: cs) = some (.header key, after) := by
  rw [line?]
  · simp [hkey, hend]
  · rintro tail heq
    cases heq
    exact hstart rfl

theorem line?_of_arrayHeader (hkey : dottedKey? cs = some (key, ']' :: ']' :: rest))
    (hend : finishLine? rest = some after) :
    line? ('[' :: '[' :: cs) = some (.arrayHeader key, after) := by
  rw [line?]
  simp [hkey, hend]

end

/-- A path starts as its first name does. -/
theorem pathText_start {path : List String} (h : path ≠ []) :
    ∃ c cs, (pathText path).toList = c :: cs ∧ IsLead c := by
  obtain ⟨name, path, rfl⟩ := List.exists_cons_of_ne_nil h
  obtain ⟨c, cs, hkey, hlead⟩ := keyText_start name
  cases path with
  | nil => exact ⟨c, cs, hkey, hlead⟩
  | cons next path =>
      refine ⟨c, cs ++ '.' :: (pathText (next :: path)).toList, ?_, hlead⟩
      simp [pathText, Text.join, hkey]

/-- So a pair is not taken for a header, and a header of a table not for that of several. -/
theorem head?_pathText_ne {path : List String} (h : path ≠ []) (rest : List Char) :
    ((pathText path).toList ++ rest).head? ≠ some '[' := by
  obtain ⟨c, cs, hstart, hlead⟩ := pathText_start h
  have hbracket : c ≠ '[' := hlead.ne (by decide)
  simp [hstart, hbracket]

/-- A plain value is read back from its line. -/
theorem line?_pair {value : Value} (h : IsInline value) (name : String) (rest : List Char) :
    line? ((keyText name ++ " = " ++ value.text ++ "\n").toList ++ rest) =
      some (.pair [name] value, rest) := by
  have htext : (keyText name ++ " = " ++ value.text ++ "\n").toList ++ rest =
      (pathText [name]).toList ++ ' ' :: '=' :: ' ' :: (value.text.toList ++ '\n' :: rest) := by
    simp [pathText, Text.join]
  have hpath : [name] ≠ [] := List.cons_ne_nil name []
  have hkey : dottedKey? ((pathText [name]).toList ++
      ' ' :: '=' :: ' ' :: (value.text.toList ++ '\n' :: rest)) =
        some ([name], '=' :: ' ' :: (value.text.toList ++ '\n' :: rest)) :=
    key?_pathText hpath (stops_cons rfl _) (by show some '=' ≠ some '.'; decide)
      (by show 1 ≤ depthLimit - 1; decide)
  have hblanks : skipBlanks (' ' :: (value.text.toList ++ '\n' :: rest)) =
      value.text.toList ++ '\n' :: rest := by
    obtain ⟨c, cs, hstart, hsolid⟩ := h.text_start
    rw [hstart]
    exact hsolid.skipBlanks _
  rw [htext]
  refine line?_of_key (head?_pathText_ne hpath _) hkey ?_ (finishLine?_line rest)
  rw [hblanks]
  apply h.value?_text (unquoted_cons (by decide) rest)
  rw [List.length_append]
  omega

section

variable {path : List String} (hpath : path ≠ []) (h : path.length < depthLimit)

include hpath h

/-- A path in a header is read up to the bracket, if it has no more parts than `depthLimit` admits.
-/
theorem dottedKey?_header (rest : List Char) :
    dottedKey? ((pathText path).toList ++ ']' :: rest) = some (path, ']' :: rest) :=
  key?_pathText hpath (stops_cons rfl _) (by show some ']' ≠ some '.'; decide)
    (Nat.le_pred_of_lt h)

/-- A header is read back from its line. -/
theorem line?_header (rest : List Char) :
    line? (("[" ++ pathText path ++ "]\n").toList ++ rest) = some (.header path, rest) := by
  have htext : ("[" ++ pathText path ++ "]\n").toList ++ rest =
      '[' :: ((pathText path).toList ++ ']' :: '\n' :: rest) := by simp
  rw [htext]
  exact line?_of_header (head?_pathText_ne hpath _) (dottedKey?_header hpath h _) rfl

theorem line?_arrayHeader (rest : List Char) :
    line? (("[[" ++ pathText path ++ "]]\n").toList ++ rest) = some (.arrayHeader path, rest) := by
  have htext : ("[[" ++ pathText path ++ "]]\n").toList ++ rest =
      '[' :: '[' :: ((pathText path).toList ++ ']' :: ']' :: '\n' :: rest) := by simp
  rw [htext]
  exact line?_of_arrayHeader (dottedKey?_header hpath h _) rfl

end

/-! ## Texts that write lines -/

/-- These are the lines of a text, for every bound above its length. The bound of `lines?` is left
open so that the text can be put behind another one. -/
def Reads (cs : List Char) (lines : List Line) : Prop :=
  ∀ fuel, cs.length < fuel → lines? fuel cs = some lines

theorem reads_nil : Reads [] [] := by
  intro fuel hfuel
  obtain ⟨fuel, rfl⟩ := Nat.exists_eq_add_one_of_ne_zero (Nat.ne_zero_of_lt hfuel)
  rfl

/-- An empty line is skipped. -/
theorem Reads.skip {cs : List Char} {lines : List Line} (h : Reads cs lines) :
    Reads ('\n' :: cs) lines := by
  intro fuel hfuel
  obtain ⟨fuel, rfl⟩ := Nat.exists_eq_add_one_of_ne_zero (Nat.ne_zero_of_lt hfuel)
  exact h fuel (Nat.lt_of_succ_lt_succ hfuel)

/-- A text that writes lines, in front of whatever follows it. -/
def Writes (text : String) (lines : List Line) : Prop :=
  ∀ cs rest, Reads cs rest → Reads (text.toList ++ cs) (lines ++ rest)

theorem writes_nothing : Writes "" [] := by
  intro cs rest h
  exact h

theorem writes_skip : Writes "\n" [] := by
  intro cs rest h
  exact h.skip

/-- Texts one after the other write their lines one after the other. With `writes_skip` and
`writes_line`, this covers whole documents. -/
theorem Writes.append {text other : String} {lines more : List Line} (h : Writes text lines)
    (hmore : Writes other more) : Writes (text ++ other) (lines ++ more) := by
  intro cs rest hrest
  rw [String.toList_append, List.append_assoc, List.append_assoc]
  exact h _ _ (hmore cs rest hrest)

/-- A text that is read as one line writes it. -/
theorem writes_line {text : String} {line : Line} {c : Char} {cs : List Char}
    (htext : text.toList = c :: cs) (hsolid : IsSolid c)
    (h : ∀ rest, line? (text.toList ++ rest) = some (line, rest)) : Writes text [line] := by
  intro after rest hrest fuel hfuel
  obtain ⟨fuel, rfl⟩ := Nat.exists_eq_add_one_of_ne_zero (Nat.ne_zero_of_lt hfuel)
  have hline := h after
  rw [htext, List.cons_append] at hline hfuel ⊢
  have hafter : lines? fuel after = some rest := by
    apply hrest
    simp only [List.length_cons, List.length_append] at hfuel
    omega
  -- The first character keeps the line from being skipped.
  have hcomment : c ≠ '#' := by
    rintro rfl
    exact absurd hsolid (by decide)
  rw [lines?, hsolid.skipBlanks]
  simp [hcomment, hsolid.lineEnd?, hline, hafter]

/-- The three kinds of lines write themselves. -/
theorem writes_pair {value : Value} (h : IsInline value) (name : String) :
    Writes (keyText name ++ " = " ++ value.text ++ "\n") [.pair [name] value] := by
  obtain ⟨c, cs, hkey, hlead⟩ := keyText_start name
  have htext : (keyText name ++ " = " ++ value.text ++ "\n").toList =
      c :: (cs ++ (" = " ++ value.text ++ "\n").toList) := by
    simp [hkey]
  exact writes_line htext hlead.isSolid (line?_pair h name)

section

variable {path : List String} (hpath : path ≠ []) (h : path.length < depthLimit)

include hpath h

theorem writes_header : Writes ("[" ++ pathText path ++ "]\n") [.header path] := by
  have htext : ("[" ++ pathText path ++ "]\n").toList =
      '[' :: ((pathText path).toList ++ "]\n".toList) := by
    simp
  exact writes_line htext (by decide) (line?_header hpath h)

theorem writes_arrayHeader : Writes ("[[" ++ pathText path ++ "]]\n") [.arrayHeader path] := by
  have htext : ("[[" ++ pathText path ++ "]]\n").toList =
      '[' :: ('[' :: ((pathText path).toList ++ "]]\n".toList)) := by
    simp
  exact writes_line htext (by decide) (line?_arrayHeader hpath h)

end

/-! ## Texts with an empty line between them -/

/-- Texts that write lines together. -/
inductive WritesAll : List String → List Line → Prop
  | nil : WritesAll [] []
  | cons {text : String} {texts : List String} {lines more : List Line} (h : Writes text lines)
      (hmore : WritesAll texts more) : WritesAll (text :: texts) (lines ++ more)

theorem Writes.all {text : String} {lines : List Line} (h : Writes text lines) :
    WritesAll [text] lines := by
  simpa using WritesAll.cons h .nil

theorem WritesAll.append {texts others : List String} {lines more : List Line}
    (h : WritesAll texts lines) (hmore : WritesAll others more) :
    WritesAll (texts ++ others) (lines ++ more) := by
  induction h with
  | nil => exact hmore
  | cons htext _ ih =>
      rw [List.append_assoc]
      exact .cons htext ih

/-- An empty line between texts adds nothing. -/
theorem WritesAll.join {texts : List String} {lines : List Line} (h : WritesAll texts lines) :
    Writes (Text.join "\n" texts) lines := by
  induction h with
  | nil => exact writes_nothing
  | @cons text texts lines more htext hmore ih =>
      cases texts with
      | nil =>
          cases hmore
          rw [List.append_nil]
          exact htext
      | cons next texts =>
          have hjoined := (htext.append writes_skip).append ih
          rw [List.append_nil] at hjoined
          exact hjoined

end ModelSchema.Toml
