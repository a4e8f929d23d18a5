import Mathlib
import ModelSchema.Toml.Parser
import ModelSchema.Toml.Printer

/-!
# Strings and keys of TOML read back

A string is written in one of four forms, whichever fits it. The readers of all four give the string
back, and what follows it (`string?_stringText`); so does the reader of keys (`keyPart?_keyText`).

* On one line, every character is read from its own escape (`basicRest?_escape`).
* Over several lines, quotes stand for themselves as long as there are at most two in a row, and the
  reader takes a whole row of them at once. `Spelled` cuts a text into such rows and single
  characters, for both kinds of quotes (`multiRest?_spelled`).
-/

namespace ModelSchema.Toml

/-! ## Where a reader stops

Readers take what they can with `takeWhile` and leave the rest. They read back what was written if
the character behind it is one they stop at. -/

section

variable {p : Char → Bool} {body rest : List Char}

/-- The condition of `takeWhile_stops`, for a rest that starts with a known character. -/
theorem stops_cons {c : Char} (h : p c = false) (rest : List Char) :
    ∀ d, (c :: rest).head? = some d → p d = false := by
  intro d hd
  exact Option.some.inj hd ▸ h

theorem takeWhile_stops (hbody : ∀ c ∈ body, p c = true)
    (hrest : ∀ c, rest.head? = some c → p c = false) : (body ++ rest).takeWhile p = body := by
  rw [List.takeWhile_append_of_pos hbody]
  cases rest with
  | nil => simp
  | cons c rest => simp [hrest c rfl]

theorem dropWhile_stops (hbody : ∀ c ∈ body, p c = true)
    (hrest : ∀ c, rest.head? = some c → p c = false) : (body ++ rest).dropWhile p = rest := by
  rw [List.dropWhile_append_of_pos hbody]
  cases rest with
  | nil => rfl
  | cons c rest => simp [hrest c rfl]

end

/-- Characters that start neither blanks nor a comment nor a line end. In front of them,
`skipBlanks` and `lineEnd?` do nothing. -/
def IsSolid (c : Char) : Prop :=
  c ∉ [' ', '\t', '#', '\n', '\r']

instance : DecidablePred IsSolid := fun c =>
  inferInstanceAs (Decidable (c ∉ [' ', '\t', '#', '\n', '\r']))

theorem lineEnd?_eq_none {c : Char} (hline : c ≠ '\n') (hfeed : c ≠ '\r') (rest : List Char) :
    lineEnd? (c :: rest) = none := by
  simp [lineEnd?, hline, hfeed]

section

variable {c : Char} (h : IsSolid c) (rest : List Char)

include h

theorem IsSolid.skipBlanks : skipBlanks (c :: rest) = c :: rest := by
  simp only [IsSolid, List.mem_cons, not_or] at h
  simp [Toml.skipBlanks, isBlank, h.1, h.2.1]

theorem IsSolid.lineEnd? : lineEnd? (c :: rest) = none := by
  simp only [IsSolid, List.mem_cons, not_or] at h
  exact lineEnd?_eq_none h.2.2.2.1 h.2.2.2.2.1 rest

/-- A backslash joins lines only if blanks or a line end come next, so one in front of a solid
character is an escape. -/
theorem IsSolid.continuation? : continuation? (c :: rest) = none := by
  rw [Toml.continuation?, h.skipBlanks, h.lineEnd?]
  rfl

end

/-! ## Escapes -/

/-- Digits are written in upper case, and read in either. There are sixteen of them to look at. -/
theorem hexValue?_toUpper : ∀ d < 16, hexValue? (Nat.digitChar d).toUpper = some d := by
  decide

/-- Four hexadecimal digits are read as the character they were made of. `escape` only uses them for
control characters, which need no more than two. -/
theorem codePoint?_hexDigits {c : Char} (h : c.toNat < 0x10000) (rest : List Char) :
    codePoint? 4 (hexDigits c.toNat ++ rest) = some (c, rest) := by
  have hdigit (n : Nat) : hexValue? (Nat.digitChar (n % 16)).toUpper = some (n % 16) :=
    hexValue?_toUpper _ (Nat.mod_lt n (by decide))
  -- Below the bound, four digits lose nothing of the number.
  have hvalue : 16 * (16 * (16 * (16 * 0 + c.toNat / Nat.pow 16 3 % 16) +
      c.toNat / Nat.pow 16 2 % 16) + c.toNat / Nat.pow 16 1 % 16) +
        c.toNat / Nat.pow 16 0 % 16 = c.toNat := by
    simp only [Nat.pow_eq]
    omega
  simp only [codePoint?, hexDigits, List.map_cons, List.map_nil, List.cons_append, List.nil_append,
    List.take_succ_cons, List.take_zero, List.mapM_cons, List.mapM_nil, hdigit, Option.pure_def,
    Option.bind_eq_bind, Option.bind_some, List.foldl_cons, List.foldl_nil, hvalue,
    List.length_cons, List.length_nil, List.drop_succ_cons, List.drop_zero, Char.ofNat_toNat]
  rw [if_pos ⟨trivial, c.valid⟩]

/-- A character with a backslash is read back, in a string on one line or on several. -/
structure Escapes (c : Char) (tail : List Char) : Prop where
  read : ∀ rest, escaped? (tail ++ rest) = some (c, rest)
  joins : ∀ rest, continuation? (tail ++ rest) = none

/-- Escapes of one letter. The letter is solid, so no line is joined. -/
theorem escapes_letter {c letter : Char} (hsolid : IsSolid letter)
    (hread : ∀ rest, escaped? (letter :: rest) = some (c, rest)) : Escapes c [letter] :=
  ⟨hread, hsolid.continuation?⟩

/-- The printer has `isControl` and the reader has `isPlain`. Line feeds apart, each is what the
other is not. -/
theorem isPlain_of_isControl {c : Char} (h : isControl c = false) (hbreak : c ≠ '\n') :
    isPlain c = true := by
  simp only [isControl, Bool.or_eq_false_iff, Bool.and_eq_false_iff, decide_eq_false_iff_not,
    bne_eq_false_iff_eq, beq_eq_false_iff_ne] at h
  simp only [isPlain, Bool.or_eq_true, Bool.and_eq_true, beq_iff_eq, decide_eq_true_eq, bne_iff_ne]
  rcases h with ⟨(hhigh | htab) | hbreak', hdelete⟩
  · exact .inr ⟨by omega, hdelete⟩
  · exact .inl htab
  · exact absurd hbreak' hbreak

/-- Characters that stand for themselves in a string with escapes. -/
structure Plain (c : Char) : Prop where
  control : isControl c = false
  line : c ≠ '\n'
  quote : c ≠ '"'
  slash : c ≠ '\\'

/-- A character is written as it is, or with a backslash. All that the proofs below know about
`escape`. -/
theorem escape_cases (c : Char) :
    (escape c = [c] ∧ Plain c) ∨ ∃ tail, escape c = '\\' :: tail ∧ Escapes c tail := by
  unfold escape
  split
  case h_1 | h_2 | h_3 | h_4 | h_5 | h_6 | h_7 =>
    exact .inr ⟨_, rfl, escapes_letter (by decide) (fun _ => rfl)⟩
  case h_8 hbreak _ _ hquote hslash =>
    split
    · next hcontrol =>
      have hsmall : c.toNat < 0x10000 := by
        simp only [isControl, Bool.or_eq_true, Bool.and_eq_true, decide_eq_true_eq,
          beq_iff_eq] at hcontrol
        omega
      refine .inr ⟨_, rfl, fun rest => codePoint?_hexDigits hsmall rest, fun rest => ?_⟩
      exact IsSolid.continuation? (by decide) _
    · next hcontrol =>
      exact .inl ⟨rfl, Bool.eq_false_iff.mpr hcontrol, hbreak, hquote, hslash⟩

/-! ## Strings on one line -/

/-- A character is read back from the way it is written, and nothing else is read with it. -/
theorem basicRest?_escape (fuel : Nat) (buffer : List Char) (c : Char) (rest : List Char) :
    basicRest? (fuel + 1) buffer (escape c ++ rest) = basicRest? fuel (c :: buffer) rest := by
  rcases escape_cases c with ⟨hescape, hplain⟩ | ⟨tail, hescape, hescapes⟩
  · rw [hescape]
    simp [basicRest?, isPlain_of_isControl hplain.control hplain.line, hplain.quote, hplain.slash]
  · rw [hescape]
    simp [basicRest?, hescapes.read]

/-- By induction on the text, one `basicRest?_escape` for each character. What is read is kept in
reverse. -/
theorem basicRest?_flatMap (cs rest : List Char) (fuel : Nat) (buffer : List Char)
    (h : cs.length < fuel) :
    basicRest? fuel buffer (cs.flatMap escape ++ '"' :: rest) =
      some (String.ofList (buffer.reverse ++ cs), rest) := by
  induction cs generalizing fuel buffer with
  | nil =>
      obtain ⟨fuel, rfl⟩ := Nat.exists_eq_add_one_of_ne_zero (Nat.ne_zero_of_lt h)
      simp [basicRest?]
  | cons c cs ih =>
      obtain ⟨fuel, rfl⟩ := Nat.exists_eq_add_one_of_ne_zero (Nat.ne_zero_of_lt h)
      rw [List.flatMap_cons, List.append_assoc, basicRest?_escape,
        ih fuel (c :: buffer) (Nat.lt_of_succ_lt_succ h)]
      simp

theorem toList_basicText (s : String) :
    (basicText s).toList = '"' :: (s.toList.flatMap escape ++ ['"']) := by
  simp [basicText]

/-- Every character is written as something, so the text is long enough to bound the steps of its
reader. -/
theorem length_le_flatMap_escape (cs : List Char) : cs.length ≤ (cs.flatMap escape).length := by
  have hone (c : Char) : 1 ≤ (escape c).length := by
    rcases escape_cases c with ⟨hescape, -⟩ | ⟨tail, hescape, -⟩ <;> simp [hescape]
  rw [List.length_flatMap, ← List.length_map (f := fun c => (escape c).length)]
  exact List.length_le_sum_of_one_le _ (by simpa using fun c _ => hone c)

/-- Between double quotes, any string is read back. -/
theorem lineString?_basicText (s : String) (rest : List Char) :
    lineString? ((basicText s).toList ++ rest) = some (s, rest) := by
  have hlength := length_le_flatMap_escape s.toList
  rw [toList_basicText, List.cons_append, List.append_assoc]
  show basicRest? _ [] (s.toList.flatMap escape ++ '"' :: rest) = _
  rw [basicRest?_flatMap]
  · simp
  · simp only [List.length_append]
    omega

theorem toList_quoted (s : String) : ("'" ++ s ++ "'").toList = '\'' :: (s.toList ++ ['\'']) := by
  simp

/-- Between single quotes there are no escapes: a string is read back only if it needs none. -/
theorem lineString?_quoted {s : String} (h : ∀ c ∈ s.toList, isPlain c = true ∧ c ≠ '\'')
    (rest : List Char) : lineString? (("'" ++ s ++ "'").toList ++ rest) = some (s, rest) := by
  have hinner : ∀ c ∈ s.toList, (isPlain c && c != '\'') = true := by
    intro c hc
    simpa using h c hc
  rw [toList_quoted, List.cons_append, List.append_assoc]
  show literalRest? (s.toList ++ '\'' :: rest) = _
  rw [literalRest?, takeWhile_stops hinner (by simp), dropWhile_stops hinner (by simp)]
  simp

/-! ## Strings over several lines -/

/-- A character is read back from what stands for it, and starts with no quote. A line end stands
only for itself. -/
structure StandsFor (quote c first : Char) (tail : List Char) : Prop where
  start : first ≠ quote
  read : ∀ fuel buffer rest, multiRest? quote (fuel + 1) buffer (first :: (tail ++ rest)) =
    multiRest? quote fuel (c :: buffer) rest
  line : first = '\n' → c = '\n'
  feed : first ≠ '\r'

/-- Quotes and the characters between them: the rows of one or two quotes are whole rows, and every
other character has something that stands for it. -/
inductive Spelled (quote : Char) : List Char → List Char → Prop
  | nil : Spelled quote [] []
  | letter {c first : Char} {tail text spelling : List Char} (hfirst : StandsFor quote c first tail)
      (h : Spelled quote text spelling) : Spelled quote (c :: text) (first :: (tail ++ spelling))
  | quotes {count : Nat} {text spelling : List Char} (hpos : 0 < count) (hcount : count < 3)
      (hend : spelling.head? ≠ some quote) (h : Spelled quote text spelling) :
      Spelled quote (List.replicate count quote ++ text) (List.replicate count quote ++ spelling)

section

variable {quote : Char}

/-- A row of quotes ends at the first other character. -/
theorem takeWhile_quotes (count : Nat) {rest : List Char} (h : rest.head? ≠ some quote) :
    (List.replicate count quote ++ rest).takeWhile (· == quote) = List.replicate count quote :=
  takeWhile_stops (by simp +contextual) (fun c hc => by grind)

theorem dropWhile_quotes (count : Nat) {rest : List Char} (h : rest.head? ≠ some quote) :
    (List.replicate count quote ++ rest).dropWhile (· == quote) = rest :=
  dropWhile_stops (by simp +contextual) (fun c hc => by grind)

/-- One or two quotes are part of the string. -/
theorem multiRest?_quotes {count : Nat} (hcount : count < 2) {rest : List Char}
    (h : rest.head? ≠ some quote) (fuel : Nat) (buffer : List Char) :
    multiRest? quote (fuel + 1) buffer (List.replicate (count + 1) quote ++ rest) =
      multiRest? quote fuel (List.replicate (count + 1) quote ++ buffer) rest := by
  rw [List.replicate_succ, List.cons_append, multiRest?, if_pos rfl, takeWhile_quotes count h,
    dropWhile_quotes count h]
  simp only [List.length_replicate]
  rw [if_pos (by omega), List.replicate_succ]

/-- Three quotes end the string; up to two in front of them are part of it. -/
theorem multiRest?_close {count : Nat} (hcount : count < 3) {rest : List Char}
    (h : rest.head? ≠ some quote) (fuel : Nat) (buffer : List Char) :
    multiRest? quote (fuel + 1) buffer (List.replicate (count + 3) quote ++ rest) =
      some (String.ofList (buffer.reverse ++ List.replicate count quote), rest) := by
  rw [List.replicate_succ, List.cons_append, multiRest?, if_pos rfl, takeWhile_quotes _ h,
    dropWhile_quotes _ h]
  simp only [List.length_replicate]
  rw [if_neg (by omega), if_pos (by omega)]
  simp

/-- No character is spelled as nothing. -/
theorem Spelled.eq_nil {text spelling : List Char} (h : Spelled quote text spelling)
    (hempty : spelling = []) : text = [] := by
  cases h with
  | nil => rfl
  | letter => cases hempty
  | quotes hpos =>
      simp only [List.append_eq_nil_iff, List.replicate_eq_nil_iff] at hempty
      omega

/-- A spelled text is read back up to the three quotes after it. -/
theorem multiRest?_spelled {text spelling : List Char} (h : Spelled quote text spelling)
    {rest : List Char} (hrest : rest.head? ≠ some quote) {fuel : Nat}
    (hfuel : spelling.length < fuel) (buffer : List Char) :
    multiRest? quote fuel buffer (spelling ++ (List.replicate 3 quote ++ rest)) =
      some (String.ofList (buffer.reverse ++ text), rest) := by
  obtain ⟨fuel, rfl⟩ := Nat.exists_eq_add_one_of_ne_zero (Nat.ne_zero_of_lt hfuel)
  induction h generalizing fuel buffer with
  | nil => simpa using multiRest?_close (Nat.zero_lt_succ 2) hrest fuel buffer
  | @letter c first tail text spelling hfirst _ ih =>
      simp only [List.length_cons, List.length_append] at hfuel
      obtain ⟨fuel, rfl⟩ := Nat.exists_eq_add_one_of_ne_zero (show fuel ≠ 0 by omega)
      rw [List.cons_append, List.append_assoc, hfirst.read, ih (c :: buffer) fuel (by omega)]
      simp
  | @quotes count text spelling hpos hcount hend h ih =>
      obtain ⟨count, rfl⟩ := Nat.exists_eq_add_one_of_ne_zero (Nat.ne_zero_of_lt hpos)
      simp only [List.length_append, List.length_replicate] at hfuel
      obtain ⟨fuel, rfl⟩ := Nat.exists_eq_add_one_of_ne_zero (show fuel ≠ 0 by omega)
      -- The reader takes a whole row of quotes: at the end, the closing ones stand in it too.
      cases spelling with
      | nil =>
          rw [h.eq_nil rfl, List.append_nil, ← List.append_assoc, ← List.replicate_add,
            multiRest?_close (by omega) hrest]
      | cons first spelling =>
          rw [List.append_assoc, multiRest?_quotes (by omega) (by simpa using hend),
            ih _ fuel (by omega)]
          simp

/-- Quotes in front of something else. Unlike `Spelled.quotes`, this includes a row of none. -/
theorem Spelled.row {text spelling : List Char} (h : Spelled quote text spelling)
    (hend : spelling.head? ≠ some quote) {count : Nat} (hcount : count < 3) :
    Spelled quote (List.replicate count quote ++ text)
      (List.replicate count quote ++ spelling) := by
  rcases Nat.eq_zero_or_pos count with rfl | hpos
  · exact h
  · exact .quotes hpos hcount hend h

/-- A character that is no quote, backslash or control character stands for itself. -/
theorem standsFor_self {c : Char} (hquote : c ≠ quote) (hslash : c = '\\' → quote ≠ '"')
    (hcontrol : isControl c = false) : StandsFor quote c c [] := by
  have hreturn : c ≠ '\r' := by
    rintro rfl
    exact absurd hcontrol (by decide)
  have hnoslash : ¬ (c = '\\' ∧ quote = '"') := fun h => hslash h.1 h.2
  refine ⟨hquote, fun fuel buffer rest => ?_, id, hreturn⟩
  rw [multiRest?, if_neg hquote, if_neg hnoslash]
  by_cases hbreak : c = '\n'
  · -- A line feed is read as the end of a line, and any end of a line as a line feed.
    rw [hbreak]
    rfl
  · rw [lineEnd?_eq_none hbreak hreturn]
    simp [isPlain_of_isControl hcontrol hbreak]

/-- Without control characters and three quotes in a row, a text is spelled as it is. The bound is
stated with the counter of `longestRun`: `count` quotes have been seen and belong to the row. -/
theorem spelled_self (hquote : quote ≠ '"') {cs : List Char}
    (hcontrol : ∀ c ∈ cs, isControl c = false) {count : Nat} (h : longestRun quote count cs < 3) :
    Spelled quote (List.replicate count quote ++ cs) (List.replicate count quote ++ cs) := by
  induction cs generalizing count with
  | nil => exact Spelled.nil.row nofun h
  | cons c cs ih =>
      have hcs := fun d hd => hcontrol d (List.mem_cons_of_mem c hd)
      rw [longestRun] at h
      split at h
      · next heq =>
        subst heq
        simpa [List.replicate_succ'] using ih hcs h
      · next hne =>
        have hself := standsFor_self hne (fun _ => hquote) (hcontrol c List.mem_cons_self)
        have hletter := Spelled.letter hself (ih hcs (lt_of_le_of_lt (le_max_right _ _) h))
        exact hletter.row (by simpa using hne) (lt_of_le_of_lt (le_max_left _ _) h)

end

/-- A backslash and what follows it stand for the character that they stand for on one line. -/
theorem standsFor_escapes {c : Char} {tail : List Char} (h : Escapes c tail) :
    StandsFor '"' c '\\' tail :=
  ⟨by decide, fun fuel buffer rest => by simp [multiRest?, h.joins, h.read], nofun, by decide⟩

/-- A text with escapes is spelled so: a third quote in a row has a backslash. -/
theorem spelled_escapeLines (count : Nat) (cs : List Char) (h : count < 3) :
    Spelled '"' (List.replicate count '"' ++ cs)
      (List.replicate count '"' ++ escapeLines count cs) := by
  -- `count` quotes have been written and are still part of the row that is read.
  fun_induction escapeLines count cs with
  | case1 count => exact Spelled.nil.row nofun h
  | case2 count cs ih =>
      have hself : StandsFor '"' '\n' '\n' [] :=
        standsFor_self (by decide) (by decide) (by decide)
      exact (Spelled.letter hself (ih (by omega))).row (by simp) h
  | case3 count cs hcount ih =>
      simpa [List.replicate_succ'] using ih (by omega)
  | case4 count cs hcount ih =>
      have hescapes : Escapes '"' ['"'] :=
        escapes_letter (by decide) (fun _ => rfl)
      exact (Spelled.letter (standsFor_escapes hescapes) (ih (by omega))).row (by simp) h
  | case5 count c cs _ hquote ih =>
      rcases escape_cases c with ⟨hescape, hplain⟩ | ⟨tail, hescape, hescapes⟩
      · have hself := standsFor_self hquote (absurd · hplain.slash) hplain.control
        rw [hescape]
        exact (Spelled.letter hself (ih (by omega))).row (by simpa using hquote) h
      · rw [hescape]
        exact (Spelled.letter (standsFor_escapes hescapes) (ih (by omega))).row (by simp) h

/-! ## All strings and keys -/

def IsQuote (c : Char) : Prop :=
  c = '"' ∨ c = '\''

instance : DecidablePred IsQuote := fun c =>
  inferInstanceAs (Decidable (c = '"' ∨ c = '\''))

/-- What follows a string, if it starts with no quote. After three quotes, a fourth one would belong
to the string. -/
def Unquoted (rest : List Char) : Prop :=
  ∀ c, IsQuote c → rest.head? ≠ some c

theorem unquoted_cons {c : Char} (h : ¬ IsQuote c) (rest : List Char) : Unquoted (c :: rest) := by
  intro quote hquote heq
  exact h (Option.some.inj heq ▸ hquote)

/-- Three quotes open a string over several lines. -/
theorem string?_quotes {quote : Char} (hquote : IsQuote quote) (rest : List Char) :
    string? (List.replicate 3 quote ++ rest) =
      multiRest? quote (rest.length + 1) [] (dropLineEnd rest) := by
  rcases hquote with rfl | rfl <;> rfl

/-- Only a line end right behind the opening is dropped. -/
theorem dropLineEnd_of_ne {c : Char} (hbreak : c ≠ '\n') (hreturn : c ≠ '\r') (rest : List Char) :
    dropLineEnd (c :: rest) = c :: rest := by
  rw [dropLineEnd, lineEnd?_eq_none hbreak hreturn]
  rfl

/-- A string without line feeds does not start with one, however it is spelled. -/
theorem Spelled.dropLineEnd_eq {quote : Char} (hquote : IsQuote quote) {text spelling : List Char}
    (h : Spelled quote text spelling) (hline : '\n' ∉ text) (rest : List Char) :
    dropLineEnd (spelling ++ (List.replicate 3 quote ++ rest)) =
      spelling ++ (List.replicate 3 quote ++ rest) := by
  have hbreak : quote ≠ '\n' ∧ quote ≠ '\r' := by
    rcases hquote with rfl | rfl <;> decide
  cases h with
  | nil => exact dropLineEnd_of_ne hbreak.1 hbreak.2 _
  | letter hfirst _ =>
      refine dropLineEnd_of_ne (fun heq => hline ?_) hfirst.feed _
      exact hfirst.line heq ▸ List.mem_cons_self
  | @quotes count _ _ hpos _ _ _ =>
      obtain ⟨count, rfl⟩ := Nat.exists_eq_add_one_of_ne_zero (Nat.ne_zero_of_lt hpos)
      exact dropLineEnd_of_ne hbreak.1 hbreak.2 _

/-- A string between three quotes is read back. A line end behind the opening is not part of it. -/
theorem string?_opening {quote : Char} (hquote : IsQuote quote) {quotes s : String}
    (hquotes : quotes.toList = List.replicate 3 quote) {spelling : List Char}
    (h : Spelled quote s.toList spelling) {rest : List Char} (hrest : rest.head? ≠ some quote) :
    string? ((opening quotes s).toList ++ (spelling ++ (List.replicate 3 quote ++ rest))) =
      some (s, rest) := by
  rw [opening]
  split
  · rw [String.toList_append, hquotes, List.append_assoc, string?_quotes hquote]
    show multiRest? quote _ [] (spelling ++ (List.replicate 3 quote ++ rest)) = _
    rw [multiRest?_spelled h hrest]
    · simp
    · simp only [List.length_append]
      omega
  · next hline =>
    -- The spelling starts with a line end only if the string does.
    rw [hquotes, string?_quotes hquote, h.dropLineEnd_eq hquote (by simpa using hline),
      multiRest?_spelled h hrest]
    · simp
    · simp only [List.length_append]
      omega

/-- With escapes, any string can go over several lines. -/
theorem string?_basicLines (s : String) {rest : List Char} (h : rest.head? ≠ some '"') :
    string? ((basicLines s).toList ++ rest) = some (s, rest) := by
  have hspelled := spelled_escapeLines 0 s.toList (by decide)
  simpa [basicLines] using string?_opening (.inl rfl) rfl hspelled h

/-- Without escapes, three quotes in a row or a control character cannot be written. -/
theorem string?_literalLines {s : String} (hcontrol : ∀ c ∈ s.toList, isControl c = false)
    (hrun : longestRun '\'' 0 s.toList < 3) {rest : List Char} (h : rest.head? ≠ some '\'') :
    string? ((literalLines s).toList ++ rest) = some (s, rest) := by
  have hspelled := spelled_self (by decide) hcontrol hrun
  simpa [literalLines] using string?_opening (.inr rfl) rfl hspelled h

/-- A string on one line is not taken for one over several. -/
theorem string?_line {quote : Char} (hquote : IsQuote quote) {inner rest : List Char}
    (hinner : inner.head? ≠ some quote) (hrest : rest.head? ≠ some quote) :
    string? (quote :: (inner ++ quote :: rest)) =
      lineString? (quote :: (inner ++ quote :: rest)) := by
  rcases hquote with rfl | rfl <;> cases inner <;> cases rest <;> simp_all [string?]

/-- The two forms on one line again, now for `string?`, which looks for three quotes first. An empty
string starts with two, and is told from them by what follows. -/
theorem string?_basicText (s : String) {rest : List Char} (h : rest.head? ≠ some '"') :
    string? ((basicText s).toList ++ rest) = some (s, rest) := by
  have hinner : (s.toList.flatMap escape).head? ≠ some '"' := by
    cases s.toList with
    | nil => nofun
    | cons c cs =>
        rcases escape_cases c with ⟨hescape, hplain⟩ | ⟨tail, hescape, -⟩
        · simpa [hescape] using hplain.quote
        · simp [hescape]
  rw [← lineString?_basicText, toList_basicText, List.cons_append, List.append_assoc]
  exact string?_line (.inl rfl) hinner h

theorem string?_quoted {s : String} (hs : ∀ c ∈ s.toList, isPlain c = true ∧ c ≠ '\'')
    {rest : List Char} (h : rest.head? ≠ some '\'') :
    string? (("'" ++ s ++ "'").toList ++ rest) = some (s, rest) := by
  have hinner : s.toList.head? ≠ some '\'' := fun hhead =>
    (hs _ (List.mem_of_mem_head? hhead)).2 rfl
  rw [← lineString?_quoted hs]
  simpa using string?_line (.inr rfl) hinner h

/-- The counter of `longestRun` only grows. -/
theorem le_longestRun (c : Char) (run : Nat) (cs : List Char) : run ≤ longestRun c run cs := by
  induction cs generalizing run with
  | nil => exact le_rfl
  | cons d cs ih =>
      rw [longestRun]
      split
      · exact (Nat.le_succ run).trans (ih (run + 1))
      · exact le_max_left _ _

/-- A longest run of none means that the character does not occur. -/
theorem not_mem_of_longestRun {c : Char} {run : Nat} {cs : List Char}
    (h : longestRun c run cs = 0) : c ∉ cs := by
  induction cs generalizing run with
  | nil => exact List.not_mem_nil
  | cons d cs ih =>
      rw [longestRun] at h
      split at h
      · have hrun := le_longestRun c (run + 1) cs
        omega
      · next hne =>
        rw [List.mem_cons, not_or]
        exact ⟨Ne.symm hne, ih (Nat.max_eq_zero_iff.mp h).2⟩

/-- Every string is read back from the form that fits it. The cases are those of `stringText`: the
tests that choose a form are what its reader needs. -/
theorem string?_stringText (s : String) {rest : List Char} (h : Unquoted rest) :
    string? ((stringText s).toList ++ rest) = some (s, rest) := by
  have hdouble := h '"' (.inl rfl)
  have hsingle := h '\'' (.inr rfl)
  simp only [stringText]
  split_ifs with hbasic hquoted hbasicLines hliteral hlines
  · exact string?_basicText s hdouble
  · simp only [Bool.and_eq_true, Bool.not_eq_true', beq_iff_eq, List.any_eq_false,
      Bool.not_eq_true, List.contains_eq_mem, decide_eq_false_iff_not] at hquoted
    obtain ⟨⟨hcontrol, hrun⟩, hline⟩ := hquoted
    refine string?_quoted (fun c hc => ⟨?_, ?_⟩) hsingle
    · exact isPlain_of_isControl (hcontrol c hc) (fun heq => hline (heq ▸ hc))
    · exact fun heq => not_mem_of_longestRun hrun (heq ▸ hc)
  · exact string?_basicLines s hdouble
  · simp only [Bool.and_eq_true, Bool.not_eq_true', decide_eq_true_eq, List.any_eq_false,
      Bool.not_eq_true] at hliteral
    exact string?_literalLines hliteral.1 (Nat.lt_succ_of_le hliteral.2) hsingle
  · exact string?_basicLines s hdouble
  · exact string?_basicText s hdouble

/-- A quoted key is read as a string on one line is. Keys over several lines do not exist. -/
theorem keyPart?_quote {quote : Char} (hquote : IsQuote quote) (cs : List Char) :
    keyPart? (quote :: cs) = lineString? (quote :: cs) := by
  rcases hquote with rfl | rfl <;> rfl

theorem keyPart?_basicText (s : String) (rest : List Char) :
    keyPart? ((basicText s).toList ++ rest) = some (s, rest) := by
  rw [← lineString?_basicText, toList_basicText]
  exact keyPart?_quote (.inl rfl) _

theorem keyPart?_quoted {s : String} (hs : ∀ c ∈ s.toList, isPlain c = true ∧ c ≠ '\'')
    (rest : List Char) : keyPart? (("'" ++ s ++ "'").toList ++ rest) = some (s, rest) := by
  rw [← lineString?_quoted hs, toList_quoted]
  exact keyPart?_quote (.inr rfl) _

/-- A bare key ends where the first other character stands. -/
theorem keyPart?_bare {s : String} (hempty : s.toList ≠ []) (hs : ∀ c ∈ s.toList, isBare c = true)
    {rest : List Char} (h : ∀ c, rest.head? = some c → isBare c = false) :
    keyPart? (s.toList ++ rest) = some (s, rest) := by
  -- Quotes are not bare, so the key is not taken for a string.
  have hstart (quote : Char) (hquote : IsQuote quote) (cs : List Char) :
      s.toList ++ rest ≠ quote :: cs := by
    intro heq
    obtain ⟨c, inner, hc⟩ := List.exists_cons_of_ne_nil hempty
    have hbare := hs c (hc ▸ List.mem_cons_self)
    rw [hc, List.cons_append, List.cons.injEq] at heq
    rw [heq.1] at hbare
    rcases hquote with rfl | rfl <;> exact absurd hbare (by decide)
  rw [keyPart?, takeWhile_stops hs h, dropWhile_stops hs h]
  · simp [hempty]
  · exact hstart _ (.inl rfl)
  · exact hstart _ (.inr rfl)

/-- Every part of a key is read back from the form that fits it. -/
theorem keyPart?_keyText (s : String) {rest : List Char}
    (h : ∀ c, rest.head? = some c → isBare c = false) :
    keyPart? ((keyText s).toList ++ rest) = some (s, rest) := by
  simp only [keyText]
  split_ifs with hbare hbasic hquoted
  · simp only [Bool.and_eq_true, Bool.not_eq_true', List.isEmpty_eq_false_iff,
      List.all_eq_true] at hbare
    exact keyPart?_bare hbare.1 hbare.2 h
  · exact keyPart?_basicText s rest
  · simp only [Bool.and_eq_true, Bool.not_eq_true', List.any_eq_false, Bool.or_eq_true, beq_iff_eq,
      not_or, Bool.not_eq_true, List.contains_eq_mem, decide_eq_false_iff_not] at hquoted
    obtain ⟨hcontrol, hsingle⟩ := hquoted
    refine keyPart?_quoted (fun c hc => ⟨?_, fun heq => hsingle (heq ▸ hc)⟩) rest
    exact isPlain_of_isControl (hcontrol c hc).1 (hcontrol c hc).2
  · exact keyPart?_basicText s rest

end ModelSchema.Toml
