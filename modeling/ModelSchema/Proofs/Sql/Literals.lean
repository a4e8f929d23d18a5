import ModelSchema.Proofs.Sql.Spelling

/-!
# Texts in statements

A text in a statement stands between quotes, and a quote inside it is written twice. `readText?`
reads such a text from the front of a statement, and `texts` reads all texts of a statement and
passes over what stands between them.

* What a value is written as reads back as the value, whatever follows but another quote, and
  nothing else reads back so (`closing?_eq_some_iff`).
* A part of a statement `Reads` as some texts if they are what a reader finds there, whatever
  follows. Parts that do are put together by `Reads.append`, so a row reads as the texts of its
  values (`reads_rowText`).
-/

namespace ModelSchema.Sql

/-! ## Reading a text -/

/-- A text up to the quote that ends it, and what follows. Two quotes are one quote of the text, so
a single one ends it. -/
def closing? : List Char → Option (List Char × List Char)
  | [] => none
  | '\'' :: '\'' :: rest => (closing? rest).map fun read => ('\'' :: read.1, read.2)
  | '\'' :: rest => some ([], rest)
  | c :: rest => (closing? rest).map fun read => (c :: read.1, read.2)

/-- The text between quotes that a statement begins with, and what follows. -/
def readText? (s : String) : Option (String × String) :=
  match s.toList with
  | '\'' :: rest =>
    (closing? rest).map fun read => (String.ofList read.1, String.ofList read.2)
  | _ => none

def doubled (s : List Char) : List Char :=
  s.flatMap fun c => if c = '\'' then ['\'', '\''] else [c]

theorem doubled_cons_of_ne {c : Char} (h : c ≠ '\'') (s : List Char) :
    doubled (c :: s) = c :: doubled s := by
  simp [doubled, h]

theorem doubled_quote (s : List Char) : doubled ('\'' :: s) = '\'' :: '\'' :: doubled s := by
  simp [doubled]

/-- `quotedText` replaces quotes by two; on characters this is `doubled`. -/
theorem toList_quotedText (s : String) :
    (quotedText s).toList = '\'' :: (doubled s.toList ++ ['\'']) := by
  simp [quotedText, doubled]

/-- What is doubled is read through, and does not end the text. -/
theorem closing?_doubled_append (s rest : List Char) :
    closing? (doubled s ++ rest) =
      (closing? rest).map fun read => (s ++ read.1, read.2) := by
  induction s with
  | nil => simp [doubled]
  | cons c s ih =>
      by_cases hc : c = '\''
      · subst hc
        rw [doubled_quote, List.cons_append, List.cons_append, closing?, ih, Option.map_map]
        rfl
      · rw [doubled_cons_of_ne hc, List.cons_append, closing?, ih, Option.map_map]
        · rfl
        · rintro rest rfl
          exact absurd rfl hc
        · rintro rfl
          exact absurd rfl hc

/-- A quote ends a text unless another one follows. -/
theorem closing?_quote {rest : List Char} (h : rest.head? ≠ some '\'') :
    closing? ('\'' :: rest) = some ([], rest) := by
  rw [closing?]
  rintro later rfl
  exact h rfl

/-- A text is read from the one way to write it, and only where the quote that ends it is not
followed by another one. -/
theorem closing?_eq_some_iff {t s rest : List Char} :
    closing? t = some (s, rest) ↔ t = doubled s ++ '\'' :: rest ∧ rest.head? ≠ some '\'' := by
  constructor
  · intro h
    fun_induction closing? t generalizing s with
    | case1 => cases h
    | case2 later ih =>
        obtain ⟨⟨read, after⟩, hread, heq⟩ := Option.map_eq_some_iff.mp h
        cases heq
        obtain ⟨rfl, hrest⟩ := ih hread
        exact ⟨by rw [doubled_quote, List.cons_append, List.cons_append], hrest⟩
    | case3 later hlone =>
        cases h
        refine ⟨rfl, fun hhead => ?_⟩
        obtain ⟨tail, rfl⟩ := List.head?_eq_some_iff.mp hhead
        exact hlone tail rfl
    | case4 c later _ hc ih =>
        obtain ⟨⟨read, after⟩, hread, heq⟩ := Option.map_eq_some_iff.mp h
        cases heq
        obtain ⟨rfl, hrest⟩ := ih hread
        exact ⟨by rw [doubled_cons_of_ne hc, List.cons_append], hrest⟩
  · rintro ⟨rfl, hrest⟩
    rw [closing?_doubled_append, closing?_quote hrest]
    simp

/-- `readText?` inverts `literal` on texts. The condition on what follows cannot be left out: a
further quote would be part of the text. -/
theorem readText?_eq_some_iff {t s rest : String} :
    readText? t = some (s, rest) ↔
      t = literal (.text s) ++ rest ∧ rest.toList.head? ≠ some '\'' := by
  rw [← String.toList_inj, String.toList_append, literal, toList_quotedText, List.cons_append,
    List.append_assoc, List.singleton_append, readText?]
  split
  · next later ht =>
    rw [ht, List.cons.injEq, Option.map_eq_some_iff]
    constructor
    · rintro ⟨⟨read, after⟩, hread, heq⟩
      cases heq
      simpa using closing?_eq_some_iff.mp hread
    · rintro ⟨⟨-, hlater⟩, hrest⟩
      exact ⟨(s.toList, rest.toList), closing?_eq_some_iff.mpr ⟨hlater, hrest⟩, by simp⟩
  · next hno =>
    refine iff_of_false (by simp) ?_
    rintro ⟨ht, -⟩
    exact hno _ ht

/-- What follows a text is all that a reader leaves of it, or less if it begins with a quote. -/
theorem suffix_of_readText? {s rest t after : String}
    (h : readText? (literal (.text s) ++ rest) = some (t, after)) :
    after.toList <:+ rest.toList := by
  obtain ⟨heq, hafter⟩ := readText?_eq_some_iff.mp h
  rw [← String.toList_inj, String.toList_append, String.toList_append, literal, literal,
    toList_quotedText, toList_quotedText] at heq
  simp only [List.cons_append, List.append_assoc, List.nil_append, List.cons.injEq,
    true_and] at heq
  have hread := closing?_eq_some_iff.mpr ⟨heq, hafter⟩
  rw [closing?_doubled_append, Option.map_eq_some_iff] at hread
  obtain ⟨⟨more, left⟩, hmore, hsame⟩ := hread
  obtain rfl : left = after.toList := congrArg Prod.snd hsame
  obtain ⟨hquote, -⟩ := closing?_eq_some_iff.mp hmore
  cases hdoubled : doubled more with
  | nil =>
      rw [hdoubled, List.nil_append, List.cons.injEq] at hquote
      exact hquote.2 ▸ List.suffix_refl _
  | cons c others =>
      rw [hdoubled, List.cons_append, List.cons.injEq] at hquote
      exact ⟨others ++ ['\''], by rw [hquote.2, List.append_assoc, List.singleton_append]⟩

/-! ## Texts with single quotes

What happens to a text that is not doubled. -/

/-- Without quotes there is nothing to double. -/
theorem doubled_eq_self {s : List Char} (h : '\'' ∉ s) : doubled s = s := by
  induction s with
  | nil => rfl
  | cons c s ih =>
      rw [List.mem_cons, not_or] at h
      rw [doubled_cons_of_ne (Ne.symm h.1), ih h.2]

/-- Where more quotes are read than are written, the next ones are taken from what follows. The
surplus grows along the text, so the induction is for any number of them. -/
theorem head?_eq_of_surplus (count : Nat) {s after rest : List Char}
    (h : List.replicate (count + 1) '\'' ++ (doubled s ++ '\'' :: after) = s ++ '\'' :: rest) :
    rest.head? = some '\'' := by
  induction s generalizing count with
  | nil =>
      rw [List.replicate_succ, List.cons_append, List.nil_append, List.cons.injEq] at h
      rw [← h.2]
      cases count <;> rfl
  | cons c s ih =>
      rw [List.replicate_succ, List.cons_append, List.cons_append, List.cons.injEq] at h
      obtain ⟨rfl, hrest⟩ := h
      refine ih (count + 1) ?_
      rw [← hrest, doubled_quote, List.replicate_succ', List.replicate_succ']
      simp

/-- A text that is put between quotes as it is reads back exactly if it has none. This is what goes
wrong with names that are quoted without `quotedText`. -/
theorem closing?_single_iff {s rest : List Char} (hrest : rest.head? ≠ some '\'') :
    (∃ after, closing? (s ++ '\'' :: rest) = some (s, after)) ↔ '\'' ∉ s := by
  constructor
  · rintro ⟨after, h⟩
    have hwritten := (closing?_eq_some_iff.mp h).1
    clear h
    induction s with
    | nil => exact List.not_mem_nil
    | cons c s ih =>
        by_cases hc : c = '\''
        · -- The quote has been read together with the next one, and so on to the last.
          subst hc
          rw [doubled_quote, List.cons_append, List.cons_append, List.cons_append,
            List.cons.injEq] at hwritten
          exact absurd (head?_eq_of_surplus 0 hwritten.2.symm) hrest
        · rw [doubled_cons_of_ne hc, List.cons_append, List.cons_append,
            List.cons.injEq] at hwritten
          rw [List.mem_cons, not_or]
          exact ⟨Ne.symm hc, ih hwritten.2⟩
  · intro h
    exact ⟨rest, closing?_eq_some_iff.mpr ⟨by rw [doubled_eq_self h], hrest⟩⟩

/-! ## Reading all texts -/

/-- The texts between quotes in a statement. Everything else is passed over; a text that does not
end is none. -/
def texts : List Char → List String
  | [] => []
  | c :: rest =>
    if c = '\'' then
      match _hread : closing? rest with
      | some read => String.ofList read.1 :: texts read.2
      | none => []
    else texts rest
termination_by statement => statement.length
decreasing_by
  · rw [(closing?_eq_some_iff.mp _hread).1]
    simp only [List.length_append, List.length_cons]
    omega
  · exact Nat.lt_succ_self _

/-- A text without quotes. -/
def Plain (s : String) : Prop :=
  '\'' ∉ s.toList

instance : DecidablePred Plain :=
  fun s => inferInstanceAs (Decidable ('\'' ∉ s.toList))

/-- What has no quotes is passed over. -/
theorem texts_append {front : List Char} (h : '\'' ∉ front) (rest : List Char) :
    texts (front ++ rest) = texts rest := by
  induction front with
  | nil => rfl
  | cons c front ih =>
      rw [List.mem_cons, not_or] at h
      rw [List.cons_append, texts, if_neg (Ne.symm h.1), ih h.2]

/-- At a quote, a text is read; if it does not end, nothing is left to read (`texts_quote_eq_nil`).
-/
theorem texts_quote {rest : List Char} {read : List Char × List Char}
    (h : closing? rest = some read) :
    texts ('\'' :: rest) = String.ofList read.1 :: texts read.2 := by
  rw [texts, if_pos rfl]
  split
  · next found hfound => rw [Option.some.inj (hfound.symm.trans h)]
  · next hnone => cases hnone.symm.trans h

theorem texts_quote_eq_nil {rest : List Char} (h : closing? rest = none) :
    texts ('\'' :: rest) = [] := by
  rw [texts, if_pos rfl]
  split
  · next found hfound => cases hfound.symm.trans h
  · rfl

/-! ## Parts of statements

`Reads` is closed under appending, as long as the next part does not begin with a quote. All
statements are put together like that. -/

/-- Whether something begins with a quote can be decided on its first part. -/
theorem head?_append_ne {a : String} (h : a.toList.head?.any (· != '\'') = true) (b : String) :
    (a ++ b).toList.head? ≠ some '\'' := by
  rw [String.toList_append, List.head?_append]
  cases hfirst : a.toList.head? with
  | none =>
      rw [hfirst] at h
      cases h
  | some c => simpa [hfirst] using h

/-- A reader finds `found` in a part of a statement, and goes on behind it unless a quote follows.
-/
def Reads (part : String) (found : List String) : Prop :=
  ∀ rest : List Char, rest.head? ≠ some '\'' →
    texts (part.toList ++ rest) = found ++ texts rest

namespace Reads

theorem texts_eq {part : String} {found : List String} (h : Reads part found) :
    texts part.toList = found := by
  simpa [texts] using h [] (by simp)

theorem plain {part : String} (h : Plain part) : Reads part [] := fun rest _ =>
  texts_append h rest

theorem quotedText (s : String) : Reads (quotedText s) [s] := by
  intro rest hrest
  have hread : closing? (doubled s.toList ++ ['\''] ++ rest) = some (s.toList, rest) :=
    closing?_eq_some_iff.mpr ⟨by rw [List.append_assoc, List.singleton_append], hrest⟩
  rw [toList_quotedText, List.cons_append, texts_quote hread, String.ofList_toList]
  rfl

/-- Two parts, of which the second does not begin with a quote. -/
theorem append {a b : String} {found more : List String} (ha : Reads a found) (hb : Reads b more)
    (h : b.toList.head? ≠ some '\'') : Reads (a ++ b) (found ++ more) := by
  intro rest hrest
  have hnext : (b.toList ++ rest).head? ≠ some '\'' := by
    rw [List.head?_append]
    cases hb : b.toList.head? with
    | none => exact hrest
    | some c => rwa [hb] at h
  rw [String.toList_append, List.append_assoc, ha _ hnext, hb _ hrest, List.append_assoc]

/-- Behind a plain part, a reader starts as at the front. -/
theorem plain_append {a b : String} {found : List String} (ha : Plain a) (hb : Reads b found) :
    Reads (a ++ b) found := by
  intro rest hrest
  rw [String.toList_append, List.append_assoc, texts_append ha, hb _ hrest]

end Reads

theorem texts_plain_append {a : String} (h : Plain a) (b : String) :
    texts (a ++ b).toList = texts b.toList := by
  rw [String.toList_append, texts_append h]

theorem texts_quotedText_append (s : String) {b : String} (h : b.toList.head? ≠ some '\'') :
    texts (quotedText s ++ b).toList = s :: texts b.toList := by
  rw [String.toList_append, Reads.quotedText s _ h]
  rfl

/-! ## Values, names and rows -/

theorem Plain.append {a b : String} (ha : Plain a) (hb : Plain b) : Plain (a ++ b) := by
  rw [Plain, String.toList_append, List.mem_append, not_or]
  exact ⟨ha, hb⟩

theorem plain_empty : Plain "" := by
  decide

theorem plain_join {separator : String} (hseparator : Plain separator) {parts : List String}
    (h : ∀ part ∈ parts, Plain part) : Plain (Text.join separator parts) := by
  induction parts with
  | nil => exact plain_empty
  | cons part rest ih =>
      have hpart := h part List.mem_cons_self
      cases rest with
      | nil => exact hpart
      | cons next rest =>
          have hrest := ih fun other hother => h other (List.mem_cons_of_mem _ hother)
          exact (hpart.append hseparator).append hrest

/-- The quotes of identifiers are brackets or none, and not those of texts. -/
theorem plain_quote (engine : Engine) {name : String} (h : Plain name) :
    Plain (engine.quote name) := by
  cases engine with
  | sqlServer => exact ((show Plain "[" by decide).append h).append (by decide)
  | oracle => exact h

theorem plain_names (engine : Engine) {columns : List String}
    (h : ∀ column ∈ columns, Plain column) :
    Plain (Statement.names engine columns) := by
  refine plain_join (by decide) fun name hname => ?_
  obtain ⟨column, hcolumn, rfl⟩ := List.mem_map.mp hname
  exact plain_quote engine (h column hcolumn)

theorem plain_of_isNumeral {s : String} (h : ∀ c ∈ s.toList, isNumeral c = true) : Plain s :=
  fun hmem => absurd (h _ hmem) (by decide)

def textOf? : Seed.Value → Option String
  | .text s => some s
  | _ => none

/-- A value reads as the text it is, if it is one. -/
theorem reads_literal (value : Seed.Value) : Reads (literal value) (textOf? value).toList := by
  cases value with
  | null => exact .plain (by decide)
  | bool b => cases b <;> exact .plain (by decide)
  | integer n => exact .plain (plain_of_isNumeral fun _ => isNumeral_of_mem_int)
  | double f => exact .plain (plain_of_isNumeral fun _ => isNumeral_of_mem_double)
  | text s => exact .quotedText s

def Cell.text? : Cell → Option String
  | .literal value => textOf? value
  | .nextKey => none

/-- A cell reads as its text, if it has one. The next key is asked from a sequence, whose name is
that of the table. -/
theorem reads_cellText (engine : Engine) {table : String} (h : Plain table) (cell : Cell) :
    Reads (Statement.cellText engine table cell) cell.text?.toList := by
  cases cell with
  | literal value => exact reads_literal value
  | nextKey =>
      apply Reads.plain
      cases engine with
      | sqlServer => exact plain_empty
      | oracle => exact ((show Plain "SEQ_" by decide).append h).append (by decide)

/-- Parts with commas between them read as what each of them reads as. -/
theorem reads_join {α : Type} {f : α → String} {found : α → Option String}
    (h : ∀ a, Reads (f a) (found a).toList) (as : List α) :
    Reads (Text.join ", " (as.map f)) (as.filterMap found) := by
  induction as with
  | nil => exact .plain plain_empty
  | cons a rest ih =>
      have hfound : (a :: rest).filterMap found = (found a).toList ++ rest.filterMap found := by
        cases ha : found a <;> simp [ha]
      rw [hfound]
      cases rest with
      | nil =>
          rw [List.filterMap_nil, List.append_nil]
          exact h a
      | cons next rest =>
          have hrest := (h a).append (.plain_append (a := ", ") (by decide) ih)
            (head?_append_ne (by decide) _)
          rwa [← String.append_assoc] at hrest

/-- A row reads as the texts of its cells. -/
theorem reads_rowText (engine : Engine) {table : String} {cells : List (String × Cell)}
    (htable : Plain table) (hcells : ∀ cell ∈ cells, Plain cell.1) :
    Reads (Statement.rowText engine table cells) (cells.filterMap fun cell => cell.2.text?) := by
  have hnames : Plain (Statement.names engine (cells.map (·.1))) := by
    refine plain_names engine fun name hname => ?_
    obtain ⟨cell, hcell, rfl⟩ := List.mem_map.mp hname
    exact hcells cell hcell
  have hfront : Plain ("insert into " ++ engine.quote table ++ " ("
      ++ Statement.names engine (cells.map (·.1)) ++ ") values (") :=
    ((((show Plain "insert into " by decide).append (plain_quote engine htable)).append
      (by decide)).append hnames).append (by decide)
  have hvalues := reads_join (fun cell : String × Cell => reads_cellText engine htable cell.2) cells
  have hrow := (Reads.plain_append hfront hvalues).append (.plain (show Plain ")" by decide))
    (by decide)
  rwa [List.append_nil] at hrow

/-- Texts are safe in statements. What a text is written as reads back as the text and leaves what
follows, unless that begins with a quote, and nothing else reads back so. Different texts are
written differently, and no text ends before what follows. So the texts of a row are those of its
cells, whatever they are. -/
theorem literal_text_reads_back :
    (∀ s rest : String, rest.toList.head? ≠ some '\'' →
      readText? (literal (.text s) ++ rest) = some (s, rest)) ∧
    (∀ t s rest : String, readText? t = some (s, rest) → t = literal (.text s) ++ rest) ∧
    (Function.Injective fun s => literal (.text s)) ∧
    (∀ s rest t after : String, readText? (literal (.text s) ++ rest) = some (t, after) →
      after.toList <:+ rest.toList) ∧
    ∀ (engine : Engine) (table : String) (cells : List (String × Cell)), Plain table →
      (∀ cell ∈ cells, Plain cell.1) →
        texts ((Statement.insertRow table cells).text engine).toList =
          cells.filterMap fun cell => cell.2.text? := by
  have hback : ∀ s rest : String, rest.toList.head? ≠ some '\'' →
      readText? (literal (.text s) ++ rest) = some (s, rest) := fun s rest hrest =>
    readText?_eq_some_iff.mpr ⟨rfl, hrest⟩
  refine ⟨hback, fun t s rest h => (readText?_eq_some_iff.mp h).1, fun s t heq => ?_,
    fun s rest t after => suffix_of_readText?, fun engine table cells htable hcells => ?_⟩
  · have hs := hback s "" (by simp)
    rw [show literal (.text s) = literal (.text t) from heq, hback t "" (by simp)] at hs
    exact (congrArg Prod.fst (Option.some.inj hs)).symm
  · exact (reads_rowText engine htable hcells).texts_eq

/-- A text with quotes at both ends and two of them inside. -/
theorem literal_text_reads_back_quotes :
    literal (.text "'a''b'") = "'''a''''b'''" ∧ ", 1)".toList.head? ≠ some '\'' ∧
      readText? ("'''a''''b'''" ++ ", 1)") = some ("'a''b'", ", 1)") ∧
      Plain "T" ∧ Plain "C" ∧
      texts ((Statement.insertRow "T" [("C", .literal (.text "'a''b'"))]).text .sqlServer).toList =
        ["'a''b'"] := by
  have hwritten : literal (.text "'a''b'") = "'''a''''b'''" := by decide
  have hrest : ", 1)".toList.head? ≠ some '\'' := by decide
  have hread := literal_text_reads_back.1 "'a''b'" ", 1)" hrest
  rw [hwritten] at hread
  refine ⟨hwritten, hrest, hread, by decide, by decide, ?_⟩
  exact literal_text_reads_back.2.2.2.2 .sqlServer "T" [("C", .literal (.text "'a''b'"))]
    (by decide) (List.forall_mem_singleton.mpr (by decide))

end ModelSchema.Sql
