import ModelSchema.Proofs.Sql.Lines
import ModelSchema.Sql.Statement

/-!
# How statements are spelled, line by line

A statement surrounds texts of the model with words of its own. If the texts are calm
(`Statement.IsCalm`), then no line of the statement is the separator (`Statement.clear_text`): what
the engine adds to a name, a type or a value keeps it calm, and every line that a statement begins
of its own has a word on it.
-/

namespace ModelSchema.Sql

variable {engine : Engine}

/-! ## Numbers

Numbers are written without line breaks. For doubles this takes a look at how they are laid out. -/

/-- The characters of numbers: digits, the sign, the point, and those of `NaN` and `inf`. -/
def isNumeral (c : Char) : Bool :=
  c.isDigit || ['-', '.', 'N', 'a', 'i', 'n', 'f'].contains c

/-- Numbers of all kinds are spelled with these characters. None of them is a line break, which is
all that `Calm` needs. -/
theorem isNumeral_of_mem_toDigits {n : Nat} {c : Char} (h : c ∈ Nat.toDigits 10 n) :
    isNumeral c = true := by
  have hdigit := Nat.isDigit_of_mem_toDigits (by decide) (by decide) h
  simp [isNumeral, hdigit]

theorem isNumeral_of_mem_nat {n : Nat} {c : Char} (h : c ∈ (toString n).toList) :
    isNumeral c = true := by
  rw [Nat.toString_eq_repr, Nat.toList_repr] at h
  exact isNumeral_of_mem_toDigits h

theorem isNumeral_of_mem_int {n : Int} {c : Char} (h : c ∈ (toString n).toList) :
    isNumeral c = true := by
  cases n with
  | ofNat n => exact isNumeral_of_mem_nat h
  | negSucc n =>
      have hparts : (toString (Int.negSucc n)).toList = '-' :: (toString (n + 1)).toList :=
        String.toList_append
      rw [hparts] at h
      rcases List.mem_cons.mp h with rfl | hdigit
      · rfl
      · exact isNumeral_of_mem_nat hdigit

/-- Positional notation adds zeros and a point to the digits. -/
theorem mem_positional {digits : List Char} {exponent : Int} {c : Char}
    (h : c ∈ layout.positional digits exponent) : c = '0' ∨ c = '.' ∨ c ∈ digits := by
  unfold Decimal.Layout.positional at h
  split at h
  · simp only [List.mem_cons, List.mem_append, List.mem_replicate] at h
    tauto
  · dsimp only at h
    split at h
    · simp only [List.mem_append, List.mem_replicate, layout, Bool.false_eq_true, if_false,
        List.not_mem_nil] at h
      tauto
    · simp only [List.mem_append, List.mem_cons] at h
      have htake := List.mem_of_mem_take (a := c) (l := digits) (i := exponent.toNat + 1)
      have hdrop := List.mem_of_mem_drop (a := c) (l := digits) (i := exponent.toNat + 1)
      tauto

/-- The layout of SQL has no exponents, so only positional notation occurs. -/
theorem isNumeral_of_mem_magnitude {interval : Decimal.Interval} {c : Char}
    (h : c ∈ layout.magnitude interval) : isNumeral c = true := by
  have hpositional {digits : List Char} {exponent : Int}
      (hdigits : c ∈ digits → isNumeral c = true) (hmem : c ∈ layout.positional digits exponent) :
      isNumeral c = true := by
    rcases mem_positional hmem with rfl | rfl | hmem
    · rfl
    · rfl
    · exact hdigits hmem
  unfold Decimal.Layout.magnitude at h
  split at h
  · refine hpositional (fun hmem => ?_) h
    rw [List.mem_singleton.mp hmem]
    rfl
  · -- The layout of values writes every number in full.
    exact hpositional isNumeral_of_mem_toDigits h

/-- Doubles that are not finite are spelled as words. -/
theorem isNumeral_of_mem_double {f : Float} {c : Char} (h : c ∈ (layout.text f).toList) :
    isNumeral c = true := by
  have hword {word : String} (hword : word.toList.all isNumeral = true) (hmem : c ∈ word.toList) :
      isNumeral c = true :=
    List.all_eq_true.mp hword c hmem
  unfold Decimal.Layout.text at h
  split at h
  · rw [String.toList_ofList, List.mem_append] at h
    rcases h with hsign | hmagnitude
    · split at hsign
      · rw [List.mem_singleton.mp hsign]
        rfl
      · exact absurd hsign List.not_mem_nil
    · exact isNumeral_of_mem_magnitude hmagnitude
  · simp only [layout] at h
    split_ifs at h <;> exact hword (by decide) h

/-- A number is on one line. -/
theorem calm_of_isNumeral {s : String} (h : ∀ c ∈ s.toList, isNumeral c = true) :
    Calm engine s :=
  calm_of_not_mem fun hmem => absurd (h _ hmem) (by decide)

theorem calm_nat (n : Nat) : Calm engine (toString n) :=
  calm_of_isNumeral fun _ => isNumeral_of_mem_nat

theorem calm_int (n : Int) : Calm engine (toString n) :=
  calm_of_isNumeral fun _ => isNumeral_of_mem_int

theorem calm_double (f : Float) : Calm engine (layout.text f) :=
  calm_of_isNumeral fun _ => isNumeral_of_mem_double

/-! ## Values -/

/-- Doubling quotes is `calm_flatMap`: it makes no line breaks, and no separator has a quote. -/
theorem calm_quotedText {s : String} (h : Calm engine s) : Calm engine (quotedText s) := by
  refine ((led_append_calm rfl (calm_flatMap rfl ?_ ?_ h)).finish rfl).calm
  · intro c hc
    split <;> simp [Ne.symm hc]
  · intro line heq
    -- A line that held a quote would hold two of them afterwards, and no separator has any.
    have hquote : '\'' ∉ line := by
      intro hmem
      have hseparator : '\'' ∈ engine.separator.toList := by
        rw [← heq]
        exact List.mem_flatMap.mpr ⟨'\'', hmem, by simp⟩
      cases engine <;> exact absurd hseparator (by decide)
    have hkept : line.flatMap (fun c => if c = '\'' then ['\'', '\''] else [c]) = line := by
      refine (List.flatMap_congr fun c hc => ?_).trans (List.flatMap_singleton' line)
      rw [if_neg (by rintro rfl; exact hquote hc)]
    exact hkept.symm.trans heq

/-- The text of a value, if it is one, is calm. -/
def CalmValue (engine : Engine) : Seed.Value → Prop
  | .text s => Calm engine s
  | _ => True

instance : DecidablePred (CalmValue engine)
  | .null | .bool _ | .integer _ | .double _ => isTrue trivial
  | .text s => inferInstanceAs (Decidable (Calm engine s))

theorem calm_literal {value : Seed.Value} (h : CalmValue engine value) :
    Calm engine (literal value) := by
  cases value with
  | null => exact calm_of_not_mem (by decide)
  | bool b => cases b <;> exact calm_of_not_mem (by decide)
  | integer n => exact calm_int n
  | double f => exact calm_double f
  | text s => exact calm_quotedText h

/-! ## Types

The type of a column may be any text. What an engine makes of it has its lines, perhaps in another
case. -/

/-- Lengths are written behind the name, in brackets. -/
theorem calm_sizedType {name : String} (h : Calm engine name) (length precision : Option Nat) :
    Calm engine (sizedType name length precision) := by
  cases length with
  | none => exact h
  | some length =>
      cases precision with
      | none => exact (h.next rfl (calm_nat length)).finish rfl
      | some precision =>
          exact ((h.next rfl (calm_nat length)).next rfl (calm_nat precision)).finish rfl

/-- Only letters have a case. -/
theorem toLower_eq_iff {c d : Char} (hd : d.isAlpha = false) : c.toLower = d ↔ c = d := by
  grind [Char.toLower, Char.isAlpha, Char.isUpper, Char.isLower]

theorem toUpper_eq_iff {c d : Char} (hd : d.isAlpha = false) : c.toUpper = d ↔ c = d := by
  grind [Char.toUpper, Char.isAlpha, Char.isUpper, Char.isLower]

/-- Letters can be exchanged for others, since the separator has none. This holds for `/` only;
upper case could make a separator of letters. -/
theorem calm_map {f : Char → Char} (hf : ∀ {c d : Char}, d.isAlpha = false → (f c = d ↔ c = d))
    {s : String} (h : Calm .oracle s) : Calm .oracle (String.ofList (s.toList.map f)) := by
  rw [List.map_eq_flatMap]
  refine calm_flatMap ?_ ?_ ?_ h
  · rw [(hf (by decide)).mpr rfl]
  · intro c hc hmem
    exact hc ((hf (by decide)).mp (List.mem_singleton.mp hmem).symm)
  · intro line heq
    rw [← List.map_eq_flatMap] at heq
    obtain ⟨c, rfl, hc⟩ := List.map_eq_singleton_iff.mp (heq.trans (b := ['/']) rfl)
    rw [(hf (by decide)).mp hc]
    rfl

theorem calm_ite {p : Prop} [Decidable p] {a b : String} (ha : Calm engine a)
    (hb : Calm engine b) : Calm engine (if p then a else b) := by
  split
  · exact ha
  · exact hb

/-- Types that the engine does not know are written in upper case, others by a fixed name. -/
theorem calm_oracleType {type : String} (h : Calm .oracle type) (length precision : Option Nat) :
    Calm .oracle (Engine.oracleType type length precision) := by
  have hsized {word : String} {length precision : Option Nat} (hword : '\n' ∉ word.toList) :
      Calm .oracle (sizedType word length precision) :=
    calm_sizedType (calm_of_not_mem hword) length precision
  have hother : Calm .oracle (sizedType (Text.upper (Text.lower type)) length precision) :=
    calm_sizedType (calm_map toUpper_eq_iff (calm_map toLower_eq_iff h)) length precision
  unfold Engine.oracleType
  -- One step for each known type, in the order of the definition.
  exact calm_ite (hsized (by decide)) <| calm_ite (hsized (by decide)) <|
    calm_ite (hsized (by decide)) <| calm_ite (calm_of_not_mem (by decide)) <|
    calm_ite (calm_of_not_mem (by decide)) <| calm_ite (calm_of_not_mem (by decide)) <|
    calm_ite (calm_of_not_mem (by decide)) <| calm_ite (calm_of_not_mem (by decide)) <|
    calm_ite (hsized (by decide)) <| calm_ite (calm_of_not_mem (by decide)) <|
    calm_ite (calm_of_not_mem (by decide)) <| calm_ite (calm_of_not_mem (by decide)) <|
    calm_ite (calm_of_not_mem (by decide)) <| calm_ite (calm_of_not_mem (by decide)) <|
    calm_ite (calm_of_not_mem (by decide)) hother

/-- One engine keeps types as they are, the other translates them. -/
theorem calm_columnType {type : String} (h : Calm engine type) (length precision : Option Nat) :
    Calm engine (engine.columnType type length precision) := by
  cases engine with
  | sqlServer => exact calm_sizedType h length precision
  | oracle => exact calm_oracleType h length precision

theorem calm_timestampType : Calm engine engine.timestampType := by
  cases engine <;> exact calm_of_not_mem (by decide)

theorem calm_booleanType : Calm engine engine.booleanType := by
  cases engine <;> exact calm_of_not_mem (by decide)

theorem calm_now : Calm engine engine.now := by
  cases engine <;> exact calm_of_not_mem (by decide)

/-! ## Names -/

/-- Brackets around a name, or nothing. -/
theorem calm_quote {name : String} (h : Calm engine name) : Calm engine (engine.quote name) := by
  cases engine with
  | sqlServer => exact ((led_append_calm rfl h).finish rfl).calm
  | oracle => exact h

theorem calm_names {columns : List String} (h : ∀ column ∈ columns, Calm engine column) :
    Calm engine (Statement.names engine columns) := by
  refine calm_join rfl fun name hname => ?_
  obtain ⟨column, hcolumn, rfl⟩ := List.mem_map.mp hname
  exact calm_quote (h column hcolumn)

/-- A name made from a kind, a table and a column. -/
theorem calm_joined {kind table column : String} (hkind : isMarked kind = true)
    (htable : Calm engine table) (hcolumn : Calm engine column) :
    Calm engine (kind ++ table ++ "_" ++ column) :=
  ((led_append_calm hkind htable).next rfl hcolumn).calm

/-- A trigram, an underscore and a word. -/
theorem calm_technicalColumn {trigram : Option String} {name : String}
    (htrigram : ∀ t ∈ trigram, Calm engine t) (hname : Calm engine name) :
    Calm engine (Table.technicalColumn trigram name) := by
  cases trigram with
  | none => exact hname
  | some t => exact (htrigram t rfl).next rfl hname

/-! ## Tables -/

structure Column.IsCalm (engine : Engine) (column : Column) : Prop where
  name : Calm engine column.name
  type : Calm engine column.type
  default : ∀ value ∈ column.default, Calm engine value

structure ForeignKey.IsCalm (engine : Engine) (key : ForeignKey) : Prop where
  column : Calm engine key.column
  targetTable : Calm engine key.targetTable
  targetColumn : Calm engine key.targetColumn

/-- The texts of a table are calm. Everything that a statement writes about a table is in one of the
fields. -/
structure Table.IsCalm (engine : Engine) (table : Table) : Prop where
  name : Calm engine table.name
  trigram : ∀ trigram ∈ table.trigram, Calm engine trigram
  columns : ∀ column ∈ table.columns, column.IsCalm engine
  primaryKey : ∀ column ∈ table.primaryKey, Calm engine column
  uniqueColumns : ∀ column ∈ table.uniqueColumns, Calm engine column
  compositeUnique : ∀ column ∈ table.compositeUnique, Calm engine column
  foreignKeys : ∀ key ∈ table.foreignKeys, key.IsCalm engine
  indexedColumns : ∀ column ∈ table.indexedColumns, Calm engine column
  storage : ∀ storage ∈ table.storage, Calm engine storage

/-- Clauses that may be missing. -/
theorem Led.optional {a b : String} (ha : Led engine a) (hb : b = "" ∨ Led engine b) :
    Led engine (a ++ b) := by
  rcases hb with rfl | hb
  · rwa [String.append_empty]
  · exact ha.append hb

/-- Lines between words and a closing bracket. -/
theorem clear_block (words : String) {a block rest : String} (ha : Led engine a)
    (hwords : isMarked words = true) (hblock : Clear engine block)
    (hrest : rest = "" ∨ Led engine rest) :
    Clear engine (a ++ (words ++ "\n") ++ block ++ "\n)" ++ rest) := by
  have hend : Led engine (")" ++ rest) := (led_of_marked rfl).optional hrest
  have htext : a ++ (words ++ "\n") ++ block ++ "\n)" ++ rest =
      a ++ words ++ "\n" ++ block ++ "\n" ++ (")" ++ rest) := by
    rw [← String.toList_inj]
    simp
  rw [htext]
  exact clear_break (clear_break (ha.finish hwords).clear hblock) hend.clear

namespace Statement

theorem led_typeColumn {column : Column} (h : column.IsCalm engine) :
    Led engine ("\t" ++ engine.quote column.name ++ " " ++ column.type) :=
  (led_append_calm rfl (calm_quote h.name)).next rfl h.type

/-- A line of a table begins with a tab, which is no separator; its clauses are optional. -/
theorem led_columnDeclaration {column : Column} (h : column.IsCalm engine) :
    Led engine (columnDeclaration engine column) := by
  refine (((led_typeColumn h).optional ?_).optional ?_).append ?_
  · split
    · cases engine with
      | sqlServer => exact .inr (led_append_calm rfl (calm_of_not_mem (by decide)))
      | oracle => exact .inl rfl
    · exact .inl rfl
  · cases hdefault : column.default with
    | none => exact .inl rfl
    | some value => exact .inr (led_append_calm rfl (h.default value hdefault))
  · split <;> exact led_of_marked rfl

/-- The lines of a table: its columns, and the constraint for the key. -/
theorem led_tableLines {table : Table} (h : table.IsCalm engine) {line : String}
    (hline : line ∈ tableLines engine table) : Led engine line := by
  rcases List.mem_append.mp hline with hline | hline
  · obtain ⟨column, hcolumn, rfl⟩ := List.mem_map.mp hline
    exact led_columnDeclaration (h.columns column hcolumn)
  · split at hline
    · exact absurd hline List.not_mem_nil
    · obtain rfl := List.mem_singleton.mp hline
      have hname : Calm engine (Table.primaryKeyName table.name) :=
        (led_append_calm rfl h.name).calm
      have hkey : Led engine ("\tconstraint " ++ engine.quote (Table.primaryKeyName table.name)
          ++ " primary key") :=
        (led_append_calm rfl (calm_quote hname)).finish rfl
      refine ((hkey.optional ?_).next rfl (calm_names h.primaryKey)).finish rfl
      cases engine with
      | sqlServer => exact .inr (led_of_marked rfl)
      | oracle => exact .inl rfl

/-- Where storage is not set, there is no clause. -/
theorem storage_cases {place : Option String} (h : ∀ s ∈ place, Calm engine s) :
    storage engine place = "" ∨ Led engine (storage engine place) := by
  cases place with
  | none => exact .inl rfl
  | some s =>
      right
      cases engine with
      | sqlServer => exact led_append_calm rfl (calm_quote (h s rfl))
      | oracle => exact led_append_calm rfl (h s rfl)

theorem clear_tableText {table : Table} (h : table.IsCalm engine) :
    Clear engine (tableText engine table) :=
  clear_block " (" (led_append_calm rfl (calm_quote h.name)) rfl
    (clear_join fun _ => led_tableLines h) (storage_cases h.storage)

/-- The values of a trigger are columns, the time and a digit. -/
theorem calm_historyValues {table : Table} (h : table.IsCalm engine) (event : Event) :
    Calm engine (historyValues engine table event) := by
  have hevent : Calm engine event.isCreation := by
    cases event <;> exact calm_of_not_mem (by decide)
  refine ((calm_join rfl fun value hvalue => ?_).next rfl calm_now).next rfl hevent
  obtain ⟨column, hcolumn, rfl⟩ := List.mem_map.mp hvalue
  cases engine with
  | sqlServer => exact calm_quote (h.columns column hcolumn).name
  | oracle => exact (led_append_calm rfl (h.columns column hcolumn).name).calm

/-- A trigger has several lines of its own, all with words on them. -/
theorem clear_triggerText {table history : Table} (h : table.IsCalm engine)
    (hhistory : history.IsCalm engine) (event : Event) :
    Clear engine (triggerText engine table history event) := by
  have hword : Calm engine event.word := by cases event <;> exact calm_of_not_mem (by decide)
  have hshort : Calm engine event.short := by cases event <;> exact calm_of_not_mem (by decide)
  have htrigger : Calm engine (engine.quote (Table.triggerName table.name event.short)) :=
    calm_quote (calm_joined rfl h.name hshort)
  have hcolumns : Calm engine (names engine (history.columns.map (·.name))) := by
    refine calm_names fun name hname => ?_
    obtain ⟨column, hcolumn, rfl⟩ := List.mem_map.mp hname
    exact (hhistory.columns column hcolumn).name
  have hvalues := calm_historyValues h event
  cases engine with
  | sqlServer =>
      exact ((((((led_append_calm rfl htrigger).next rfl (calm_quote h.name)).next rfl hword).next
        rfl (calm_quote hhistory.name)).next rfl hcolumns).next rfl hvalues |>.finish rfl).clear
  | oracle =>
      exact ((((((led_append_calm rfl htrigger).next rfl hword).next rfl (calm_quote h.name)).next
        rfl (calm_quote hhistory.name)).next rfl hcolumns).next rfl hvalues |>.finish rfl).clear

theorem clear_typeColumns {columns : List Column} (h : ∀ column ∈ columns, column.IsCalm engine) :
    Clear engine (typeColumns engine columns) := by
  refine clear_join fun line hline => ?_
  obtain ⟨column, hcolumn, rfl⟩ := List.mem_map.mp hline
  exact led_typeColumn (h column hcolumn)

/-! ## Statements -/

def CalmCell (engine : Engine) : Cell → Prop
  | .literal value => CalmValue engine value
  | .nextKey => True

structure CalmTranslation (engine : Engine) (t : Translation) : Prop where
  translationTable : Calm engine t.translationTable
  className : Calm engine t.className
  keyColumn : Calm engine t.keyColumn
  language : Calm engine t.language
  label : Calm engine t.label
  table : Calm engine t.table
  filterColumn : Calm engine t.filterColumn
  filterValue : CalmValue engine t.filterValue

/-- The texts that a statement is made from are calm. -/
def IsCalm (engine : Engine) : Statement → Prop
  | createTable table => table.IsCalm engine
  | createSequence table => Calm engine table
  | createTrigger table history _ => table.IsCalm engine ∧ history.IsCalm engine
  | addUnique table name columns =>
    Calm engine table ∧ Calm engine name ∧ ∀ column ∈ columns, Calm engine column
  | createTableType name columns => Calm engine name ∧ ∀ column ∈ columns, column.IsCalm engine
  | createObjectType name columns => Calm engine name ∧ ∀ column ∈ columns, column.IsCalm engine
  | createCollectionType name element => Calm engine name ∧ Calm engine element
  | createIndex table name column storage =>
    Calm engine table ∧ Calm engine name ∧ Calm engine column ∧ ∀ s ∈ storage, Calm engine s
  | addForeignKey table key => Calm engine table ∧ key.IsCalm engine
  | identityInsert table _ => Calm engine table
  | insertRow table cells =>
    Calm engine table ∧ ∀ cell ∈ cells, Calm engine cell.1 ∧ CalmCell engine cell.2
  | insertTranslation translation => CalmTranslation engine translation

theorem calm_cellText {table : String} (htable : Calm engine table) {cell : Cell}
    (hcell : CalmCell engine cell) : Calm engine (cellText engine table cell) := by
  cases cell with
  | literal value => exact calm_literal hcell
  | nextKey =>
      cases engine with
      | sqlServer => exact calm_of_not_mem (s := "") (by decide)
      | oracle => exact ((led_append_calm rfl htable).finish rfl).calm

theorem clear_rowText {table : String} (htable : Calm engine table) {cells : List (String × Cell)}
    (hcells : ∀ cell ∈ cells, Calm engine cell.1 ∧ CalmCell engine cell.2) :
    Clear engine (rowText engine table cells) := by
  have hnames : Calm engine (names engine (cells.map (·.1))) := by
    refine calm_names fun name hname => ?_
    obtain ⟨cell, hcell, rfl⟩ := List.mem_map.mp hname
    exact (hcells cell hcell).1
  have hvalues : Calm engine
      (Text.join ", " (cells.map fun cell => cellText engine table cell.2)) := by
    refine calm_join rfl fun value hvalue => ?_
    obtain ⟨cell, hcell, rfl⟩ := List.mem_map.mp hvalue
    exact calm_cellText htable (hcells cell hcell).2
  exact (((led_append_calm rfl (calm_quote htable)).next rfl hnames).next rfl hvalues
    |>.finish rfl).clear

/-- The key of a label is an expression on one line. The name of the class stands in it as it is,
without `quotedText`. -/
theorem calm_resourceKey {className keyColumn : String} (hclass : Calm engine className)
    (hkey : Calm engine keyColumn) : Calm engine (resourceKey engine className keyColumn) := by
  have hplus : isMarked engine.concatenation = true := by cases engine <;> rfl
  have htext : Calm engine (engine.toText (engine.quote keyColumn)) := by
    cases engine <;> exact ((led_append_calm rfl (calm_quote hkey)).finish rfl).calm
  exact (((((led_append_calm rfl hclass).finish rfl).finish hplus).finish rfl).finish hplus
    |>.next rfl htext).calm

theorem clear_translationText {t : Translation} (h : CalmTranslation engine t) :
    Clear engine (translationText engine t) := by
  have hnames : Calm engine (names engine ["RESOURCE_KEY", "LANG_CODE", "LABEL"]) := by
    cases engine <;> exact calm_of_not_mem (by decide)
  exact ((((((((led_append_calm rfl (calm_quote h.translationTable)).next rfl hnames).next rfl
    (calm_resourceKey h.className h.keyColumn)).next rfl (calm_quotedText h.language)).next rfl
    (calm_quotedText h.label)).next rfl (calm_quote h.table)).next rfl
    (calm_quote h.filterColumn)).next rfl (calm_literal h.filterValue)).clear

/-- No line of a statement is the separator if the texts it is made from are calm. -/
theorem clear_text {statement : Statement} (h : statement.IsCalm engine) :
    Clear engine (statement.text engine) := by
  cases statement with
  | createTable table => exact clear_tableText h
  | createSequence table =>
      cases engine with
      | sqlServer => exact (show Clear .sqlServer "" by decide)
      | oracle => exact ((led_append_calm rfl (led_append_calm rfl h).calm).finish rfl).clear
  | createTrigger table history event => exact clear_triggerText h.1 h.2 event
  | addUnique table name columns =>
      obtain ⟨htable, hname, hcolumns⟩ := h
      dsimp only [text]
      exact (((led_append_calm rfl (calm_quote htable)).next rfl (calm_quote hname)).next rfl
        (calm_names hcolumns) |>.finish rfl).clear
  | createTableType name columns =>
      have hblock := clear_block " as table ("
        (led_append_calm (a := "create type ") rfl (calm_quote h.1)) rfl (clear_typeColumns h.2)
        (.inl rfl)
      rwa [String.append_empty] at hblock
  | createObjectType name columns =>
      have hblock := clear_block " as object ("
        (led_append_calm (a := "create or replace type ") rfl (calm_quote h.1)) rfl
        (clear_typeColumns h.2) (.inl rfl)
      rwa [String.append_empty] at hblock
  | createCollectionType name element =>
      exact ((led_append_calm rfl (calm_quote h.1)).next rfl (calm_quote h.2)).clear
  | createIndex table name column storage =>
      obtain ⟨htable, hname, hcolumn, hstorage⟩ := h
      exact ((((led_append_calm rfl (calm_quote hname)).next rfl (calm_quote htable)).next rfl
        (calm_quote hcolumn) |>.finish rfl).optional (storage_cases hstorage)).clear
  | addForeignKey table key =>
      obtain ⟨htable, hkey⟩ := h
      exact (((((led_append_calm rfl (calm_quote htable)).next rfl
        (calm_quote (calm_joined rfl htable hkey.column))).next rfl (calm_quote hkey.column)).next
        rfl (calm_quote hkey.targetTable)).next rfl (calm_quote hkey.targetColumn)
        |>.finish rfl).clear
  | identityInsert table on =>
      cases engine with
      | sqlServer =>
          have hswitch : Calm .sqlServer (if on then "on" else "off") := by
            split <;> exact calm_of_not_mem (by decide)
          exact ((led_append_calm rfl (calm_quote h)).next rfl hswitch).clear
      | oracle => exact (show Clear .oracle "" by decide)
  | insertRow table cells => exact clear_rowText h.1 h.2
  | insertTranslation translation => exact clear_translationText h

end Statement

end ModelSchema.Sql
