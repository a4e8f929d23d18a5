import ModelSchema.Proofs.Seeding.Translations
import ModelSchema.Proofs.Sql.Literals

/-!
# The texts of labels

A statement for a label holds four texts before it names the list: the class, a point, the language
and the label. Language and label are written like values, so they read back whatever they are. The
name of the class is put between quotes as it is. A checked model may have any character in it,
since its shape is a matter of style, and so the statement reads as it is meant exactly if the name
of the class has no quote (`labels_read_iff`). Names of tables and columns are not written as texts;
a quote in one of them would begin a text.
-/

namespace ModelSchema.Sql.Seeding

open Reading (read)
open Seed (Item)

variable {engine : Engine} {settings : Settings} {graph : Graph}

/-! ## Parts of a statement

`Statement.translationText` as a sequence of parts. Those without quotes give no texts, and the
quoted ones give their own. -/

/-- What stands before the name of the class. -/
def labelTarget (engine : Engine) (t : Translation) : String :=
  "insert into " ++ engine.quote t.translationTable ++ " ("
    ++ Statement.names engine ["RESOURCE_KEY", "LANG_CODE", "LABEL"] ++ ") select "

def labelKey (engine : Engine) (t : Translation) : String :=
  engine.concatenation ++ " " ++ engine.toText (engine.quote t.keyColumn) ++ ", "

def labelSource (engine : Engine) (t : Translation) : String :=
  " from " ++ (engine.quote t.table ++ " where " ++ engine.quote t.filterColumn ++ " = "
    ++ literal t.filterValue)

/-- What stands behind the name of the class, and its closing quote. Bracketed to the right, so that
`texts` can be computed from the front. -/
def labelRest (engine : Engine) (t : Translation) : String :=
  " " ++ ((engine.concatenation ++ " ") ++ (quotedText "." ++ (" " ++ (labelKey engine t
    ++ (quotedText t.language ++ (", " ++ (quotedText t.label ++ labelSource engine t)))))))

/-- The text of the statement, cut at the quotes around the name of the class. -/
theorem toList_translationText (engine : Engine) (t : Translation) :
    (Statement.translationText engine t).toList = (labelTarget engine t).toList ++
      '\'' :: (t.className.toList ++ '\'' :: (labelRest engine t).toList) := by
  have hopen : "'".toList = ['\''] := rfl
  have hclose : "' ".toList = '\'' :: " ".toList := rfl
  have hpoint : " '.' ".toList = " ".toList ++ ((quotedText ".").toList ++ " ".toList) := by decide
  unfold Statement.translationText Statement.resourceKey labelTarget labelRest labelKey labelSource
  simp only [String.toList_append, List.append_assoc]
  rw [hclose, hopen, hpoint]
  simp only [List.append_assoc, List.cons_append, List.nil_append]

/-- No text begins before the name of the class. -/
theorem plain_labelTarget {t : Translation} (h : Plain t.translationTable) :
    Plain (labelTarget engine t) := by
  have hnames : Plain (Statement.names engine ["RESOURCE_KEY", "LANG_CODE", "LABEL"]) := by
    cases engine <;> decide
  exact ((((show Plain "insert into " by decide).append (plain_quote engine h)).append
    (by decide)).append hnames).append (by decide)

theorem plain_toText (engine : Engine) {expression : String} (h : Plain expression) :
    Plain (engine.toText expression) := by
  cases engine with
  | sqlServer => exact ((show Plain "cast(" by decide).append h).append (by decide)
  | oracle => exact ((show Plain "to_char(" by decide).append h).append (by decide)

theorem plain_concatenation (engine : Engine) : Plain engine.concatenation := by
  cases engine <;> decide

/-- The point, the language and the label are written by `quotedText`, so `texts_quotedText_append`
reads them back, whatever they contain. -/
theorem texts_labelRest {t : Translation} (h : Plain t.keyColumn) :
    texts (labelRest engine t).toList =
      "." :: t.language :: t.label :: texts (labelSource engine t).toList := by
  have hkey : Plain (labelKey engine t) :=
    (((plain_concatenation engine).append (by decide)).append
      (plain_toText engine (plain_quote engine h))).append (by decide)
  have hspace : Plain " " := by decide
  have hsource : (labelSource engine t).toList.head? ≠ some '\'' :=
    head?_append_ne (by decide) _
  rw [labelRest, texts_plain_append hspace,
    texts_plain_append ((plain_concatenation engine).append hspace),
    texts_quotedText_append _ (head?_append_ne (by decide) _), texts_plain_append hspace,
    texts_plain_append hkey, texts_quotedText_append _ (head?_append_ne (by decide) _),
    texts_plain_append (show Plain ", " by decide), texts_quotedText_append _ hsource]

/-! ## The name of the class

It is the only text of the statement that is not quoted by `quotedText`. -/

/-- A quote behind the closing one would continue the text. -/
theorem head?_labelRest (engine : Engine) (t : Translation) :
    (labelRest engine t).toList.head? ≠ some '\'' :=
  head?_append_ne (by decide) _

/-- The name of the class stands between quotes as it is. If it has one itself, the text ends there,
or goes on beyond the name; it is another text in either case. -/
theorem head?_texts_translationText_iff {t : Translation} (h : Plain t.translationTable) :
    (texts (Statement.translationText engine t).toList).head? = some t.className ↔
      Plain t.className := by
  rw [toList_translationText, texts_append (plain_labelTarget h), Plain,
    ← closing?_single_iff (head?_labelRest engine t)]
  constructor
  · intro hfirst
    cases hread : closing? (t.className.toList ++ '\'' :: (labelRest engine t).toList) with
    | none =>
        rw [texts_quote_eq_nil hread] at hfirst
        cases hfirst
    | some read =>
        rw [texts_quote hread, List.head?_cons, Option.some.injEq] at hfirst
        refine ⟨read.2, ?_⟩
        rw [← hfirst, String.toList_ofList]
  · rintro ⟨after, hread⟩
    rw [texts_quote hread, List.head?_cons, String.ofList_toList]

theorem texts_translationText {t : Translation} (h : Plain t.translationTable)
    (hname : Plain t.className) (hkey : Plain t.keyColumn) :
    texts (Statement.translationText engine t).toList =
      t.className :: "." :: t.language :: t.label :: texts (labelSource engine t).toList := by
  have hread : closing? (t.className.toList ++ '\'' :: (labelRest engine t).toList) =
      some (t.className.toList, (labelRest engine t).toList) :=
    closing?_eq_some_iff.mpr ⟨by rw [doubled_eq_self hname], head?_labelRest engine t⟩
  rw [toList_translationText, texts_append (plain_labelTarget h), texts_quote hread,
    String.ofList_toList, texts_labelRest hkey]

/-! ## Scripts -/

/-- Where the fields of a statement for a label come from. -/
structure LabelOf (settings : Settings) (c : Graph.Class) (item : Item) (t : Translation) :
    Prop where
  isReference : c.stereotype = .reference
  translationTable : t.translationTable = settings.translationTable
  className : t.className = c.name
  keyColumn : c.primaryKey?.bind (·.column) = some t.keyColumn
  label : (t.language, t.label) ∈ item.translations.entries

/-- The statements of one item, field by field. -/
theorem labelOf_of_mem {c : Graph.Class} {table : Table} {item : Item} {t : Translation}
    (h : .insertTranslation t ∈ labelStatements settings c table item) :
    LabelOf settings c item t := by
  rw [labelStatements] at h
  split at h
  · next keyColumn hreference hkey =>
    rw [itemTranslations] at h
    split at h
    · exact absurd h List.not_mem_nil
    · obtain ⟨⟨language, label⟩, hlabel, heq⟩ := List.mem_map.mp h
      cases heq
      exact ⟨hreference, rfl, rfl, hkey, hlabel⟩
  · exact absurd h List.not_mem_nil

/-- Every statement for a label belongs to an item of a list. -/
theorem exists_labelOf {t : Translation}
    (h : .insertTranslation t ∈
      (generate engine settings graph).scripts.translations.statements) :
    ∃ id ∈ lists graph, ∃ item ∈ (graph.classAt id).items,
      LabelOf settings (graph.classAt id) item t := by
  obtain ⟨ids, found, hids, hfound, hrounds, -⟩ := exists_filled engine settings graph
  rw [translations_statements hrounds, List.mem_flatten] at h
  obtain ⟨part, hpart, hstatement⟩ := h
  obtain ⟨entry, hentry, hlabels⟩ := List.mem_flatMap.mp hpart
  obtain ⟨item, hitem, rfl⟩ := List.mem_map.mp hlabels
  obtain ⟨id, hid, hclass, -⟩ := exists_of_forall₂ hfound entry hentry
  rw [hclass] at hitem hstatement
  exact ⟨id, hids.subset hid, item, hitem, labelOf_of_mem hstatement⟩

/-- Unless a quote stands in the name of the table of labels, the first text of a statement for a
label is the name of the class exactly if that has no quote. Unless one stands in the name of the
key column either, the name is then followed by a point, the language and the label. -/
theorem labels_read_iff (engine : Engine) (settings : Settings) (graph : Graph)
    (htable : Plain settings.translationTable) {t : Translation}
    (h : .insertTranslation t ∈
      (generate engine settings graph).scripts.translations.statements) :
    ∃ id ∈ lists graph, ∃ item ∈ (graph.classAt id).items,
      LabelOf settings (graph.classAt id) item t ∧
      ((texts ((Statement.insertTranslation t).text engine).toList).head? =
          some (graph.classAt id).name ↔ Plain (graph.classAt id).name) ∧
      (Plain t.keyColumn →
        ((texts ((Statement.insertTranslation t).text engine).toList).take 4 =
            [(graph.classAt id).name, ".", t.language, t.label] ↔
          Plain (graph.classAt id).name)) := by
  obtain ⟨id, hid, item, hitem, hlabel⟩ := exists_labelOf h
  refine ⟨id, hid, item, hitem, hlabel, ?_⟩
  rw [← hlabel.className]
  rw [← hlabel.translationTable] at htable
  have hfirst : (texts ((Statement.insertTranslation t).text engine).toList).head? =
      some t.className ↔ Plain t.className := head?_texts_translationText_iff htable
  refine ⟨hfirst, fun hkey => ⟨fun hread => ?_, fun hname => ?_⟩⟩
  · apply hfirst.mp
    have hhead := congrArg List.head? hread
    rwa [List.head?_take, if_neg (by decide)] at hhead
  · exact congrArg (List.take 4) (texts_translationText htable hname hkey)

theorem labels_read_iff_countries :
    ∃ graph found, read .standard [] [registers] = .ok (graph, found) ∧
      Plain sampleSettings.translationTable ∧
      .insertTranslation (franceLabel "fr" "L'Hexagone") ∈
        (generate .sqlServer sampleSettings
          (graph.addSeed countries)).scripts.translations.statements ∧
      Plain (franceLabel "fr" "L'Hexagone").keyColumn ∧
      ∃ id ∈ lists (graph.addSeed countries),
        ∃ item ∈ ((graph.addSeed countries).classAt id).items,
          LabelOf sampleSettings ((graph.addSeed countries).classAt id) item
            (franceLabel "fr" "L'Hexagone") ∧
          ((texts ((Statement.insertTranslation
              (franceLabel "fr" "L'Hexagone")).text .sqlServer).toList).head? =
                some ((graph.addSeed countries).classAt id).name ↔
              Plain ((graph.addSeed countries).classAt id).name) ∧
          (Plain (franceLabel "fr" "L'Hexagone").keyColumn →
            ((texts ((Statement.insertTranslation
                (franceLabel "fr" "L'Hexagone")).text .sqlServer).toList).take 4 =
                  [((graph.addSeed countries).classAt id).name, ".", "fr", "L'Hexagone"] ↔
                Plain ((graph.addSeed countries).classAt id).name)) := by
  obtain ⟨graph, found, hread, hlisted⟩ := Reading.exists_read .standard []
    (.cons document_registers .nil)
    (P := fun graph _ => decide (.insertTranslation (franceLabel "fr" "L'Hexagone") ∈
      (generate .sqlServer sampleSettings
        (graph.addSeed countries)).scripts.translations.statements))
    (by decide +kernel)
  rw [decide_eq_true_eq] at hlisted
  have htable : Plain sampleSettings.translationTable := by decide
  exact ⟨graph, found, hread, htable, hlisted, by decide,
    labels_read_iff .sqlServer sampleSettings (graph.addSeed countries) htable hlisted⟩

/-! ## A name with a quote -/

/-- A list whose name has a quote, and nothing else to find fault with. -/
def traders : Reading.Source where
  path := "Shop.oom"
  format := .objectModel
  content :=
    "<Model><Code>Shop</Code><Name>Shop</Name>
      <Domains><Domain Id='d'>
        <Code>DO_ID</Code><DataType>int</DataType><PersistentDataType>int</PersistentDataType>
      </Domain></Domains>
      <Packages><Package Id='p'><Code>SalesDataContract</Code><Comment>-</Comment><Classes>
        <Class Id='x'>
          <Code>Trader's</Code><Name>Trader's</Name><Comment>-</Comment>
          <Stereotype>Reference</Stereotype><Persistent>1</Persistent><Trigram>TRA</Trigram>
          <Attributes>
            <Attribute Id='i'>
              <Code>Id</Code><Comment>-</Comment><Persistent>1</Persistent>
              <Multiplicity>1..1</Multiplicity><PrimaryIdentifier>1</PrimaryIdentifier>
              <Domain><Domain Ref='d'/></Domain>
            </Attribute>
          </Attributes>
        </Class>
      </Classes></Package></Packages></Model>"

def tradersOutline : Outline :=
  Schema.shopOutline
    [{ Schema.tableOutline "x" "Trader's" "TRA" false [Schema.fieldOutline "i" "Id" true] with
        stereotype := some "Reference" }]
    []

set_option maxRecDepth 20000 in
/-- Reading the text once, for the kernel. -/
theorem document_traders : traders.document = .ok ⟨"Shop.oom", tradersOutline⟩ := by
  rw [Reading.Source.document, Reading.Source.outline,
    show Xml.parse? traders.content = _ from Reading.parse?_ofList _]
  decide +kernel

/-- A trader with a label. -/
def firstTrader : Seed :=
  Seed.empty.insert "Trader's" ⟨"Traders", .reference,
    [⟨"First", Catalog.empty.insert "Id" (.integer 1), Catalog.empty.insert "en" "First"⟩]⟩

def traderLabel : Translation where
  translationTable := "TRANSLATION"
  className := "Trader's"
  keyColumn := "TRA_ID"
  language := "en"
  label := "First"
  table := "TRADER_S"
  filterColumn := "TRA_ID"
  filterValue := .integer 1

/-- Findings that do not block anything do not keep a label from being read under another name. -/
theorem exists_misread_label :
    ∃ graph found, read .standard [] [traders] = .ok (graph, found) ∧
      (∀ finding ∈ found ++ (Check.run Schema.strict (graph.addSeed firstTrader)).1 ++
          Check.Seed.check (graph.addSeed firstTrader) firstTrader ++
          Schema.checkIdentifiers .sqlServer sampleSettings (graph.addSeed firstTrader),
        finding.category.isBlocking = false) ∧
      (generate .sqlServer sampleSettings (graph.addSeed firstTrader)).error = none ∧
      .insertTranslation traderLabel ∈
        (generate .sqlServer sampleSettings
          (graph.addSeed firstTrader)).scripts.translations.statements ∧
      (texts ((Statement.insertTranslation traderLabel).text .sqlServer).toList).head? ≠
        some traderLabel.className := by
  obtain ⟨graph, found, hread, hchecked⟩ := Reading.exists_read .standard []
    (.cons document_traders .nil)
    (P := fun graph found =>
      let graph := graph.addSeed firstTrader
      let generation := generate .sqlServer sampleSettings graph
      (found ++ (Check.run Schema.strict graph).1 ++ Check.Seed.check graph firstTrader ++
          Schema.checkIdentifiers .sqlServer sampleSettings graph).all
        (fun finding => !finding.category.isBlocking) &&
        generation.error == none &&
        decide (.insertTranslation traderLabel ∈ generation.scripts.translations.statements))
    (by decide +kernel)
  simp only [Bool.and_eq_true, List.all_eq_true, Bool.not_eq_true', beq_iff_eq,
    decide_eq_true_eq] at hchecked
  obtain ⟨⟨hfindings, hcomplete⟩, hlisted⟩ := hchecked
  refine ⟨graph, found, hread, hfindings, hcomplete, hlisted, fun hfirst => ?_⟩
  have hplain : Plain traderLabel.className :=
    (head?_texts_translationText_iff (by decide)).mp hfirst
  exact absurd hplain (by decide)

end ModelSchema.Sql.Seeding
