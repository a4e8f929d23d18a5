import ModelSchema.Proofs.Seeding.Sessions

/-!
# Complete scripts

Scripts are written in rounds, which the six scripts take apart again. Without an error, what each
of them holds is a plain function of two lists: the persistent classes with their tables, and the
lists with items in the order they are filled (`exists_complete`). So every entry of a script
belongs to one of those classes (`written_of_mem`), and what fills a list belongs to its items
(`mem_rowStatements`, `mem_translations`).
-/

namespace ModelSchema.Sql

/-- The scripts that create `tables` and fill `lists`. Unlike `generate`, this has no rounds and no
errors, so membership in a script is a matter of `List.flatMap`. -/
def Scripts.complete (engine : Engine) (settings : Settings)
    (tables lists : List (Graph.Class × Table)) : Scripts where
  create := tables.flatMap fun entry =>
    Schema.heading entry.1 entry.2 ::
      (Schema.createStatements engine entry.1 entry.2).map .statement
  uniqueKeys := tables.flatMap fun entry => (Schema.uniqueStatements entry.2).map .statement
  indexes := tables.flatMap fun entry => (Schema.indexStatements settings entry.2).map .statement
  types := tables.flatMap fun entry => (Schema.typeStatements engine entry.2).map .statement
  data := lists.flatMap fun entry => Seeding.rows engine entry.1 entry.2
  translations := lists.flatMap fun entry => Seeding.translations settings entry.1 entry.2

/-- What complete scripts are made of. -/
inductive Written (engine : Engine) (settings : Settings)
    (tables lists : List (Graph.Class × Table)) : Entry → Prop
  | heading {c : Graph.Class} {table : Table} (h : (c, table) ∈ tables ++ lists) :
      Written engine settings tables lists (Schema.heading c table)
  | create {c : Graph.Class} {table : Table} (h : (c, table) ∈ tables) {statement : Statement}
      (hstatement : statement ∈ Schema.createStatements engine c table) :
      Written engine settings tables lists (.statement statement)
  | uniqueKey {c : Graph.Class} {table : Table} (h : (c, table) ∈ tables) {statement : Statement}
      (hstatement : statement ∈ Schema.uniqueStatements table) :
      Written engine settings tables lists (.statement statement)
  | index {c : Graph.Class} {table : Table} (h : (c, table) ∈ tables) {statement : Statement}
      (hstatement : statement ∈ Schema.indexStatements settings table) :
      Written engine settings tables lists (.statement statement)
  | type {c : Graph.Class} {table : Table} (h : (c, table) ∈ tables) {statement : Statement}
      (hstatement : statement ∈ Schema.typeStatements engine table) :
      Written engine settings tables lists (.statement statement)
  | row {c : Graph.Class} {table : Table} (h : (c, table) ∈ lists) {statement : Statement}
      (hstatement : statement ∈ Seeding.rowStatements engine c table false c.items) :
      Written engine settings tables lists (.statement statement)
  | translation {c : Graph.Class} {table : Table} (h : (c, table) ∈ lists) {entry : Entry}
      (hentry : entry ∈ Seeding.translations settings c table) :
      Written engine settings tables lists entry

/-- An entry of a complete script is one of seven. What is said of all entries is proved by these
cases. -/
theorem written_of_mem {engine : Engine} {settings : Settings}
    {tables lists : List (Graph.Class × Table)} {script : Script}
    (h : script ∈ (Scripts.complete engine settings tables lists).toList) {entry : Entry}
    (hentry : entry ∈ script) : Written engine settings tables lists entry := by
  simp only [Scripts.toList, Scripts.complete, List.mem_cons, List.not_mem_nil, or_false] at h
  rcases h with rfl | rfl | rfl | rfl | rfl | rfl <;>
    obtain ⟨⟨c, table⟩, hlisted, hmem⟩ := List.mem_flatMap.mp hentry
  · rcases List.mem_cons.mp hmem with rfl | hmem
    · exact .heading (List.mem_append_left _ hlisted)
    · obtain ⟨statement, hstatement, rfl⟩ := List.mem_map.mp hmem
      exact .create hlisted hstatement
  · obtain ⟨statement, hstatement, rfl⟩ := List.mem_map.mp hmem
    exact .uniqueKey hlisted hstatement
  · obtain ⟨statement, hstatement, rfl⟩ := List.mem_map.mp hmem
    exact .index hlisted hstatement
  · obtain ⟨statement, hstatement, rfl⟩ := List.mem_map.mp hmem
    exact .type hlisted hstatement
  · rcases List.mem_cons.mp hmem with rfl | hmem
    · exact .heading (List.mem_append_right _ hlisted)
    · obtain ⟨statement, hstatement, rfl⟩ := List.mem_map.mp hmem
      exact .row hlisted hstatement
  · exact .translation hlisted hmem

def Derived (engine : Engine) (settings : Settings) (graph : Graph) (ids : List ClassId)
    (entries : List (Graph.Class × Table)) : Prop :=
  List.Forall₂ (fun id entry => entry.1 = graph.classAt id ∧
    Schema.table engine settings graph id = .ok entry.2) ids entries

variable {engine : Engine} {settings : Settings} {graph : Graph}

/-- An entry belongs to a class of the graph. -/
theorem Derived.exists_id {ids : List ClassId} {entries : List (Graph.Class × Table)}
    (h : Derived engine settings graph ids entries) {entry : Graph.Class × Table}
    (hentry : entry ∈ entries) :
    ∃ id ∈ ids, entry.1 = graph.classAt id ∧
      Schema.table engine settings graph id = .ok entry.2 :=
  exists_of_forall₂ h entry hentry

/-- Seed scripts are only written after the schema scripts. -/
theorem error_of_complete (h : (generate engine settings graph).error = none) :
    (Schema.generate engine settings graph).error = none ∧
      (Seeding.generate engine settings graph).error = none := by
  rw [generate] at h
  split at h
  · next error hschema =>
    rw [hschema] at h
    cases h
  · next hschema => exact ⟨hschema, h⟩

/-- The rounds of the schema, and then those of the lists. -/
theorem rounds_of_complete (h : (Schema.generate engine settings graph).error = none) :
    (generate engine settings graph).rounds =
      (Schema.generate engine settings graph).rounds ++
        (Seeding.generate engine settings graph).rounds := by
  simp only [generate, h]

/-- Complete scripts create the tables of all persistent classes, and fill the lists with items. -/
theorem exists_complete (h : (generate engine settings graph).error = none) :
    ∃ tables lists ids,
      Derived engine settings graph graph.persistentIds tables ∧
      ids.Perm (Seeding.lists graph) ∧ Derived engine settings graph ids lists ∧
      (generate engine settings graph).scripts =
        Scripts.complete engine settings tables lists := by
  obtain ⟨hschema, hseeding⟩ := error_of_complete h
  obtain ⟨ids, lists, -, hlists, hfilled, hperm⟩ := Seeding.exists_filled engine settings graph
  refine ⟨Schema.entries engine settings graph, lists, ids, Schema.forall₂_entries hschema,
    hperm hseeding, hlists, ?_⟩
  have htables : (Schema.generate engine settings graph).rounds =
      (Schema.entries engine settings graph).map (fun entry =>
          Schema.tableRound engine entry.1 entry.2) ++
        (Schema.entries engine settings graph).map fun entry =>
          Schema.indexRound settings entry.2 := by
    show _ ++ (if (Schema.generate engine settings graph).error.isNone then _ else _) = _
    rw [hschema]
    rfl
  have hnothing (entries : List (Graph.Class × Table)) :
      entries.flatMap (fun _ => ([] : Script)) = [] :=
    List.flatMap_eq_nil_iff.mpr fun _ _ => rfl
  rw [Generation.scripts, rounds_of_complete hschema, htables, hfilled]
  -- A round is empty in all scripts but those it adds to.
  simp only [Scripts.ofRounds, Scripts.complete, List.flatMap_append, List.flatMap_map,
    Schema.tableRound, Schema.indexRound, Seeding.listRound, Scripts.empty, hnothing,
    List.append_nil, List.nil_append]

namespace Seeding

open Seed (Item)

/-- There is one statement or none, depending on the engine. -/
theorem eq_of_mem_switchStatements {table : String} {on : Bool} {statement : Statement}
    (h : statement ∈ switchStatements engine table on) : statement = .identityInsert table on := by
  rw [switchStatements] at h
  split at h
  · exact List.mem_singleton.mp h
  · exact absurd h List.not_mem_nil

/-- The statements that fill a list switch its key on or off, or insert the row of an item. -/
theorem mem_rowStatements {c : Graph.Class} {table : Table} {on : Bool} {items : List Item}
    {statement : Statement} (h : statement ∈ rowStatements engine c table on items) :
    (∃ switch, statement = .identityInsert table.name switch) ∨
      ∃ item ∈ items, statement = .insertRow table.name (cells engine c table item) := by
  -- On the items, for either state of the switch.
  induction items generalizing on with
  | nil =>
      rw [rowStatements] at h
      split at h
      · exact .inl ⟨false, eq_of_mem_switchStatements h⟩
      · exact absurd h List.not_mem_nil
  | cons item rest ih =>
      have hlater (on : Bool) (h : statement ∈ rowStatements engine c table on rest) :
          (∃ switch, statement = .identityInsert table.name switch) ∨
            ∃ other ∈ item :: rest,
              statement = .insertRow table.name (cells engine c table other) := by
        rcases ih h with hswitch | ⟨other, hother, heq⟩
        · exact .inl hswitch
        · exact .inr ⟨other, List.mem_cons_of_mem _ hother, heq⟩
      rw [rowStatements] at h
      split at h
      · exact hlater on h
      · rcases List.mem_append.mp h with hswitch | h
        · split at hswitch
          · exact .inl ⟨_, eq_of_mem_switchStatements hswitch⟩
          · exact absurd hswitch List.not_mem_nil
        · rcases List.mem_cons.mp h with rfl | h
          · exact .inr ⟨item, List.mem_cons_self, rfl⟩
          · exact hlater _ h

/-- The row of an item is told by a value of a key or of a unique property. -/
theorem exists_of_filter? {c : Graph.Class} {item : Item} {column : String} {value : Seed.Value}
    (h : filter? c item = some (column, value)) :
    ∃ property ∈ c.properties, (property.isPrimaryKey = true ∨ property.isUnique = true) ∧
      property.column = some column ∧ item.values.get? property.name = some value := by
  obtain ⟨property, hproperty, hsome⟩ := List.exists_of_findSome?_eq_some h
  simp only [Option.bind_eq_bind, Option.bind_eq_some_iff] at hsome
  obtain ⟨name, hname, found, hfound, heq⟩ := hsome
  cases heq
  rcases List.mem_append.mp hproperty with hkey | hunique
  · obtain ⟨hmem, hkey⟩ := List.mem_filter.mp hkey
    exact ⟨property, hmem, .inl hkey, hname, hfound⟩
  · obtain ⟨hmem, hunique⟩ := List.mem_filter.mp hunique
    exact ⟨property, hmem, .inr hunique, hname, hfound⟩

/-- The translated labels of a list belong to its items. -/
theorem mem_translations {c : Graph.Class} {table : Table} {entry : Entry}
    (h : entry ∈ translations settings c table) :
    ∃ item ∈ c.items, ∃ key ∈ c.properties, ∃ keyColumn filterColumn filterValue language label,
      key.column = some keyColumn ∧ filter? c item = some (filterColumn, filterValue) ∧
      (language, label) ∈ item.translations.entries ∧
      entry = .statement (.insertTranslation {
        translationTable := settings.translationTable
        className := c.name
        table := table.name
        keyColumn, language, label, filterColumn, filterValue }) := by
  rw [translations] at h
  split at h
  · next keyColumn _ hkey =>
    obtain ⟨key, hfirst, hcolumn⟩ := Option.bind_eq_some_iff.mp hkey
    obtain ⟨statement, hstatement, rfl⟩ := List.mem_map.mp h
    obtain ⟨item, hitem, hlabels⟩ := List.mem_flatMap.mp hstatement
    rw [itemTranslations] at hlabels
    split at hlabels
    · exact absurd hlabels List.not_mem_nil
    · next filterColumn filterValue hfilter =>
      obtain ⟨⟨language, label⟩, hlabel, rfl⟩ := List.mem_map.mp hlabels
      exact ⟨item, hitem, key, List.mem_of_find?_eq_some hfirst, keyColumn, filterColumn,
        filterValue, language, label, hcolumn, hfilter, hlabel, rfl⟩
  · exact absurd h List.not_mem_nil

end Seeding

end ModelSchema.Sql
