import ModelSchema.Sql.Schema

/-!
# Seed scripts

The tables of lists are filled in an order in which every list comes after those it refers to.
Within a table, the rows keep their order. Reference lists also get their translated labels.
-/

namespace ModelSchema.Sql.Seeding

open Seed (Item)

/-! ## Order -/

/-- Whether a class refers to one instance of another class. -/
def refersTo (graph : Graph) (id other : ClassId) : Bool :=
  id != other && (graph.classAt id).properties.any fun property => property.target? == some other

/-- The positions of the first two classes of which the one before refers to the one after. -/
def conflict? (graph : Graph) (ids : List ClassId) : Option (Nat × Nat) :=
  let count := ids.length
  let pairs := (List.range count).flatMap fun i =>
    (List.range' (i + 1) (count - (i + 1))).map fun j => (i, j)
  pairs.find? fun (i, j) => refersTo graph (ids.getD i 0) (ids.getD j 0)

/-- A list with two places exchanged. -/
def swap (ids : List ClassId) (i j : Nat) : List ClassId :=
  (ids.set i (ids.getD j 0)).set j (ids.getD i 0)

/-- Exchange classes in conflict, at most so many times. -/
def settle (graph : Graph) : Nat → List ClassId → Except Error (List ClassId)
  | budget, ids =>
    match conflict? graph ids with
    | none => .ok ids
    | some (i, j) =>
      match budget with
      | 0 => .error (.unorderable (ids.map fun id => (graph.classAt id).name))
      | budget + 1 => settle graph budget (swap ids i j)

/-- An order of classes in which none refers to a later one. An exchange never disturbs the places
before it, and the classes that follow each other at a place refer to one another in turn, so as
many exchanges as there are pairs are enough unless references form a cycle. -/
def order (graph : Graph) (ids : List ClassId) : Except Error (List ClassId) :=
  settle graph (ids.length * ids.length) ids

/-! ## Rows -/

variable (engine : Engine) (settings : Settings)

/-- What the row of an item holds: the values of the item, and the next key if a sequence gives it
and the engine can ask for it. -/
def cells (c : Graph.Class) (table : Table) (item : Item) : List (String × Cell) :=
  (Table.columnProperties c).filterMap fun (property, column) =>
    match item.values.get? property.name with
    | some value => some (column, .literal value)
    | none =>
      if property.isPrimaryKey && table.usesSequence engine
          && (engine.nextValue? table.name).isSome then
        some (column, .nextKey)
      else none

/-- Whether an item brings its own key. -/
def bringsKey (c : Graph.Class) (item : Item) : Bool :=
  c.primaryKey?.any fun key => item.values.contains key.name

/-- The statement that lets the rows of a table bring their own key, or ends that, if the engine has
one. -/
def switchStatements (table : String) (on : Bool) : List Statement :=
  if (engine.identityInsert? table on).isSome then [.identityInsert table on] else []

/-- The statements for the rows of items. Rows may bring their own key for a numbered column only
while that is switched on; `on` tells whether it is. Items without any value are left out. -/
def rowStatements (c : Graph.Class) (table : Table) (on : Bool) : List Item → List Statement
  | [] => if on then switchStatements engine table.name false else []
  | item :: rest =>
    match cells engine c table item with
    | [] => rowStatements c table on rest
    | cells =>
      let next := table.usesIdentity engine && bringsKey c item
      (if next != on then switchStatements engine table.name next else [])
        ++ .insertRow table.name cells :: rowStatements c table next rest

def rows (c : Graph.Class) (table : Table) : Script :=
  Schema.heading c table :: (rowStatements engine c table false c.items).map .statement

/-- The number of rows of a list: items without any value have none. -/
def rowCount (c : Graph.Class) (table : Table) : Nat :=
  c.items.countP fun item => !(cells engine c table item).isEmpty

/-! ## Translations -/

/-- A column and its value that tell the row of an item: those of the key, or else of a unique
property. -/
def filter? (c : Graph.Class) (item : Item) : Option (String × Seed.Value) :=
  (c.primaryKeys ++ c.properties.filter (·.isUnique)).findSome? fun property => do
    return (← property.column, ← item.values.get? property.name)

def itemTranslations (c : Graph.Class) (table : Table) (keyColumn : String) (item : Item) :
    List Statement :=
  match filter? c item with
  | none => []
  | some (filterColumn, filterValue) =>
    item.translations.entries.map fun (language, label) =>
      .insertTranslation {
        translationTable := settings.translationTable
        className := c.name
        table := table.name
        keyColumn, language, label, filterColumn, filterValue }

/-- The translated labels of a reference list. -/
def translations (c : Graph.Class) (table : Table) : Script :=
  match c.stereotype, c.primaryKey?.bind (·.column) with
  | .reference, some keyColumn =>
    (c.items.flatMap (itemTranslations settings c table keyColumn)).map .statement
  | _, _ => []

/-! ## Scripts -/

/-- The lists with items. -/
def lists (graph : Graph) : List ClassId :=
  graph.persistentIds.filter fun id =>
    let c := graph.classAt id
    c.stereotype.isList && !c.items.isEmpty

def listRound (c : Graph.Class) (table : Table) : Scripts :=
  { Scripts.empty with
    data := rows engine c table
    translations := translations settings c table }

/-- The two seed scripts of a graph. -/
def generate (graph : Graph) : Generation :=
  match order graph (lists graph) with
  | .error error => ⟨[], some error⟩
  | .ok ids =>
    let (tables, error) := Schema.tables graph (Schema.table engine settings graph) ids
    ⟨tables.map fun (c, table) => listRound engine settings c table, error⟩

/-- The number of rows in the seed scripts of a graph, if those can be written. -/
def rowTotal (graph : Graph) : Except Error Nat := do
  let ids ← order graph (lists graph)
  ids.foldlM
    (fun total id => do
      let table ← Schema.table engine settings graph id
      return total + rowCount engine (graph.classAt id) table)
    0

end ModelSchema.Sql.Seeding

namespace ModelSchema.Sql

/-- All scripts of a graph. The seed scripts are written once the schema scripts are complete. -/
def generate (engine : Engine) (settings : Settings) (graph : Graph) : Generation :=
  let schema := Schema.generate engine settings graph
  match schema.error with
  | some _ => schema
  | none =>
    let seeding := Seeding.generate engine settings graph
    ⟨schema.rounds ++ seeding.rounds, seeding.error⟩

end ModelSchema.Sql
