import ModelSchema.Toml.Value

/-!
# Tables in the making

While a document is read, tables carry marks. An implicit table has been named only as part of a
longer name and may be declared later; a dotted one was made by a dotted key and may be extended
only by dotted keys. A table written as a value is closed.
-/

namespace ModelSchema.Toml

/-- What a name stands for while a document is read. -/
inductive Item where
  | value (value : Value)
  | table (isImplicit isDotted : Bool) (entries : List (String × Item))
  /-- Tables of one name, each in its own section; the last one comes first. -/
  | tables (elements : List (List (String × Item)))
deriving Inhabited

/-- A table with its marks. -/
structure Tree where
  isImplicit : Bool
  isDotted : Bool
  entries : List (String × Item)

namespace Tree

/-- A table with a section of its own. -/
def declared (entries : List (String × Item)) : Tree :=
  ⟨false, false, entries⟩

def item (tree : Tree) : Item :=
  .table tree.isImplicit tree.isDotted tree.entries

/-- Put an item in place of the one with its name, or at the end. -/
def set (tree : Tree) (name : String) (item : Item) : Tree :=
  { tree with
    entries :=
      if tree.entries.any (·.1 == name) then
        tree.entries.map fun entry => if entry.1 = name then (name, item) else entry
      else tree.entries ++ [(name, item)] }

def erase (tree : Tree) (name : String) : Tree :=
  { tree with entries := tree.entries.filter fun entry => entry.1 != name }

/-- Change the table at the end of a path. Missing tables on the way are made; of several tables of
one name the last is meant. Nothing closed may lie on the way, and for a dotted key only implicit
tables. -/
def modifyAt (isDotted : Bool) (change : Tree → Option Tree) : List String → Tree → Option Tree
  | [], tree => change tree
  | name :: path, tree => do
    match tree.entries.lookup name with
    | none => return tree.set name (← modifyAt isDotted change path ⟨true, isDotted, []⟩).item
    | some (.value _) => none
    | some (.table isImplicit wasDotted entries) =>
      if isDotted && !isImplicit then none
      else
        return tree.set name (← modifyAt isDotted change path ⟨isImplicit, wasDotted, entries⟩).item
    | some (.tables []) => none
    | some (.tables (last :: older)) =>
      return tree.set name
        (.tables ((← modifyAt isDotted change path (.declared last)).entries :: older))

/-- Add a value under a dotted key. The last table on the way must be one made by dotted keys, or
the table itself if the key has one part. -/
def insert (path : List String) (name : String) (value : Value) (tree : Tree) : Option Tree :=
  modifyAt true
    (fun tree =>
      if tree.isDotted == path.isEmpty then none
      else if tree.entries.any (·.1 == name) then none
      else some (tree.set name (.value value)))
    path tree

end Tree

mutual

def Item.toValue : Item → Value
  | .value value => value
  | .table _ _ entries => .table (entriesOf entries)
  | .tables elements => .array (tablesOf elements).reverse

def entriesOf : List (String × Item) → Entries
  | [] => []
  | (name, item) :: rest => (name, item.toValue) :: entriesOf rest

def tablesOf : List (List (String × Item)) → List Value
  | [] => []
  | entries :: rest => .table (entriesOf entries) :: tablesOf rest

end

/-- Split a key into the path to a table and the name in it. -/
def splitKey? : List String → Option (List String × String)
  | [] => none
  | [name] => some ([], name)
  | part :: rest => (splitKey? rest).map fun (path, name) => (part :: path, name)

def Tree.insertAt? (tree : Tree) (key : List String) (value : Value) : Option Tree := do
  let (path, name) ← splitKey? key
  tree.insert path name value

/-- The table of pairs written as a value. -/
def ofPairs? (pairs : List (List String × Value)) : Option Value := do
  let tree ← pairs.foldlM (fun tree pair => Tree.insertAt? tree pair.1 pair.2) (Tree.declared [])
  return tree.item.toValue

end ModelSchema.Toml
