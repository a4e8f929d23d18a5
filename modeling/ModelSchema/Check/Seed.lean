import ModelSchema.Check.Options
import ModelSchema.Graph.Basic

/-!
# Checks of seed data

Every batch is for a list of the right kind, and its items have a value for each column that is not
a key. A static list that refers back to itself over other lists cannot be filled in any order; each
such cycle is reported once.
-/

namespace ModelSchema.Check.Seed

open ModelSchema.Seed (Batch Item)

/-! ## Cycles -/

/-- The classes that a class refers to one instance of. -/
def targets (graph : Graph) (id : ClassId) : List ClassId :=
  (graph.classAt id).properties.filterMap (·.target?)

/-- Search for a way back to `start`, depth first. The stack holds the classes on the way, the last
one first, each with the references that have not been followed yet. No class is entered twice. -/
def searchCycle (graph : Graph) (start : ClassId) :
    Nat → List ClassId → List (ClassId × List ClassId) → Option (List ClassId)
  | 0, _, _ => none
  | _, _, [] => none
  | fuel + 1, visited, (_, []) :: stack => searchCycle graph start fuel visited stack
  | fuel + 1, visited, (id, target :: others) :: stack =>
    if target = start then some ((id :: stack.map (·.1)).reverse)
    else if target ∈ visited then searchCycle graph start fuel visited ((id, others) :: stack)
    else
      searchCycle graph start fuel (target :: visited)
        ((target, targets graph target) :: (id, others) :: stack)

/-- The classes on a way from a class back to itself, which comes first. Each step of the search
follows a reference or leaves a class, and neither happens twice for one of them; that bounds the
number of steps. -/
def findCycle? (graph : Graph) (start : ClassId) : Option (List ClassId) :=
  let references := (graph.classIds.flatMap (targets graph)).length
  searchCycle graph start (2 * references + 3) [start] [(start, targets graph start)]

/-- Whether two cycles pass through the same classes. -/
def sameMembers (a b : List ClassId) : Bool :=
  a.all b.contains && b.all a.contains

/-! ## Batches -/

def fits : Seed.Kind → Stereotype → Bool
  | .static, .static | .reference, .reference => true
  | _, _ => false

/-- Whether a batch is for the kind of list that the class is. -/
def kind (c : Graph.Class) (batch : Batch) : List Diagnostic :=
  findIf (!fits batch.kind c.stereotype)
    ((Diagnostic.report .initStereotypeMismatch c.file
      ("Initializer factory " ++ batch.factory ++ " fills a " ++ batch.kind.key
        ++ " list but class " ++ c.name ++ " is " ++ c.stereotype.label))
      |>.comparing batch.kind.key c.stereotype.label)

/-- Whether an item has the values it needs, and no others. -/
def item (c : Graph.Class) (item : Item) : List Diagnostic :=
  let needed := c.properties.filter fun property => property.isColumn && !property.isPrimaryKey
  let missing := needed.filter fun property => !item.values.contains property.name
  let unknown := item.values.names.filter fun name => (c.property? name).isNone
  missing.map (fun property =>
      .report .initMissingValue c.file
        ("Item " ++ item.name ++ " of " ++ c.name ++ " has no value for " ++ property.name))
    ++ unknown.map fun name =>
      .report .initUnknownProperty c.file
        ("Item " ++ item.name ++ " of " ++ c.name ++ " sets unknown property " ++ name)

def cycleFinding (graph : Graph) (id : ClassId) (cycle : List ClassId) : Diagnostic :=
  let c := graph.classAt id
  let path := (cycle ++ [id]).map fun id => (graph.classAt id).name
  (Diagnostic.report .initStaticCycle c.file
    ("Static list " ++ c.name ++ " references itself: " ++ Text.join " -> " path))
    |>.relatedTo path

/-- A cycle through a static list with a batch, unless it has been reported. -/
def newCycle? (graph : Graph) (reported : List (List ClassId)) (id : ClassId) (batch : Batch) :
    Option (List ClassId) :=
  if batch.kind == .static && (graph.classAt id).stereotype == .static then
    (findCycle? graph id).filter fun cycle => !reported.any (sameMembers cycle)
  else none

def unknownClass (source : Option String) (name : String) (batch : Batch) : Diagnostic :=
  { Diagnostic.new .initUnknownClass
      ("Initializer factory " ++ batch.factory ++ " targets unknown class " ++ name) with
    file := source }

/-- The findings about batches, given the cycles reported before. -/
def batches (graph : Graph) (source : Option String) (reported : List (List ClassId)) :
    List (String × Batch) → List Diagnostic
  | [] => []
  | (name, batch) :: rest =>
    match graph.classNamed? name with
    | none => unknownClass source name batch :: batches graph source reported rest
    | some id =>
      let c := graph.classAt id
      kind c batch ++ batch.items.flatMap (item c)
        ++ match newCycle? graph reported id batch with
          | some cycle =>
            cycleFinding graph id cycle :: batches graph source (cycle :: reported) rest
          | none => batches graph source reported rest

def check (graph : Graph) (seed : ModelSchema.Seed) : List Diagnostic :=
  batches graph seed.source [] seed.batches.entries

end ModelSchema.Check.Seed
