import ModelSchema.Multiplicity
import ModelSchema.Outline
import ModelSchema.Stereotype

/-!
# What becomes of an association

Associations are not kept as such. Each one gives its classes properties, or is rejected: a
composition gives the owner a child, an end with at most one instance is referred to from the other
end, and two ends with many instances give one of them a list.
-/

namespace ModelSchema.Association

/-- What matters about one end. -/
structure Participant where
  stereotype : Stereotype
  isPersistent : Bool
  multiplicity : Multiplicity
deriving DecidableEq, Repr

/-- Why an end gets no property. -/
inductive Rejection where
  /-- Many instances on both sides, and both classes have tables. -/
  | manyToManyBetweenTables
  /-- A table would refer to a class that has none. -/
  | persistentToTransient
deriving DecidableEq, Repr

/-- What becomes of one direction of an association. -/
inductive Resolution where
  /-- The holder refers to one instance of the other end. -/
  | foreignKey (holder : Side) (isRequired : Bool)
  /-- The holder refers to any number of instances of the other end. -/
  | foreignKeyList (holder : Side) (isPersistent : Bool)
  /-- The owner holds one or more instances of the other end. -/
  | composedChild (owner : Side) (isCollection : Bool)
  /-- The holder gets nothing. -/
  | rejected (holder : Side) (reason : Rejection)
deriving DecidableEq, Repr

/-- Which lists may hold many instances of which other classes although both have tables. -/
def admitsManyToMany : Stereotype → Stereotype → Bool
  | .static, .static | .reference, .plain | .reference, .static => true
  | _, _ => false

def foreignKey (holder : Side) (holderEnd targetEnd : Participant) : Resolution :=
  if holderEnd.isPersistent && !targetEnd.isPersistent then
    .rejected holder .persistentToTransient
  else .foreignKey holder (targetEnd.multiplicity == .exactlyOne)

/-- A list of references from end A to end B. It never becomes a column. -/
def foreignKeyList (a b : Participant) : Resolution :=
  if !a.isPersistent then .foreignKeyList .a false
  else if !b.isPersistent then .rejected .a .persistentToTransient
  else if admitsManyToMany a.stereotype b.stereotype then .foreignKeyList .a false
  else .rejected .a .manyToManyBetweenTables

def resolve (a b : Participant) : Option Side → List Resolution
  | some .a => [.composedChild .a b.multiplicity.isMany]
  | some .b => [.composedChild .b a.multiplicity.isMany]
  | none =>
    (if b.multiplicity.isSingle then [foreignKey .a a b] else [])
      ++ (if a.multiplicity.isSingle then [foreignKey .b b a] else [])
      ++ (if a.multiplicity.isMany && b.multiplicity.isMany then [foreignKeyList a b] else [])

end ModelSchema.Association
