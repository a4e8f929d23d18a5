import ModelSchema.Text.Letter.Table

/-!
# Letters, cases and upper case

Character classes used to split names into words. ASCII is decided by core's own functions, so
statements about ASCII names need no table; every other character is looked up in the tables.
-/

namespace ModelSchema.Text

def isAlphanumeric (c : Char) : Bool :=
  if c.toNat < 128 then c.isAlphanum
  else Letter.alphanumericRuns.any fun run => run.1 ≤ c.toNat && c.toNat ≤ run.2

def isUppercase (c : Char) : Bool :=
  if c.toNat < 128 then c.isUpper
  else Letter.uppercaseRuns.any (·.contains c.toNat)

def isLowercase (c : Char) : Bool :=
  if c.toNat < 128 then c.isLower
  else Letter.lowercaseRuns.any (·.contains c.toNat)

/-- The upper case of a character: usually one character, sometimes more (`ß` gives `SS`). -/
def uppercase (c : Char) : List Char :=
  if c.toNat < 128 then [c.toUpper]
  else match Letter.expansions.lookup c.toNat with
    | some codes => codes.map Char.ofNat
    | none =>
      match Letter.shiftedRuns.find? (·.contains c.toNat) with
      | some run => [Char.ofNat (c.toNat + run.shift).toNat]
      | none => [c]

end ModelSchema.Text
