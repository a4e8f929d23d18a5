/-!
# Characters of XML documents

Which characters a document may hold, which separate its tokens, and which may stand in a name.
-/

namespace ModelSchema.Xml

/-- White space between tokens. -/
def isSpace (c : Char) : Bool :=
  c == ' ' || c == '\t' || c == '\n' || c == '\r'

/-- Control characters other than white space, and two reserved code points, are not allowed. -/
def isAllowed (c : Char) : Bool :=
  if c.toNat < 0x20 then isSpace c else c.toNat != 0xfffe && c.toNat != 0xffff

/-- The ranges beyond ASCII that a name may start with. -/
def nameStartRanges : List (Nat × Nat) :=
  [(0xc0, 0xd6), (0xd8, 0xf6), (0xf8, 0x2ff), (0x370, 0x37d), (0x37f, 0x1fff), (0x200c, 0x200d),
    (0x2070, 0x218f), (0x2c00, 0x2fef), (0x3001, 0xd7ff), (0xf900, 0xfdcf), (0xfdf0, 0xfffd),
    (0x10000, 0xeffff)]

/-- The further ranges beyond ASCII that may stand inside a name. -/
def nameInnerRanges : List (Nat × Nat) :=
  [(0xb7, 0xb7), (0x300, 0x36f), (0x203f, 0x2040)]

def isIn (ranges : List (Nat × Nat)) (code : Nat) : Bool :=
  ranges.any fun range => range.1 ≤ code && code ≤ range.2

/-- What a name may start with. -/
def isNameStart (c : Char) : Bool :=
  if c.toNat < 128 then c.isAlpha || c == '_' || c == ':' else isIn nameStartRanges c.toNat

/-- What may stand inside a name. -/
def isName (c : Char) : Bool :=
  if c.toNat < 128 then c.isAlphanum || c == '_' || c == ':' || c == '-' || c == '.'
  else isIn nameStartRanges c.toNat || isIn nameInnerRanges c.toNat

end ModelSchema.Xml
