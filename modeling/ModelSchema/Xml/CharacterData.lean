import ModelSchema.Xml.Character

/-!
# Character data

Texts and attribute values are written with references for some characters, and with line ends that
have to be brought to one form. A piece is one character of such data, with the knowledge whether it
was written as itself or by a reference. When line ends are changed, a reference is left alone, and
in a text so is the character right after it.
-/

namespace ModelSchema.Xml

/-- One character of a text or attribute value. -/
inductive Piece where
  | literal (c : Char)
  | reference (c : Char)
deriving DecidableEq, Repr

/-! ## References -/

def hexValue? (c : Char) : Option Nat :=
  if c.isDigit then some (c.toNat - '0'.toNat)
  else if 'a' ≤ c ∧ c ≤ 'f' then some (c.toNat - 'a'.toNat + 10)
  else if 'A' ≤ c ∧ c ≤ 'F' then some (c.toNat - 'A'.toNat + 10)
  else none

def decimalValue (digits : List Char) : Nat :=
  digits.foldl (fun value c => 10 * value + (c.toNat - '0'.toNat)) 0

def hexadecimalValue (digits : List Char) : Nat :=
  digits.foldl (fun value c => 16 * value + (hexValue? c).getD 0) 0

/-- The character with a number. Numbers of no character stand for the replacement character, but
those of 32 bits or more, and those of characters that are not allowed, stand for nothing. -/
def numbered? (digits : List Char) (value : Nat) : Option Char :=
  if digits.isEmpty || Nat.pow 2 32 ≤ value then none
  else
    let c := if value.isValidChar then Char.ofNat value else Char.ofNat 0xfffd
    if isAllowed c then some c else none

/-- The character of one of the five names that need no declaration. -/
def named? (name : List Char) : Option Char :=
  match String.ofList name with
  | "quot" => some '"'
  | "amp" => some '&'
  | "apos" => some '\''
  | "lt" => some '<'
  | "gt" => some '>'
  | _ => none

/-- Read a reference after its ampersand. -/
def reference? (cs : List Char) : Option (Char × List Char) := do
  let (c, rest) ←
    match cs with
    | '#' :: 'x' :: cs =>
      let isHex (c : Char) := (hexValue? c).isSome
      let digits := cs.takeWhile isHex
      (numbered? digits (hexadecimalValue digits)).map (·, cs.dropWhile isHex)
    | '#' :: cs =>
      let digits := cs.takeWhile Char.isDigit
      (numbered? digits (decimalValue digits)).map (·, cs.dropWhile Char.isDigit)
    | cs => (named? (cs.takeWhile isName)).map (·, cs.dropWhile isName)
  match rest with
  | ';' :: rest => some (c, rest)
  | _ => none

/-- The pieces of character data. Each takes at least one character, so the length of the data
bounds their number. -/
def pieces? : Nat → List Char → Option (List Piece)
  | _, [] => some []
  | 0, _ :: _ => none
  | fuel + 1, '&' :: cs =>
    match reference? cs with
    | some (c, rest) => (pieces? fuel rest).map (.reference c :: ·)
    | none => none
  | fuel + 1, c :: cs => (pieces? fuel cs).map (.literal c :: ·)

/-! ## Line ends -/

/-- Add a character written as itself to a text, whose last character comes first. A carriage return
before it becomes a line feed and takes in a line feed; one at the end of the text becomes a line
feed too. -/
def pushLiteral (isLast : Bool) (c : Char) : List Char → List Char
  | '\r' :: older =>
    if c == '\r' && isLast then '\n' :: '\n' :: older
    else if c == '\n' then '\n' :: older
    else c :: '\n' :: older
  | buffer => if c == '\r' && isLast then '\n' :: buffer else c :: buffer

/-- The characters of a text; `isBound` tells whether a reference stands right before. -/
def textOf (isBound : Bool) (buffer : List Char) : List Piece → List Char
  | [] => buffer.reverse
  | .reference c :: rest => textOf true (c :: buffer) rest
  | .literal c :: rest =>
    textOf false (if isBound then c :: buffer else pushLiteral rest.isEmpty c buffer) rest

/-- The characters of an attribute value: each line end and tab becomes a space. -/
def valueOf (buffer : List Char) : List Piece → List Char
  | [] => buffer.reverse
  | .reference c :: rest => valueOf (c :: buffer) rest
  | .literal '\r' :: .literal '\n' :: rest => valueOf (' ' :: buffer) rest
  | .literal c :: rest => valueOf ((if isSpace c then ' ' else c) :: buffer) rest

/-- The text that character data stands for. -/
def decodeText? (cs : List Char) : Option (List Char) :=
  (pieces? cs.length cs).map (textOf false [])

def decodeValue? (cs : List Char) : Option (List Char) :=
  (pieces? cs.length cs).map (valueOf [])

/-- The text of a section in which nothing is a reference. -/
def sectionText (cs : List Char) : List Char :=
  textOf false [] (cs.map .literal)

end ModelSchema.Xml
