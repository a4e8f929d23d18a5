import ModelSchema.Json.Number

/-!
# Reading JSON text

`Json.parse?` reads a text that holds one value, with blanks around it. The grammar is the standard
one. Whether a string or number can be represented is no matter of grammar: see `Json.unusable`.
-/

namespace ModelSchema.Json

/-- The blanks that may stand between tokens. -/
def isBlank (c : Char) : Bool :=
  c == ' ' || c == '\t' || c == '\n' || c == '\r'

/-- What follows the blanks at the start. -/
def skipBlanks (cs : List Char) : List Char :=
  cs.dropWhile isBlank

/-! ## Strings -/

def hexValue? (c : Char) : Option Nat :=
  if c.isDigit then some (c.toNat - '0'.toNat)
  else if 'a' ≤ c ∧ c ≤ 'f' then some (c.toNat - 'a'.toNat + 10)
  else if 'A' ≤ c ∧ c ≤ 'F' then some (c.toNat - 'A'.toNat + 10)
  else none

def hexUnit? (a b c d : Char) : Option Nat := do
  return (((← hexValue? a) * 16 + (← hexValue? b)) * 16 + (← hexValue? c)) * 16 + (← hexValue? d)

/-- The first half of a surrogate pair. -/
def isHighSurrogate (unit : Nat) : Bool :=
  0xd800 ≤ unit && unit < 0xdc00

/-- The second half of a surrogate pair. -/
def isLowSurrogate (unit : Nat) : Bool :=
  0xdc00 ≤ unit && unit < 0xe000

def ofSurrogates (high low : Nat) : Char :=
  Char.ofNat (0x10000 + (high - 0xd800) * 0x400 + (low - 0xdc00))

/-- The character that a one-letter escape stands for. -/
def unescape? (c : Char) : Option Char :=
  if c = '"' ∨ c = '\\' ∨ c = '/' then some c
  else if c = 'b' then some '\x08'
  else if c = 't' then some '\t'
  else if c = 'n' then some '\n'
  else if c = 'f' then some '\x0c'
  else if c = 'r' then some '\r'
  else none

/-- A string read so far: its characters, last one first, the first half of a surrogate pair if that
is what came last, and whether some half has stayed alone. -/
structure Pending where
  chars : List Char
  high : Option Nat
  isBroken : Bool

namespace Pending

def empty : Pending := ⟨[], none, false⟩

def push (pending : Pending) (c : Char) : Pending :=
  ⟨c :: pending.chars, none, pending.isBroken || pending.high.isSome⟩

/-- Add what four hexadecimal digits stand for. -/
def pushUnit (pending : Pending) (unit : Nat) : Pending :=
  match pending.high with
  | some high =>
    if isLowSurrogate unit then ⟨ofSurrogates high unit :: pending.chars, none, pending.isBroken⟩
    else ⟨pending.chars, none, true⟩
  | none =>
    if isHighSurrogate unit then ⟨pending.chars, some unit, pending.isBroken⟩
    else if isLowSurrogate unit then ⟨pending.chars, none, true⟩
    else pending.push (Char.ofNat unit)

/-- The string, unless half a surrogate pair stands alone in it. -/
def finish (pending : Pending) : Option String :=
  if pending.isBroken || pending.high.isSome then none
  else some (String.ofList pending.chars.reverse)

end Pending

/-- Read a string after its opening quote, up to and including the closing one. -/
def stringRest? (pending : Pending) : List Char → Option (Option String × List Char)
  | [] => none
  | '"' :: rest => some (pending.finish, rest)
  | '\\' :: 'u' :: a :: b :: c :: d :: rest =>
    match hexUnit? a b c d with
    | some unit => stringRest? (pending.pushUnit unit) rest
    | none => none
  | '\\' :: c :: rest =>
    match unescape? c with
    | some c => stringRest? (pending.push c) rest
    | none => none
  | c :: rest =>
    if c.toNat < 0x20 ∨ c = '\\' then none else stringRest? (pending.push c) rest

def string? (cs : List Char) : Option (Option String × List Char) :=
  stringRest? .empty cs

/-! ## Values -/

/-- An object, if all its keys can be represented. -/
def ofFields (fields : List (Option String × Json)) : Json :=
  match fields.mapM fun (name, value) => name.map (·, value) with
  | some fields => object fields
  | none => unusable

mutual

/-- Read the value that a text starts with. The first argument bounds the nesting. -/
def value? : Nat → List Char → Option (Json × List Char)
  | 0, _ => none
  | fuel + 1, cs =>
    match skipBlanks cs with
    | 'n' :: 'u' :: 'l' :: 'l' :: rest => some (null, rest)
    | 't' :: 'r' :: 'u' :: 'e' :: rest => some (bool true, rest)
    | 'f' :: 'a' :: 'l' :: 's' :: 'e' :: rest => some (bool false, rest)
    | '"' :: rest =>
      (string? rest).map fun (s, rest) => (s.elim unusable text, rest)
    | '[' :: rest =>
      match skipBlanks rest with
      | ']' :: rest => some (array [], rest)
      | rest => (items? fuel rest).map fun (items, rest) => (array items, rest)
    | '\x7b' :: rest =>
      match skipBlanks rest with
      | '\x7d' :: rest => some (object [], rest)
      | rest => (fields? fuel rest).map fun (fields, rest) => (ofFields fields, rest)
    | cs => (numeral? cs).map fun (numeral, rest) => (numeral.value, rest)

/-- Read one or more items and the closing bracket. -/
def items? : Nat → List Char → Option (List Json × List Char)
  | 0, _ => none
  | fuel + 1, cs =>
    match value? fuel cs with
    | none => none
    | some (item, rest) =>
      match skipBlanks rest with
      | ',' :: rest => (items? fuel rest).map fun (items, rest) => (item :: items, rest)
      | ']' :: rest => some ([item], rest)
      | _ => none

def fields? : Nat → List Char → Option (List (Option String × Json) × List Char)
  | 0, _ => none
  | fuel + 1, cs =>
    match skipBlanks cs with
    | '"' :: rest =>
      match string? rest with
      | none => none
      | some (name, rest) =>
        match skipBlanks rest with
        | ':' :: rest =>
          match value? fuel rest with
          | none => none
          | some (value, rest) =>
            match skipBlanks rest with
            | ',' :: rest =>
              (fields? fuel rest).map fun (fields, rest) => ((name, value) :: fields, rest)
            | '\x7d' :: rest => some ([(name, value)], rest)
            | _ => none
        | _ => none
    | _ => none

end

/-- The value of a text. Each level of nesting takes at least one character, so twice the length of
the text bounds the nesting of calls. -/
def parse? (s : String) : Option Json :=
  let cs := s.toList
  match value? (2 * cs.length + 2) cs with
  | some (json, rest) => if (skipBlanks rest).isEmpty then some json else none
  | none => none

end ModelSchema.Json
