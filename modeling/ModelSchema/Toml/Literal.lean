import ModelSchema.Toml.Value

/-!
# Strings, numbers and times of TOML

Each reader takes the start of a text and gives what it read and what follows.
-/

namespace ModelSchema.Toml

/-! ## Blanks, line ends and comments -/

/-- Blanks inside a line. -/
def isBlank (c : Char) : Bool :=
  c == ' ' || c == '\t'

def skipBlanks (cs : List Char) : List Char :=
  cs.dropWhile isBlank

def lineEnd? : List Char → Option (List Char)
  | '\n' :: rest => some rest
  | '\r' :: '\n' :: rest => some rest
  | _ => none

/-- Characters that may stand in comments and strings: no control characters but the tab. -/
def isPlain (c : Char) : Bool :=
  c == '\t' || (0x20 ≤ c.toNat && c.toNat != 0x7f)

/-- What follows a comment, if one starts the text. -/
def skipComment : List Char → List Char
  | '#' :: rest => rest.dropWhile isPlain
  | cs => cs

/-- What follows the rest of a line: blanks, perhaps a comment, and the line end or the end of the
text. -/
def finishLine? (cs : List Char) : Option (List Char) :=
  match skipComment (skipBlanks cs) with
  | [] => some []
  | rest => lineEnd? rest

/-- What follows blanks, line ends and comments. Each round takes a line end, so the length of the
text bounds their number. -/
def skipLines? : Nat → List Char → Option (List Char)
  | 0, _ => none
  | fuel + 1, cs =>
    match skipBlanks cs with
    | '#' :: rest => (lineEnd? (rest.dropWhile isPlain)).bind (skipLines? fuel)
    | '\n' :: rest => skipLines? fuel rest
    | '\r' :: '\n' :: rest => skipLines? fuel rest
    | '\r' :: _ => none
    | rest => some rest

/-- The text that was read, given what follows it. -/
def taken (cs rest : List Char) : String :=
  String.ofList (cs.take (cs.length - rest.length))

/-! ## Strings -/

def hexValue? (c : Char) : Option Nat :=
  if c.isDigit then some (c.toNat - '0'.toNat)
  else if 'a' ≤ c ∧ c ≤ 'f' then some (c.toNat - 'a'.toNat + 10)
  else if 'A' ≤ c ∧ c ≤ 'F' then some (c.toNat - 'A'.toNat + 10)
  else none

/-- The character with a number of so many hexadecimal digits. -/
def codePoint? (count : Nat) (cs : List Char) : Option (Char × List Char) := do
  let digits ← (cs.take count).mapM hexValue?
  let value := digits.foldl (fun value digit => 16 * value + digit) 0
  if digits.length = count ∧ value.isValidChar then some (Char.ofNat value, cs.drop count) else none

/-- The character of an escape, after its backslash. -/
def escaped? : List Char → Option (Char × List Char)
  | 'b' :: rest => some ('\x08', rest)
  | 't' :: rest => some ('\t', rest)
  | 'n' :: rest => some ('\n', rest)
  | 'f' :: rest => some ('\x0c', rest)
  | 'r' :: rest => some ('\r', rest)
  | '"' :: rest => some ('"', rest)
  | '\\' :: rest => some ('\\', rest)
  | 'u' :: rest => codePoint? 4 rest
  | 'U' :: rest => codePoint? 8 rest
  | _ => none

/-- Read a string on one line after its opening quote; `buffer` holds what has been read, last
character first. -/
def basicRest? : Nat → List Char → List Char → Option (String × List Char)
  | 0, _, _ => none
  | _, buffer, '"' :: rest => some (String.ofList buffer.reverse, rest)
  | fuel + 1, buffer, '\\' :: rest =>
    match escaped? rest with
    | some (c, rest) => basicRest? fuel (c :: buffer) rest
    | none => none
  | fuel + 1, buffer, c :: rest => if isPlain c then basicRest? fuel (c :: buffer) rest else none
  | _, _, [] => none

/-- Read a string on one line without escapes, after its opening quote. -/
def literalRest? (cs : List Char) : Option (String × List Char) :=
  let isInner (c : Char) := isPlain c && c != '\''
  match cs.dropWhile isInner with
  | '\'' :: rest => some (String.ofList (cs.takeWhile isInner), rest)
  | _ => none

/-- What follows the line end and all blanks and line ends after a backslash at the end of a line.
-/
def continuation? (cs : List Char) : Option (List Char) :=
  (lineEnd? (skipBlanks cs)).map go
where
  /-- What follows blanks and line ends. -/
  go : List Char → List Char
    | '\r' :: '\n' :: rest => go rest
    | c :: rest => if isBlank c || c == '\n' then go rest else c :: rest
    | [] => []

/-- Read a string over several lines, up to three quotes in a row. One or two more quotes before
those belong to the string. -/
def multiRest? (quote : Char) : Nat → List Char → List Char → Option (String × List Char)
  | 0, _, _ => none
  | _, _, [] => none
  | fuel + 1, buffer, c :: rest =>
    if c = quote then
      let run := rest.takeWhile (· == quote)
      let after := rest.dropWhile (· == quote)
      let count := run.length + 1
      if count < 3 then multiRest? quote fuel (List.replicate count quote ++ buffer) after
      else if count ≤ 5 then
        some (String.ofList (List.replicate (count - 3) quote ++ buffer).reverse, after)
      else none
    else if c = '\\' ∧ quote = '"' then
      match continuation? rest with
      | some rest => multiRest? quote fuel buffer rest
      | none =>
        match escaped? rest with
        | some (c, rest) => multiRest? quote fuel (c :: buffer) rest
        | none => none
    else
      match lineEnd? (c :: rest) with
      | some rest => multiRest? quote fuel ('\n' :: buffer) rest
      | none => if isPlain c then multiRest? quote fuel (c :: buffer) rest else none

/-- What follows a line end at the start, if there is one. -/
def dropLineEnd (cs : List Char) : List Char :=
  (lineEnd? cs).getD cs

def lineString? : List Char → Option (String × List Char)
  | '"' :: rest => basicRest? (rest.length + 1) [] rest
  | '\'' :: rest => literalRest? rest
  | _ => none

/-- Read a string. A line end right after three quotes is dropped. -/
def string? : List Char → Option (String × List Char)
  | '"' :: '"' :: '"' :: rest => multiRest? '"' (rest.length + 1) [] (dropLineEnd rest)
  | '\'' :: '\'' :: '\'' :: rest => multiRest? '\'' (rest.length + 1) [] (dropLineEnd rest)
  | cs => lineString? cs

/-! ## Numbers -/

/-- The digits that continue a run. An underscore must stand between two digits. -/
def moreDigits? (isDigit : Char → Bool) : List Char → Option (List Char × List Char)
  | '_' :: c :: rest =>
    if isDigit c then (moreDigits? isDigit rest).map fun (digits, rest) => (c :: digits, rest)
    else none
  | c :: rest =>
    if isDigit c then (moreDigits? isDigit rest).map fun (digits, rest) => (c :: digits, rest)
    else if c = '_' then none
    else some ([], c :: rest)
  | [] => some ([], [])

/-- Digits with single underscores between them. -/
def digitRun? (isDigit : Char → Bool) : List Char → Option (List Char × List Char)
  | c :: rest =>
    if isDigit c then (moreDigits? isDigit rest).map fun (digits, rest) => (c :: digits, rest)
    else none
  | [] => none

def sign : List Char → Bool × List Char
  | '+' :: rest => (false, rest)
  | '-' :: rest => (true, rest)
  | cs => (false, cs)

/-- A whole number in decimal digits, without zeros in front. -/
def decimal? (cs : List Char) : Option ((Bool × List Char) × List Char) :=
  let (isNegative, cs) := sign cs
  match cs with
  | '0' :: rest => some ((isNegative, ['0']), rest)
  | cs => (digitRun? Char.isDigit cs).map fun (digits, rest) => ((isNegative, digits), rest)

def digitsValue (base : Nat) (digits : List Char) : Nat :=
  digits.foldl (fun value c => base * value + (hexValue? c).getD 0) 0

/-- A whole number of 64 bits. -/
def integer? (cs : List Char) : Option (Value × List Char) :=
  let inBase (base : Nat) (isDigit : Char → Bool) (cs : List Char) :
      Option (Value × List Char) := do
    let (digits, rest) ← digitRun? isDigit cs
    let value := digitsValue base digits
    if value < Nat.pow 2 63 then some (.integer value, rest) else none
  match cs with
  | '0' :: 'x' :: rest => inBase 16 (fun c => (hexValue? c).isSome) rest
  | '0' :: 'o' :: rest => inBase 8 (fun c => '0' ≤ c && c ≤ '7') rest
  | '0' :: 'b' :: rest => inBase 2 (fun c => c == '0' || c == '1') rest
  | cs => do
    let ((isNegative, digits), rest) ← decimal? cs
    let value : Int := digitsValue 10 digits
    let value := if isNegative then -value else value
    if -(Nat.pow 2 63 : Nat) ≤ value ∧ value < (Nat.pow 2 63 : Nat) then some (.integer value, rest)
    else none

def fraction? : List Char → Option (List Char × List Char)
  | '.' :: rest => digitRun? Char.isDigit rest
  | _ => none

def exponent? : List Char → Option ((Bool × List Char) × List Char)
  | c :: rest =>
    if c = 'e' ∨ c = 'E' then
      let (isNegative, rest) := sign rest
      (digitRun? Char.isDigit rest).map fun (digits, rest) => ((isNegative, digits), rest)
    else none
  | [] => none

/-- Whether a positive number is too large for a double. -/
def isOverflow (whole fraction : List Char) (exponent : Int) : Bool :=
  let significand := digitsValue 10 (whole ++ fraction)
  let power := exponent - fraction.length
  if significand = 0 then false
  else if power < 0 then (Float.ofScientific significand true power.natAbs).isInf
  else if 400 < power then true
  else (Float.ofScientific significand false power.natAbs).isInf

/-- A number with fraction or exponent. A positive one may not be too large for a double. -/
def float? (cs : List Char) : Option (Value × List Char) := do
  let ((isNegative, whole), rest) ← decimal? cs
  let (fraction, rest, exponent) ←
    match rest with
    | '.' :: _ => do
      let (fraction, rest) ← fraction? rest
      match rest with
      | 'e' :: _ | 'E' :: _ =>
        (exponent? rest).map fun (exponent, rest) => (fraction, rest, exponent)
      | _ => some (fraction, rest, (false, ['0']))
    | _ => (exponent? rest).map fun (exponent, rest) => ([], rest, exponent)
  let power : Int := digitsValue 10 exponent.2
  let power := if exponent.1 then -power else power
  if !isNegative && isOverflow whole fraction power then none
  else some (.float (taken cs rest), rest)

/-- The names of infinity and of the value that is no number. -/
def specialFloat? (cs : List Char) : Option (Value × List Char) :=
  match (sign cs).2 with
  | 'i' :: 'n' :: 'f' :: rest => some (.float (taken cs rest), rest)
  | 'n' :: 'a' :: 'n' :: rest => some (.float (taken cs rest), rest)
  | _ => none

/-! ## Times -/

/-- A number of so many digits in a range. -/
def fixed? (count low high : Nat) (cs : List Char) : Option (Nat × List Char) :=
  let digits := cs.take count
  let value := digitsValue 10 digits
  if digits.length = count ∧ digits.all Char.isDigit ∧ low ≤ value ∧ value ≤ high then
    some (value, cs.drop count)
  else none

def after? (c : Char) : List Char → Option (List Char)
  | d :: rest => if d = c then some rest else none
  | [] => none

def daysIn (year month : Nat) : Nat :=
  if month = 2 then
    if year % 4 = 0 ∧ (year % 100 ≠ 0 ∨ year % 400 = 0) then 29 else 28
  else if [4, 6, 9, 11].contains month then 30
  else 31

def date? (cs : List Char) : Option (List Char) := do
  let (year, cs) ← fixed? 4 0 9999 cs
  let (month, cs) ← fixed? 2 1 12 (← after? '-' cs)
  let (_, cs) ← fixed? 2 1 (daysIn year month) (← after? '-' cs)
  return cs

def time? (cs : List Char) : Option (List Char) := do
  let (_, cs) ← fixed? 2 0 23 cs
  let (_, cs) ← fixed? 2 0 59 (← after? ':' cs)
  let (_, cs) ← fixed? 2 0 60 (← after? ':' cs)
  match cs with
  | '.' :: c :: rest => if c.isDigit then return rest.dropWhile Char.isDigit else return cs
  | _ => return cs

/-- What follows the offset of a time, if there is one. -/
def skipOffset? (cs : List Char) : Option (List Char) :=
  match cs with
  | 'Z' :: rest | 'z' :: rest => some rest
  | '+' :: rest | '-' :: rest => do
    let (_, rest) ← fixed? 2 0 23 rest
    let (_, rest) ← fixed? 2 0 59 (← after? ':' rest)
    return rest
  | _ => some cs

/-- What follows a date, a time, or both. -/
def skipDatetime? (cs : List Char) : Option (List Char) :=
  match date? cs with
  | some (c :: rest) =>
    if c = 'T' ∨ c = 't' ∨ c = ' ' then
      match time? rest with
      | some rest => skipOffset? rest
      | none => some (c :: rest)
    else some (c :: rest)
  | some [] => some []
  | none => time? cs

/-- Read a date, a time, or both. -/
def datetime? (cs : List Char) : Option (Value × List Char) :=
  (skipDatetime? cs).map fun rest => (.datetime (taken cs rest), rest)

/-- Read a number or a time. -/
def number? (cs : List Char) : Option (Value × List Char) :=
  (datetime? cs).or ((float? cs).or ((specialFloat? cs).or (integer? cs)))

/-! ## Keys -/

/-- Characters of a key without quotes. -/
def isBare (c : Char) : Bool :=
  c.isAlphanum || c == '_' || c == '-'

def keyPart? (cs : List Char) : Option (String × List Char) :=
  match cs with
  | '"' :: _ | '\'' :: _ => lineString? cs
  | _ =>
    let bare := cs.takeWhile isBare
    if bare.isEmpty then none else some (String.ofList bare, cs.dropWhile isBare)

/-- Read the parts of a key, with dots between them and blanks around each. Each part takes a
character, so the first argument bounds their number. -/
def key? : Nat → List Char → Option (List String × List Char)
  | 0, _ => none
  | fuel + 1, cs =>
    match keyPart? (skipBlanks cs) with
    | none => none
    | some (part, rest) =>
      match skipBlanks rest with
      | '.' :: rest => (key? fuel rest).map fun (parts, rest) => (part :: parts, rest)
      | rest => some ([part], rest)

end ModelSchema.Toml
