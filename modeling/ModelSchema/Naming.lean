import ModelSchema.Text.Letter

/-!
# Derived names

Names of tables, columns and associations are derived from the words of a display name. A name is
scanned from left to right; only letters and numbers are kept, in upper case, and an underscore is
put before each character that starts a further word.

* `upperSnake` also cuts inside a run of letters, where the case changes: `ProductLine` gives
  `PRODUCT_LINE` and `HTTPStatus` gives `HTTP_STATUS`.
* `generatedCode` cuts only at other characters: `Order - Line` gives `ORDER_LINE`.
-/

namespace ModelSchema.Naming

open Text

/-- Keep the letters and numbers in upper case, with an underscore before each one that `starts`
accepts. It sees the character before, the character itself and the one after. `before` is empty
until the first letter or number, so no underscore comes first. -/
def joinWords (starts : Char → Char → Option Char → Bool) : Option Char → List Char → List Char
  | _, [] => []
  | before, c :: rest =>
    if isAlphanumeric c then
      (if before.any (starts · c rest.head?) then ['_'] else [])
        ++ uppercase c ++ joinWords starts (some c) rest
    else joinWords starts (before.map fun _ => c) rest

/-- A character after anything but a letter or number starts a word. -/
def startsRun (before _c : Char) (_after : Option Char) : Bool :=
  !isAlphanumeric before

/-- So does an upper-case letter after a lower-case letter or a digit, and the last of several
upper-case letters if a lower-case letter follows. -/
def startsWord (before c : Char) (after : Option Char) : Bool :=
  startsRun before c after
    || (isUppercase c
      && (isLowercase before || before.isDigit || (isUppercase before && after.any isLowercase)))

/-- The words of a name in upper case, joined by underscores. -/
def upperSnake (name : String) : String :=
  String.ofList (joinWords startsWord none name.toList)

/-- The code a modelling tool generates from a display name. -/
def generatedCode (name : String) : String :=
  String.ofList (joinWords startsRun none name.toList)

/-- The column of a property: its words in upper case, after the trigram of the class if any. -/
def columnName (trigram : Option String) (property : String) : String :=
  match trigram with
  | none | some "" => upperSnake property
  | some trigram => trigram ++ "_" ++ upperSnake property

end ModelSchema.Naming
