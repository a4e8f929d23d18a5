import ModelSchema.Xml.Character

/-!
# Markup

A document is cut into tags, texts, sections and asides. Texts and attribute values are kept as they
are written.
-/

namespace ModelSchema.Xml

/-- A name with the qualifier before its colon, which may be empty. -/
structure QName where
  qualifier : String
  name : String
deriving DecidableEq, Repr, Inhabited

structure Tag where
  name : QName
  attributes : List (QName × List Char)
deriving DecidableEq, Repr

/-- A part of a document. -/
inductive Token where
  | opening (tag : Tag)
  | empty (tag : Tag)
  | closing (name : QName)
  | text (raw : List Char)
  | characters (raw : List Char)
  /-- A comment or an instruction. -/
  | aside
deriving DecidableEq, Repr

/-! ## Scanning -/

def skipSpaces (cs : List Char) : List Char :=
  cs.dropWhile isSpace

/-- What follows `start`, if that comes first. -/
def after? : List Char → List Char → Option (List Char)
  | [], cs => some cs
  | _ :: _, [] => none
  | s :: start, c :: cs => if s = c then after? start cs else none

/-- What stands before and after the first occurrence of `mark`. -/
def split? (mark : List Char) : List Char → Option (List Char × List Char)
  | [] => (after? mark []).map ([], ·)
  | c :: cs =>
    match after? mark (c :: cs) with
    | some rest => some ([], rest)
    | none => (split? mark cs).map fun (before, rest) => (c :: before, rest)

/-- As `split?`, for contents that may hold only allowed characters. -/
def contents? (mark : List Char) (cs : List Char) : Option (List Char × List Char) :=
  (split? mark cs).bind fun (before, rest) =>
    if before.all isAllowed then some (before, rest) else none

/-- Whether a text may be used as a part of a name. -/
def isPart (cs : List Char) : Bool :=
  (cs.head?.any isNameStart) && !cs.contains ':'

/-- Read a name with its qualifier. The qualifier may be missing, and it may be empty. -/
def qname? (cs : List Char) : Option (QName × List Char) :=
  let name := cs.takeWhile isName
  let rest := cs.dropWhile isName
  match name.dropWhile (· != ':') with
  | ':' :: part =>
    let qualifier := name.takeWhile (· != ':')
    if (qualifier.isEmpty || isPart qualifier) && isPart part then
      some (⟨String.ofList qualifier, String.ofList part⟩, rest)
    else none
  | _ => if isPart name then some (⟨"", String.ofList name⟩, rest) else none

/-- Read an attribute. Its value may not hold `<`. -/
def attribute? (cs : List Char) : Option ((QName × List Char) × List Char) := do
  let (name, cs) ← qname? cs
  match skipSpaces cs with
  | '=' :: cs =>
    match skipSpaces cs with
    | quote :: cs =>
      if quote = '"' ∨ quote = '\'' then
        let (value, rest) ← contents? [quote] cs
        if value.contains '<' then none else some ((name, value), rest)
      else none
    | [] => none
  | _ => none

/-- Read attributes, each after white space, up to the end of the tag; the result says whether the
element is empty. Each attribute takes characters, so a number above the length of the text bounds
theirs. -/
def attributes? : Nat → List Char → Option (List (QName × List Char) × Bool × List Char)
  | 0, _ => none
  | fuel + 1, cs =>
    match skipSpaces cs with
    | '/' :: '>' :: rest => some ([], true, rest)
    | '>' :: rest => some ([], false, rest)
    | start =>
      if cs.head?.any isSpace then
        match attribute? start with
        | some (first, rest) =>
          (attributes? fuel rest).map fun (others, isEmpty, rest) =>
            (first :: others, isEmpty, rest)
        | none => none
      else none

/-! ## Tokens -/

/-- Read a comment after its opening: it may hold no `--`, nor end in `-`. -/
def comment? (cs : List Char) : Option (List Char) := do
  let (comment, rest) ← contents? "-->".toList cs
  if (split? "--".toList comment).isSome || comment.getLast? == some '-' then none else some rest

/-- Read an instruction after its opening. A declaration is none. -/
def instruction? (cs : List Char) : Option (List Char) := do
  if (after? "xml ".toList cs).isSome then none
  else if cs.head?.any isNameStart then
    let (_, rest) ← contents? "?>".toList (skipSpaces (cs.dropWhile isName))
    some rest
  else none

def closing? (cs : List Char) : Option (Token × List Char) := do
  let (name, rest) ← qname? cs
  match skipSpaces rest with
  | '>' :: rest => some (.closing name, rest)
  | _ => none

/-- Read a start tag after its opening; `fuel` bounds the number of its attributes. -/
def opening? (fuel : Nat) (cs : List Char) : Option (Token × List Char) := do
  let (name, rest) ← qname? cs
  let (attributes, isEmpty, rest) ← attributes? fuel rest
  let tag : Tag := ⟨name, attributes⟩
  some (if isEmpty then .empty tag else .opening tag, rest)

/-- Read the token that a text starts with; `fuel` bounds the number of its attributes. -/
def token? (fuel : Nat) (cs : List Char) : Option (Token × List Char) :=
  match cs with
  | '<' :: '!' :: '-' :: '-' :: rest => (comment? rest).map (.aside, ·)
  | '<' :: '!' :: '[' :: 'C' :: 'D' :: 'A' :: 'T' :: 'A' :: '[' :: rest =>
    (contents? "]]>".toList rest).map fun (raw, rest) => (.characters raw, rest)
  | '<' :: '?' :: rest => (instruction? rest).map (.aside, ·)
  | '<' :: '/' :: rest => closing? rest
  | '<' :: rest => opening? fuel rest
  | _ =>
    let raw := cs.takeWhile (· != '<')
    if raw.all isAllowed && (split? "]]>".toList raw).isNone then
      some (.text raw, cs.dropWhile (· != '<'))
    else none

/-- The tokens of a text. Each takes characters, so the length of the text bounds their number, and
that of the attributes in each. -/
def tokens? : Nat → List Char → Option (List Token)
  | _, [] => some []
  | 0, _ :: _ => none
  | fuel + 1, cs =>
    match token? (fuel + 1) cs with
    | some (token, rest) => (tokens? fuel rest).map (token :: ·)
    | none => none

/-! ## The declaration -/

/-- The white space after a part of the declaration, which may be missing only at its end. -/
def declarationSpace? (cs : List Char) : Option (List Char) :=
  if cs.head?.any isSpace || (after? "?>".toList cs).isSome then some (skipSpaces cs) else none

def declarationPart? (name : String) (cs : List Char) : Option (List Char) :=
  if (after? name.toList cs).isSome then
    (attribute? cs).bind fun (_, rest) => declarationSpace? rest
  else some cs

/-- Skip the declaration that a document may start with: a version, then perhaps an encoding, then
perhaps whether the document stands alone. What they say is ignored. -/
def skipDeclaration? (cs : List Char) : Option (List Char) :=
  match after? "<?xml ".toList cs with
  | none => some cs
  | some rest => do
    let rest := skipSpaces rest
    if (after? "version".toList rest).isSome then
      let rest ← declarationPart? "version" rest
      let rest ← declarationPart? "encoding" rest
      let rest ← declarationPart? "standalone" rest
      after? "?>".toList (skipSpaces rest)
    else none

/-- The tokens of a document; a byte order mark is skipped. -/
def tokenize? (cs : List Char) : Option (List Token) := do
  let cs := if cs.head? == some (Char.ofNat 0xfeff) then cs.drop 1 else cs
  let cs ← skipDeclaration? cs
  tokens? cs.length cs

end ModelSchema.Xml
