/-!
# White space and trimming

The characters with the Unicode property White_Space, and the text left when they are removed from
both ends.
-/

namespace ModelSchema.Text

/-- White space, in ASCII and beyond. -/
def isBlank (c : Char) : Bool :=
  let code := c.toNat
  (0x9 ≤ code && code ≤ 0xd) || code == 0x20 || code == 0x85 || code == 0xa0 || code == 0x1680
    || (0x2000 ≤ code && code ≤ 0x200a) || code == 0x2028 || code == 0x2029 || code == 0x202f
    || code == 0x205f || code == 0x3000

/-- Every character that core counts as white space is blank. -/
theorem isBlank_of_isWhitespace {c : Char} (h : c.isWhitespace) : isBlank c := by
  simp only [Char.isWhitespace, Bool.or_eq_true, decide_eq_true_eq] at h
  rcases h with ((rfl | rfl) | rfl) | rfl <;> decide

/-- Drop the characters at the end that satisfy `p`. -/
def dropEndWhile (p : Char → Bool) (cs : List Char) : List Char :=
  (cs.reverse.dropWhile p).reverse

def dropBothWhile (p : Char → Bool) (cs : List Char) : List Char :=
  dropEndWhile p (cs.dropWhile p)

/-- A text without the blanks at its ends. -/
def trim (s : String) : String :=
  String.ofList (dropBothWhile isBlank s.toList)

/-- The trimmed text, or nothing if only blanks are left. -/
def trimmed? (s : String) : Option String :=
  if trim s = "" then none else some (trim s)

end ModelSchema.Text
