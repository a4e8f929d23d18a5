/-!
# Allowlists

A project may name classes that are not checked, by patterns in which a star stands for any text.
-/

namespace ModelSchema

/-- Patterns for class names. -/
structure Allowlist where
  patterns : List String
deriving DecidableEq, Repr, Inhabited

namespace Allowlist

/-- Whether a text is what stands before the first star of a pattern, then anything, then what
stands after it. A pattern without star is that text, and two stars alone stand for any text. -/
def isMatch (pattern text : List Char) : Bool :=
  if pattern = ['*', '*'] then true
  else
    let start := pattern.takeWhile (· != '*')
    match pattern.dropWhile (· != '*') with
    | '*' :: ending => start.isPrefixOf text && ending.isSuffixOf (text.drop start.length)
    | _ => pattern == text

def skips (allowlist : Allowlist) (name : String) : Bool :=
  allowlist.patterns.any fun pattern => isMatch pattern.toList name.toList

end Allowlist

end ModelSchema
