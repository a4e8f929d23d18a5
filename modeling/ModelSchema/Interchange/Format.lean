import ModelSchema.Path

/-!
# Interchange formats

The two kinds of model documents, told apart by the extension of the file unless a project says
which one it is.
-/

namespace ModelSchema.Interchange

inductive Format where
  /-- The export of an object model. -/
  | objectModel
  /-- An XMI 1.1 export. -/
  | xmi
deriving DecidableEq, Repr, Inhabited

namespace Format

def key : Format → String
  | objectModel => "oom"
  | xmi => "xmi"

def ofKey? (key : String) : Option Format :=
  [objectModel, xmi].find? (·.key == key)

/-- The format that the extension of a file tells. -/
def ofPath? (path : Path) : Option Format := do
  match Text.lower (← path.extension?) with
  | "oom" => some objectModel
  | "xmi" | "xml" => some xmi
  | _ => none

end Format

end ModelSchema.Interchange
