import ModelSchema.Diagnostic.Basic

/-!
# Collecting diagnostics

A project may give codes other categories than their own. The sink of a run collects findings in the
order they are made and puts such overrides into effect.
-/

namespace ModelSchema

/-- Categories by code name that take the place of the default ones. -/
structure Severity where
  overrides : Catalog Category
deriving DecidableEq, Inhabited

namespace Severity

def standard : Severity := ⟨.empty⟩

/-- The category of a code, given the one it has without overrides. -/
def category (severity : Severity) (code : Code) (default : Category) : Category :=
  (severity.overrides.get? code.name).getD default

def override (severity : Severity) (code : Code) (category : Category) : Severity :=
  ⟨severity.overrides.insert code.name category⟩

def apply (severity : Severity) (diagnostic : Diagnostic) : Diagnostic :=
  { diagnostic with category := severity.category diagnostic.code diagnostic.category }

end Severity

/-- The findings of a run. -/
structure Sink where
  severity : Severity
  diagnostics : List Diagnostic
deriving DecidableEq, Inhabited

namespace Sink

def empty (severity : Severity) : Sink := ⟨severity, []⟩

def push (sink : Sink) (diagnostic : Diagnostic) : Sink :=
  { sink with diagnostics := sink.diagnostics ++ [sink.severity.apply diagnostic] }

def append (sink : Sink) (diagnostics : List Diagnostic) : Sink :=
  { sink with diagnostics := sink.diagnostics ++ diagnostics.map sink.severity.apply }

def size (sink : Sink) : Nat :=
  sink.diagnostics.length

def count (sink : Sink) (category : Category) : Nat :=
  sink.diagnostics.countP (·.category == category)

def countCode (sink : Sink) (code : Code) : Nat :=
  sink.diagnostics.countP (·.code == code)

/-- Whether a finding blocks the use of generated scripts. -/
def isBlocking (sink : Sink) : Bool :=
  sink.diagnostics.any (·.category.isBlocking)

/-- Adding findings one by one or together is the same. -/
theorem foldl_push (sink : Sink) (diagnostics : List Diagnostic) :
    diagnostics.foldl push sink = sink.append diagnostics := by
  induction diagnostics generalizing sink with
  | nil => simp [append]
  | cons first rest ih => simp [ih, push, append]

end Sink

end ModelSchema
