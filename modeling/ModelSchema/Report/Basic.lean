import ModelSchema.Diagnostic.Sink
import ModelSchema.Json.Canonical
import ModelSchema.Json.Printer

/-!
# Check reports

A report lists the findings of a run, counts them by category and says how many models and classes
were looked at. It is handed to other tools as a JSON file.
-/

namespace ModelSchema

namespace Report

/-- The counts of a report. -/
structure Summary where
  total : Nat
  fatal : Nat
  bugs : Nat
  codeStyle : Nat
  doc : Nat
  modelsRead : Nat
  classesChecked : Nat
deriving DecidableEq, Repr, Inhabited

namespace Summary

def zero : Summary := ⟨0, 0, 0, 0, 0, 0, 0⟩

def count (summary : Summary) (category : Category) : Summary :=
  let summary := { summary with total := summary.total + 1 }
  match category with
  | .fatal => { summary with fatal := summary.fatal + 1 }
  | .bug => { summary with bugs := summary.bugs + 1 }
  | .codeStyle => { summary with codeStyle := summary.codeStyle + 1 }
  | .doc => { summary with doc := summary.doc + 1 }

def toJson (summary : Summary) : Json :=
  .object
    [("total", .nat summary.total),
      ("fatal", .nat summary.fatal),
      ("bugs", .nat summary.bugs),
      ("code_style", .nat summary.codeStyle),
      ("doc", .nat summary.doc),
      ("models_read", .nat summary.modelsRead),
      ("classes_checked", .nat summary.classesChecked)]

end Summary

/-- The version of the data file form, major and minor. -/
def version : Nat × Nat := (1, 0)

def versionText : String :=
  toString version.1 ++ "." ++ toString version.2

end Report

/-- The outcome of a check. -/
structure Report where
  timestamp : String
  summary : Report.Summary
  diagnostics : List Diagnostic
  metadata : Option Json

namespace Report

def empty (timestamp : String) : Report :=
  ⟨timestamp, .zero, [], none⟩

def add (report : Report) (diagnostic : Diagnostic) : Report :=
  { report with
    summary := report.summary.count diagnostic.category
    diagnostics := report.diagnostics ++ [diagnostic] }

def ofDiagnostics (timestamp : String) (diagnostics : List Diagnostic) : Report :=
  diagnostics.foldl add (empty timestamp)

/-- Say how many models and classes were looked at. -/
def withCounts (report : Report) (modelsRead classesChecked : Nat) : Report :=
  { report with summary := { report.summary with modelsRead, classesChecked } }

def withMetadata (report : Report) (metadata : Json) : Report :=
  { report with metadata := some metadata.canonical }

/-- Whether a finding blocks the use of generated scripts. -/
def isBlocking (report : Report) : Bool :=
  0 < report.summary.bugs || 0 < report.summary.fatal

def toJson (report : Report) : Json :=
  .object <|
    [("version", .object [("major", .nat version.1), ("minor", .nat version.2)]),
      ("timestamp", .text report.timestamp),
      ("summary", report.summary.toJson),
      ("diagnostics", .array (report.diagnostics.map Diagnostic.toJson))]
    ++ match report.metadata with
      | some metadata => [("metadata", metadata)]
      | none => []

def fileText (report : Report) : String :=
  report.toJson.renderPretty

end Report

end ModelSchema
