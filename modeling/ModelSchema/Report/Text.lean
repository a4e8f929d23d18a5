import ModelSchema.Report.Basic
import ModelSchema.Text.Ascii

/-!
# Reports for people

The report as a markdown document, and as the summary printed on the console.
-/

namespace ModelSchema.Report

/-! ## Markdown -/

def sign : Category → String
  | .fatal => "🛑"
  | .bug => "❌"
  | .codeStyle => "⚠️"
  | .doc => "ℹ️"

/-- A paragraph, if there is something to say. -/
def paragraph? (opening closing : String) : Option String → String
  | some text => opening ++ text ++ closing ++ "\n\n"
  | none => ""

/-- A finding in a markdown document. -/
def markdownEntry (diagnostic : Diagnostic) : String :=
  "### " ++ sign diagnostic.category ++ " " ++ diagnostic.category.key ++ " - "
    ++ diagnostic.code.name ++ "\n\n" ++ diagnostic.message ++ "\n\n"
    ++ paragraph? "**Location:** " "" diagnostic.file
    ++ paragraph? "**Expected:** `" "`" diagnostic.expected
    ++ paragraph? "**Actual:** `" "`" diagnostic.actual
    ++ if diagnostic.related.isEmpty then ""
      else "**Related:**\n\n"
        ++ String.join (diagnostic.related.map fun element => "- " ++ element ++ "\n") ++ "\n"

def markdown (report : Report) : String :=
  let summary := report.summary
  "# Model Check Report\n\n**Version:** " ++ versionText
    ++ "\n\n**Timestamp:** " ++ report.timestamp
    ++ "\n\n## Summary\n\n- Models read: " ++ toString summary.modelsRead
    ++ "\n- Classes checked: " ++ toString summary.classesChecked
    ++ "\n- Total diagnostics: " ++ toString summary.total
    ++ "\n- Fatal: " ++ toString summary.fatal
    ++ "\n- Bugs: " ++ toString summary.bugs
    ++ "\n- Code style: " ++ toString summary.codeStyle
    ++ "\n- Doc: " ++ toString summary.doc ++ "\n\n"
    ++ if report.diagnostics.isEmpty then "✅ **No issues found!**\n"
      else "## Diagnostics\n\n" ++ String.join (report.diagnostics.map markdownEntry)

/-! ## Console -/

def word : Category → String
  | .fatal => "FATAL"
  | .bug => "BUG"
  | .codeStyle => "STYLE"
  | .doc => "DOC"

/-- A line of its own, if there is something to say. -/
def line? (opening : String) : Option String → String
  | some text => opening ++ text ++ "\n"
  | none => ""

/-- A finding on the console. -/
def consoleEntry (diagnostic : Diagnostic) : String :=
  "  [" ++ word diagnostic.category ++ "] " ++ diagnostic.code.name ++ ": "
    ++ diagnostic.message ++ "\n"
    ++ line? "    at " diagnostic.file
    ++ line? "    Expected: " diagnostic.expected
    ++ line? "    Actual:   " diagnostic.actual
    ++ if diagnostic.related.isEmpty then ""
      else "    Related: " ++ Text.join ", " diagnostic.related ++ "\n"

/-- The rule above and below the summary. -/
def rule : String :=
  String.ofList (List.replicate 60 '=') ++ "\n"

def console (report : Report) : String :=
  let summary := report.summary
  "\n" ++ rule ++ "Model Check Report\n" ++ rule
    ++ "\nVersion: " ++ versionText
    ++ "\nTimestamp: " ++ report.timestamp
    ++ "\n\nSummary:\n  Models read:       " ++ toString summary.modelsRead
    ++ "\n  Classes checked:   " ++ toString summary.classesChecked
    ++ "\n  Total diagnostics: " ++ toString summary.total
    ++ "\n  Fatal:      " ++ toString summary.fatal
    ++ "\n  Bugs:       " ++ toString summary.bugs
    ++ "\n  Code style: " ++ toString summary.codeStyle
    ++ "\n  Doc:        " ++ toString summary.doc ++ "\n\n"
    ++ (if report.diagnostics.isEmpty then "✓ No issues found!\n"
      else "Diagnostics:\n" ++ String.join (report.diagnostics.map consoleEntry))
    ++ "\n" ++ rule

end ModelSchema.Report
