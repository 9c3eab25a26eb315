/-
  NormalAlgorithm.Runner.Result

  The outcome of a run as plain data: what it started from, where it is, every
  entry of its history with the rule in statement form, and how it ended.

    * `Runner.result`: the outcome of a runner (`result`).
    * `RunResult.toJson`, `RunResult.format`: the outcome as JSON (`format_as_json`).
    * `RunResult.ofFields`: an outcome from JSON fields, leniently, or what is
      wrong with them (`RunResult`).
-/

import NormalAlgorithm.Field.Basic
import NormalAlgorithm.Json.Printer
import NormalAlgorithm.Runner.Basic

namespace NormalAlgorithm

open NormalAlgorithm.Field

/-- An entry of a history as plain data (`StepRecord`). -/
structure StepRecord where
  context : List Char
  rule : Option (List Char)
  terminating : Bool
  deriving DecidableEq, Repr

/-- The outcome of a run as plain data (`RunResult`). -/
structure RunResult where
  initial : List Char
  context : List Char
  steps : List StepRecord
  termination : Option Termination
  stalled : Bool
  deriving DecidableEq, Repr

/-- An entry as plain data (`to_record`). -/
def Entry.toRecord (e : Entry) : StepRecord :=
  match e.rule with
  | none => ⟨e.context, none, false⟩
  | some rule => ⟨e.context, some rule.render, rule.terminating⟩

/-- The outcome of a runner so far (`result`). -/
def Runner.result (r : Runner) : RunResult :=
  ⟨r.initial, r.context, r.history.toList.map Entry.toRecord, r.termination, r.stalled⟩

namespace RunResult

/-- The number of rules applied; the first entry is no step (`step_count`). -/
def stepCount (r : RunResult) : Nat := r.steps.length - 1

/-- Whether the run has ended (`halted`). -/
def halted (r : RunResult) : Bool := r.termination.isSome

/-! ## As JSON -/

/-- A field of a JSON object. -/
def jsonField (name : String) (value : Json) : List Char × Json := (name.toList, value)

/-- Text that may be absent. -/
def optionalText : Option (List Char) → Json
  | some s => .str s
  | none => .null

/-- The name of the way a run ended. -/
def terminationJson : Option Termination → Json
  | some t => .str t.name.toList
  | none => .null

/-- An entry with its number (`_step_to_dict`). -/
def stepJson (n : Nat) (s : StepRecord) : Json :=
  .obj [jsonField "step" (.int n), jsonField "context" (.str s.context),
    jsonField "rule" (optionalText s.rule), jsonField "terminating" (.bool s.terminating)]

/-- Entries numbered from `n` on. -/
def stepsJson (n : Nat) : List StepRecord → List Json
  | [] => []
  | s :: rest => stepJson n s :: stepsJson (n + 1) rest

/-- The outcome as a JSON object. -/
def toJson (r : RunResult) : Json :=
  .obj [jsonField "initial" (.str r.initial), jsonField "context" (.str r.context),
    jsonField "halted" (.bool r.halted), jsonField "termination" (terminationJson r.termination),
    jsonField "stalled" (.bool r.stalled), jsonField "step_count" (.int r.stepCount),
    jsonField "steps" (.arr (stepsJson 0 r.steps))]

/-- The outcome as JSON text, indented or on one line (`format_as_json`). -/
def format (r : RunResult) (pretty : Bool) : List Char :=
  if pretty then r.toJson.pretty else r.toJson.compact

/-! ## From JSON fields -/

/-- The name of a way to end. -/
def readTermination : Json → Except Kind Termination
  | .str s =>
    match Termination.ofName? s with
    | some t => .ok t
    | none => .error .notInEnum
  | _ => .error .notInEnum

/-- A record from a JSON value. -/
def readStep : Json → Checked StepRecord
  | .obj fields =>
    let find := fun (name : String) => Json.lookup name.toList fields
    (Checked.both StepRecord.mk (required readText "context" (find "context"))
      (optional (nullable readText) "rule" none (find "rule"))).andThen
      (optional readBool "terminating" false (find "terminating"))
  | _ => .error [⟨[], .modelType⟩]

/-- The records of JSON items numbered from `n` on. -/
def readSteps (n : Nat) : List Json → Checked (List StepRecord)
  | [] => .ok []
  | j :: rest => Checked.both List.cons ((readStep j).under (.index n)) (readSteps (n + 1) rest)

/-- The records of a field. -/
def readStepsField : Option Json → Checked (List StepRecord)
  | none => .ok []
  | some (.arr items) => (readSteps 0 items).under (.name "steps".toList)
  | some _ => .error [.ofField "steps".toList .listType]

/-- An outcome from JSON fields. Fields of other names are ignored. -/
def ofFields (fields : List (List Char × Json)) : Checked RunResult :=
  let find := fun (name : String) => Json.lookup name.toList fields
  let texts := Checked.both RunResult.mk (required readText "initial" (find "initial"))
    (required readText "context" (find "context"))
  let ending := optional (nullable readTermination) "termination" none (find "termination")
  ((texts.andThen (readStepsField (find "steps"))).andThen ending).andThen
    (optional readBool "stalled" false (find "stalled"))

end RunResult

end NormalAlgorithm
