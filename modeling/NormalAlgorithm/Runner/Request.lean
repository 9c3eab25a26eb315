/-
  NormalAlgorithm.Runner.Request

  Runs asked for with values of any kind: a limit that may be absent, a number or
  something else, and a flag that is read as true or false. What is absent comes
  from the settings.

    * `Runner.startWith`: a runner on a value that has to be text (`Runner`).
    * `Runner.driveBy`: a bounded run (`drive`), or why it was refused; a refused run leaves
      the runner as it was.
-/

import NormalAlgorithm.Runner.Drive
import NormalAlgorithm.Settings.Basic

namespace NormalAlgorithm

open NormalAlgorithm.Number

/-- Why a run was refused (`InvalidArgument`). -/
inductive RunFault where
  /-- There is no ruleset to run. -/
  | noRuleset
  /-- The word to start from is no text. -/
  | noContext
  /-- The limit is a number below one. -/
  | limitTooSmall (limit : Value)
  /-- The limit is no number. -/
  | badLimit
  deriving Repr

/-- The text of a fault. -/
def RunFault.message : RunFault → String
  | .noRuleset => "Runner requires a Ruleset to run"
  | .noContext => "Runner requires a string context"
  | .limitTooSmall limit => "max_steps must be at least 1, got " ++ String.ofList limit.display
  | .badLimit => "The limit must be a number"

/-- The values that the text of a fault is written with. -/
def RunFault.values : RunFault → List Value
  | .limitTooSmall limit => [limit]
  | _ => []

namespace Budget

/-- The budget a limit stands for. -/
def ofValue (limit : Value) : Except RunFault Budget :=
  match limit.asInt?, limit with
  | some n, _ => if n < 1 then .error (.limitTooSmall limit) else .ok (.ofInt n)
  | none, .float x => if x.ltInt 1 then .error (.limitTooSmall limit) else .ok (.ofFloat x)
  | none, _ => .error .badLimit

/-- The budget a limit stands for, or else that of the settings. -/
def ofLimit (settings : RunnerSettings) : Value → Except RunFault Budget
  | .null => .ok (.ofInt settings.maxSteps)
  | limit => ofValue limit

end Budget

namespace Runner

/-- A runner at the start of its run, on a value that has to be text (`Runner`). -/
def startWith : Value → Except RunFault Runner
  | .text w => .ok (start w)
  | _ => .error .noContext

/-- Whether to stop on a stall, or else what the settings say. -/
def stopFlag (settings : RunnerSettings) : Value → Bool
  | .null => settings.stopOnStall
  | v => v.isTrue

/-- Run under a limit (`drive`). -/
def driveBy (settings : RunnerSettings) (rules : Ruleset) (limit stopOnStall : Value)
    (r : Runner) : Except RunFault Runner :=
  match Budget.ofLimit settings limit with
  | .error fault => .error fault
  | .ok budget => .ok (r.drive rules budget (stopFlag settings stopOnStall))

end Runner

end NormalAlgorithm
