/-
  NormalAlgorithm.Runner.Basic

  Running a ruleset over a word. A runner holds the current word, called its
  context, and the history of the words it went through; the ruleset is given to
  each operation, so it may change between steps.

    * `Runner.step`: apply the first applicable rule, or halt if there is none (`step`).
    * `Runner.fired?`: the rule that the next step applies.
    * `Runner.halt`: end the run; the first end counts (`_halt`).

  The history starts with the word that the first step finds and has one entry
  for every rule applied. The journal grows with every event.
-/

import NormalAlgorithm.Journal
import NormalAlgorithm.Ruleset

namespace NormalAlgorithm

open NormalAlgorithm.Journal

/-- An entry of a history: a word and the rule that produced it, if any (`Step`). -/
structure Entry where
  context : Word
  rule : Option Rule
  deriving DecidableEq

/-- The state of a run (`Runner`). -/
structure Runner where
  /-- The word the runner was made with. -/
  initial : Word
  /-- The current word. -/
  context : Word
  /-- The words gone through, the first of them without a rule. -/
  history : Array Entry
  /-- Whether the run has ended. -/
  halted : Bool
  /-- How the run ended, if it has. -/
  termination : Option Termination
  /-- Whether the last step applied a rule that does not terminate and left the
      word as it was. -/
  stalled : Bool
  /-- What was logged. -/
  journal : Array Record
  deriving DecidableEq

namespace Runner

/-- A runner at the start of its run. -/
def start (context : Word) : Runner :=
  { initial := context, context := context, history := #[], halted := false, termination := none,
    stalled := false, journal := #[] }

/-- The number of rules applied (`step_count`). -/
def stepCount (r : Runner) : Nat := r.history.size - 1

/-- Add a record to the journal. -/
def log (r : Runner) (record : Record) : Runner := { r with journal := r.journal.push record }

/-- End the run. A run that has ended stays as it is (`_halt`). -/
def halt (r : Runner) (how : Termination) : Runner :=
  if r.halted then r
  else { r.log (.halted how r.stepCount r.context) with halted := true, termination := some how }

/-- Record the current word as the start of the history, once. -/
def recordStart (r : Runner) : Runner :=
  if r.history.isEmpty then { r with history := #[⟨r.context, none⟩] } else r

/-- Apply a rule to the current word. -/
def applyRule (r : Runner) (rule : Rule) : Runner :=
  let next := rule.apply r.context
  let moved := { r with context := next, history := r.history.push ⟨next, some rule⟩ }
  let moved := moved.log (.stepped moved.stepCount rule next)
  if rule.terminating then { moved with stalled := false }.halt .explicit
  else if next = r.context then { moved with stalled := true }.log (.stalled rule next)
  else { moved with stalled := false }

/-- The rule that the next step applies. -/
def fired? (rules : Ruleset) (r : Runner) : Option Rule :=
  if r.halted then none else rules.firstApplicable? r.context

/-- Whether the next step applies a rule (`has_applicable_rule`). -/
def canStep (rules : Ruleset) (r : Runner) : Bool := (r.fired? rules).isSome

/-- Take a step: apply the first applicable rule, or halt if there is none (`step`). -/
def step (rules : Ruleset) (r : Runner) : Runner :=
  if r.halted then r
  else
    let r := r.recordStart
    match rules.firstApplicable? r.context with
    | none => { r with stalled := false }.halt .natural
    | some rule => r.applyRule rule

end Runner

end NormalAlgorithm
