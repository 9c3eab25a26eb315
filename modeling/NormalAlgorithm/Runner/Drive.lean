/-
  NormalAlgorithm.Runner.Drive

  Whole runs.

    * `Runner.run`: step until the run has ended (`run`).
    * `Runner.runWithin`: the same for at most a number of steps; `none` says that it
      has not ended by then.
    * `Budget`: how many rules a bounded run may apply.
    * `Runner.drive`: step until the run has ended, the budget is spent while a
      rule still applies, or, if asked for, a step made no progress (`drive`).
-/

import NormalAlgorithm.Runner.Basic

namespace NormalAlgorithm

open NormalAlgorithm.Journal NormalAlgorithm.Number

/-- How many rules a bounded run may apply. -/
structure Budget where
  /-- The number of applied rules at which the budget is spent; an infinite budget
      has none. -/
  steps : Option Nat
  /-- The limit as the journal gives it. -/
  shown : Int
  deriving DecidableEq, Repr

namespace Budget

/-- A budget of whole steps. -/
def ofInt (limit : Int) : Budget := ⟨some limit.toNat, limit⟩

/-- A budget that need not be whole is spent at the next whole number. -/
def ofFloat (limit : Binary64) : Budget :=
  match limit.trunc? with
  | some n => ⟨some (if limit.beqInt n then n else n + 1).toNat, n⟩
  | none => ⟨none, 0⟩

/-- Whether a number of applied rules spends the budget. -/
def isSpent (b : Budget) (count : Nat) : Bool :=
  match b.steps with
  | some n => decide (n ≤ count)
  | none => false

end Budget

namespace Runner

instance : Nonempty Runner := ⟨start []⟩

/-- Step until the run has ended (`run`). Nothing is said of a run that does not end. -/
def run (rules : Ruleset) (r : Runner) : Option Runner :=
  repeatM (fun r => some (if r.halted then .inr r else .inl (r.step rules))) r

/-- The number of steps after which a run without a bound is given up. No machine
    takes that many. -/
def patience : Nat := Nat.pow 2 64

/-- Step until the run has ended, for at most `fuel` steps. -/
def runWithin (rules : Ruleset) : Nat → Runner → Option Runner
  | 0, r => if r.halted then some r else none
  | fuel + 1, r => if r.halted then some r else runWithin rules fuel (r.step rules)

/-- One round of a bounded run that has not ended: stop if the budget is spent and
    a rule applies, or else step and stop if that made no progress. -/
def driveRound (rules : Ruleset) (budget : Budget) (stopOnStall : Bool) (r : Runner) : Runner :=
  if budget.isSpent r.stepCount && r.canStep rules then
    (r.log (.budgetSpent budget.shown)).halt .stopped
  else
    let r := r.step rules
    if stopOnStall && r.stalled then r.halt .stopped else r

/-- Rounds until the run has ended, for at most `fuel` rounds. -/
def driveWithin (rules : Ruleset) (budget : Budget) (stopOnStall : Bool) : Nat → Runner → Runner
  | 0, r => r
  | fuel + 1, r =>
    if r.halted then r
    else driveWithin rules budget stopOnStall fuel (r.driveRound rules budget stopOnStall)

/-- Run under a budget (`drive`). Every round applies a rule or ends the run, so two rounds
    more than the budget has steps are enough. -/
def drive (rules : Ruleset) (budget : Budget) (stopOnStall : Bool) (r : Runner) : Runner :=
  driveWithin rules budget stopOnStall (budget.steps.getD patience + 2) r

end Runner

end NormalAlgorithm
