/-
  NormalAlgorithm.Proofs.Runner.Calls

  Sequences of calls on a runner.

  A runner is stepped, run, stopped or driven, in any order, and its ruleset may be
  another one at every call (`Reaches`). A run that goes on forever leads nowhere,
  and a bounded run that is refused leaves the runner as it was (`Yields`).

  Every call comes down to steps and to two ways of being stopped. So a property
  that these keep (`Closed`) holds after every sequence of calls: `Reaches.keeps`. The
  first of them is that the flag of a run that has ended and the way it ended never
  disagree: `Reaches.flagged`.
-/

import NormalAlgorithm.Proofs.Runner.Step
import NormalAlgorithm.Runner.Request

namespace NormalAlgorithm.Runner

/-- A call on a runner. A bounded run finds settings in force, and its arguments are
    values of any kind. -/
inductive Call where
  | step
  | run
  | stop
  | drive (settings : RunnerSettings) (limit stopOnStall : Value)

/-- `Yields rules r call r'`: the call on `r` ends and leaves `r'`. -/
inductive Yields (rules : Ruleset) (r : Runner) : Call → Runner → Prop where
  | step : Yields rules r .step (r.step rules)
  | run {fuel : Nat} {r' : Runner} (h : r.runWithin rules fuel = some r') : Yields rules r .run r'
  | stop : Yields rules r .stop (r.halt .stopped)
  | drive {settings : RunnerSettings} {limit stopOnStall : Value} {r' : Runner}
      (h : r.driveBy settings rules limit stopOnStall = .ok r') :
    Yields rules r (.drive settings limit stopOnStall) r'
  | refused {settings : RunnerSettings} {limit stopOnStall : Value} {fault : RunFault}
      (h : r.driveBy settings rules limit stopOnStall = .error fault) :
    Yields rules r (.drive settings limit stopOnStall) r

/-- `Reaches r₀ calls r`: the calls, each with the ruleset it finds, lead from `r₀` to
    `r`. -/
inductive Reaches (r₀ : Runner) : List (Ruleset × Call) → Runner → Prop where
  | start : Reaches r₀ [] r₀
  | call {past : List (Ruleset × Call)} {rules : Ruleset} {call : Call} {r r' : Runner}
      (h : Reaches r₀ past r) (hcall : Yields rules r call r') :
    Reaches r₀ (past ++ [(rules, call)]) r'

/-- What calls under a ruleset are made of keeps the property: a step, a stop, and a
    stop because the budget is spent. -/
structure Closed (rules : Ruleset) (P : Runner → Prop) : Prop where
  step : ∀ r, r.halted = false → P r → P (r.step rules)
  stop : ∀ r, r.halted = false → P r → P (r.halt .stopped)
  spend : ∀ r limit, r.halted = false → r.canStep rules = true → P r →
    P ((r.log (.budgetSpent limit)).halt .stopped)

namespace Closed

variable {rules : Ruleset} {P : Runner → Prop} {r r' : Runner}

theorem halt (h : Closed rules P) (hr : P r) : P (r.halt .stopped) := by
  cases hh : r.halted with
  | true => rwa [halt_of_halted hh]
  | false => exact h.stop r hh hr

theorem runWithin (h : Closed rules P) {fuel : Nat} (hr : P r)
    (hrun : r.runWithin rules fuel = some r') : P r' := by
  induction fuel generalizing r with
  | zero =>
      rw [Runner.runWithin] at hrun
      split at hrun
      · rw [Option.some.injEq] at hrun
        exact hrun ▸ hr
      · cases hrun
  | succ fuel ih =>
      rw [Runner.runWithin] at hrun
      split at hrun
      · rw [Option.some.injEq] at hrun
        exact hrun ▸ hr
      · rename_i hh
        exact ih (h.step r (Bool.eq_false_iff.mpr hh) hr) hrun

theorem driveRound (h : Closed rules P) (budget : Budget) (stopOnStall : Bool)
    (hh : r.halted = false) (hr : P r) : P (r.driveRound rules budget stopOnStall) := by
  rw [Runner.driveRound]
  split
  · rename_i hspent
    rw [Bool.and_eq_true] at hspent
    exact h.spend r budget.shown hh hspent.2 hr
  · have hstep := h.step r hh hr
    dsimp only
    split
    · exact h.halt hstep
    · exact hstep

theorem driveWithin (h : Closed rules P) (budget : Budget) (stopOnStall : Bool) (fuel : Nat)
    (hr : P r) : P (r.driveWithin rules budget stopOnStall fuel) := by
  induction fuel generalizing r with
  | zero => exact hr
  | succ fuel ih =>
      rw [Runner.driveWithin]
      split
      · exact hr
      · rename_i hh
        exact ih (h.driveRound budget stopOnStall (Bool.eq_false_iff.mpr hh) hr)

theorem driveBy (h : Closed rules P) {settings : RunnerSettings} {limit stopOnStall : Value}
    (hr : P r) (hdrive : r.driveBy settings rules limit stopOnStall = .ok r') : P r' := by
  rw [Runner.driveBy] at hdrive
  split at hdrive
  · cases hdrive
  · rename_i budget _
    rw [Except.ok.injEq] at hdrive
    rw [← hdrive]
    exact h.driveWithin budget _ _ hr

/-- A call keeps what its steps and stops keep. -/
theorem yields (h : Closed rules P) {call : Call} (hr : P r) (hcall : Yields rules r call r') :
    P r' := by
  cases hcall with
  | step =>
      cases hh : r.halted with
      | true => rwa [step_of_halted hh]
      | false => exact h.step r hh hr
  | run hrun => exact h.runWithin hr hrun
  | stop => exact h.halt hr
  | drive hdrive => exact h.driveBy hr hdrive
  | refused _ => exact hr

end Closed

/-- A property of the start that the steps and stops under every ruleset on the way
    keep holds at the end of the way. -/
theorem Reaches.keeps {P : Runner → Prop} {r₀ r : Runner} {calls : List (Ruleset × Call)}
    (h : Reaches r₀ calls r) (hclosed : ∀ x ∈ calls, Closed x.1 P) (hstart : P r₀) : P r := by
  induction h with
  | start => exact hstart
  | call _ hcall ih =>
      have hlast := hclosed _ (List.mem_append_right _ List.mem_cons_self)
      exact hlast.yields (ih fun x hx => hclosed x (List.mem_append_left _ hx)) hcall

/-- The same for calls that all find one ruleset. -/
theorem Reaches.keeps_of_closed {P : Runner → Prop} {rules : Ruleset} {r₀ r : Runner}
    {calls : List Call} (h : Reaches r₀ (calls.map (rules, ·)) r) (hclosed : Closed rules P)
    (hstart : P r₀) : P r := by
  refine h.keeps ?_ hstart
  intro x hx
  obtain ⟨call, _, rfl⟩ := List.mem_map.mp hx
  exact hclosed

theorem closed_flagged (rules : Ruleset) : Closed rules Flagged where
  step _ _ h := h.step rules
  stop _ _ h := h.halt .stopped
  -- what is logged touches neither the flag nor the way the run ended
  spend r limit _ _ h := Flagged.halt (r := r.log (.budgetSpent limit)) h .stopped

/-- Whatever is called, and under any rulesets, the flag says that the run has ended exactly
    if there is a way in which it ended. -/
theorem Reaches.flagged {c : Word} {r : Runner} {calls : List (Ruleset × Call)}
    (h : Reaches (Runner.start c) calls r) : Flagged r :=
  h.keeps (fun x _ => closed_flagged x.1) (flagged_start c)

end NormalAlgorithm.Runner
