/-
  NormalAlgorithm.Proofs.Runner.Bounded

  Bounded runs against runs without a bound.

  A bounded run that does not stop on stalls takes the steps of the unbounded one
  until its budget is spent, and then one round more (`drive_eq`). That round stops
  the run if a rule still applies, and otherwise takes the step that finds no rule,
  so that the run ends by itself even with its budget exactly spent.

    * `driveBy_refines_run`: a bounded run always ends; it ends as the unbounded one
      does if that is within the budget, and else it is stopped on the way.
-/

import Mathlib.Data.Nat.Find
import NormalAlgorithm.Proofs.Runner.Run

namespace NormalAlgorithm.Runner

variable {rules : Ruleset} {budget : Budget} {stopOnStall : Bool} {limit : Nat} {r : Runner}

/-! ## One round -/

theorem canStep_eq_false_of_halted (h : r.halted = true) : r.canStep rules = false := by
  rw [canStep, fired?, if_pos h]
  rfl

theorem halted_eq_false_of_canStep (h : r.canStep rules = true) : r.halted = false := by
  cases hh : r.halted with
  | false => rfl
  | true =>
      rw [canStep_eq_false_of_halted hh] at h
      cases h

theorem firstApplicable?_of_canStep (h : r.canStep rules = true) :
    ∃ rule, rules.firstApplicable? r.context = some rule := by
  rw [canStep, fired?, Option.isSome_iff_exists] at h
  obtain ⟨rule, hrule⟩ := h
  split at hrule
  · cases hrule
  · exact ⟨rule, hrule⟩

/-- A step that finds no rule ends the run, and does not count. -/
theorem step_of_canStep_eq_false (h : r.canStep rules = false) :
    (r.step rules).halted = true ∧ (r.step rules).stepCount = r.stepCount := by
  cases hh : r.halted with
  | true =>
      rw [step_of_halted hh]
      exact ⟨hh, rfl⟩
  | false =>
      have hrule : rules.firstApplicable? r.context = none := by
        rw [canStep, fired?, hh, Option.isSome_eq_false_iff, Option.isNone_iff_eq_none] at h
        exact h
      exact ⟨halted_step_of_none hh hrule, stepCount_step_of_none hh hrule⟩

theorem driveRound_of_halted (h : r.halted = true) :
    r.driveRound rules budget stopOnStall = r := by
  rw [driveRound, canStep_eq_false_of_halted h, Bool.and_false, step_of_halted h]
  simp only [Bool.false_eq_true, if_false, halt_of_halted h, ite_self]

/-- With the budget spent and a rule to apply, a round stops the run. -/
theorem driveRound_of_canStep (hspent : budget.isSpent r.stepCount = true)
    (h : r.canStep rules = true) :
    r.driveRound rules budget stopOnStall = (r.log (.budgetSpent budget.shown)).halt .stopped := by
  rw [driveRound, hspent, h]
  rfl

/-- With steps left in the budget, or no rule to apply, a round is a step, and a stop
    if that was asked for and the step stalled. -/
theorem driveRound_of_unspent
    (h : budget.isSpent r.stepCount = false ∨ r.canStep rules = false) :
    r.driveRound rules budget stopOnStall =
      if stopOnStall && (r.step rules).stalled then (r.step rules).halt .stopped
      else r.step rules := by
  have hgo : (budget.isSpent r.stepCount && r.canStep rules) = false := by
    rcases h with h | h <;> rw [h]
    · rfl
    · exact Bool.and_false _
  rw [driveRound, hgo]
  rfl

theorem driveRound_eq_step (h : budget.isSpent r.stepCount = false ∨ r.canStep rules = false) :
    r.driveRound rules budget false = r.step rules := by
  rw [driveRound_of_unspent h]
  rfl

/-- With the budget spent, a round ends the run. -/
theorem halted_driveRound_of_spent (hspent : budget.isSpent r.stepCount = true) :
    (r.driveRound rules budget false).halted = true := by
  cases h : r.canStep rules with
  | true => rw [driveRound_of_canStep hspent h, halted_halt]
  | false =>
      rw [driveRound_eq_step (Or.inr h)]
      exact (step_of_canStep_eq_false h).1

/-! ## All rounds -/

theorem iterate_driveRound_of_halted (h : r.halted = true) (n : Nat) :
    (driveRound rules budget stopOnStall)^[n] r = r :=
  Function.iterate_fixed (driveRound_of_halted h) n

theorem driveWithin_eq_iterate (fuel : Nat) :
    r.driveWithin rules budget stopOnStall fuel =
      (driveRound rules budget stopOnStall)^[fuel] r := by
  induction fuel generalizing r with
  | zero => rfl
  | succ fuel ih =>
      rw [driveWithin]
      split
      · rename_i hh
        rw [iterate_driveRound_of_halted hh]
      · rw [ih, Function.iterate_succ_apply]

theorem isSpent_eq (hb : budget.steps = some limit) (count : Nat) :
    budget.isSpent count = decide (limit ≤ count) := by
  rw [Budget.isSpent, hb]

/-- Within the budget, rounds are steps. -/
theorem iterate_driveRound_eq (hb : budget.steps = some limit) {n : Nat}
    (hn : r.stepCount + n ≤ limit) :
    (driveRound rules budget false)^[n] r = (step rules)^[n] r := by
  induction n with
  | zero => rfl
  | succ n ih =>
      have hcount := stepCount_iterate_le rules r n
      rw [Function.iterate_succ_apply', Function.iterate_succ_apply', ih (by omega)]
      apply driveRound_eq_step
      left
      rw [isSpent_eq hb]
      exact decide_eq_false (by omega)

/-- After the steps that the budget leaves, a run has ended or the budget is spent. -/
theorem halted_driveRound_iterate (hb : budget.steps = some limit) (r : Runner) :
    (((step rules)^[limit - r.stepCount] r).driveRound rules budget false).halted = true := by
  cases hp : ((step rules)^[limit - r.stepCount] r).halted with
  | true => rw [driveRound_of_halted hp, hp]
  | false =>
      apply halted_driveRound_of_spent
      rw [isSpent_eq hb, stepCount_iterate_of_running hp]
      exact decide_eq_true (by omega)

theorem drive_eq_iterate (hb : budget.steps = some limit) :
    r.drive rules budget stopOnStall = (driveRound rules budget stopOnStall)^[limit + 2] r := by
  rw [drive, hb, Option.getD_some, driveWithin_eq_iterate]

/-- A bounded run takes the steps that its budget leaves and one round more. -/
theorem drive_eq (hb : budget.steps = some limit) (r : Runner) :
    r.drive rules budget false =
      ((step rules)^[limit - r.stepCount] r).driveRound rules budget false := by
  have hrounds : (driveRound rules budget false)^[limit - r.stepCount] r =
      (step rules)^[limit - r.stepCount] r := by
    by_cases hle : r.stepCount ≤ limit
    · exact iterate_driveRound_eq hb (by omega)
    · -- the budget was spent before, and no step is left
      rw [Nat.sub_eq_zero_of_le (by omega)]
      rfl
  -- at least one of the rounds comes after these steps, and the first such ends the run
  have hfuel : limit + 2 = (limit + 1 - (limit - r.stepCount)) + 1 + (limit - r.stepCount) := by
    omega
  rw [drive_eq_iterate hb, hfuel, Function.iterate_add_apply, hrounds,
    Function.iterate_succ_apply, iterate_driveRound_of_halted (halted_driveRound_iterate hb r)]

theorem halted_drive (rules : Ruleset) (hb : budget.steps = some limit) (r : Runner) :
    (r.drive rules budget false).halted = true := by
  rw [drive_eq hb]
  exact halted_driveRound_iterate hb r

/-- The rounds of a bounded run come to an end, and that is where it ends. -/
theorem exists_rounds_eq_drive (rules : Ruleset) (hb : budget.steps = some limit) (r : Runner) :
    ∃ n, (driveRound rules budget false)^[n] r = r.drive rules budget false ∧
      ∀ m < n, ((driveRound rules budget false)^[m] r).halted = false := by
  have hhalted := halted_drive rules hb r
  rw [drive_eq_iterate hb] at hhalted ⊢
  have hend : ∃ n, ((driveRound rules budget false)^[n] r).halted = true := ⟨_, hhalted⟩
  refine ⟨Nat.find hend, ?_, fun m hm => Bool.eq_false_iff.mpr (Nat.find_min hend hm)⟩
  -- past the first round that ends the run, nothing changes
  obtain ⟨k, hk⟩ := Nat.exists_eq_add_of_le' (Nat.find_min' hend hhalted)
  rw [hk, Function.iterate_add_apply, iterate_driveRound_of_halted (Nat.find_spec hend)]

/-! ## Against the unbounded run -/

/-- A bounded run has ended by itself within the budget, or it was stopped with the
    budget spent and a rule to apply. -/
theorem drive_cases (rules : Ruleset) (hb : budget.steps = some limit) (r : Runner) :
    (Yields rules r .run (r.drive rules budget false) ∧
      (r.drive rules budget false).stepCount ≤ max limit r.stepCount) ∨
    (((step rules)^[limit - r.stepCount] r).canStep rules = true ∧
      ((step rules)^[limit - r.stepCount] r).stepCount = max limit r.stepCount ∧
      r.drive rules budget false = (((step rules)^[limit - r.stepCount] r).log
        (.budgetSpent budget.shown)).halt .stopped) := by
  have hended := halted_drive rules hb r
  rw [drive_eq hb] at hended
  rw [drive_eq hb, yields_run_iff]
  cases hp : ((step rules)^[limit - r.stepCount] r).halted with
  | true =>
      have hcount := stepCount_iterate_le rules r (limit - r.stepCount)
      rw [driveRound_of_halted hp]
      exact Or.inl ⟨⟨_, rfl, hp⟩, by omega⟩
  | false =>
      have hcount : ((step rules)^[limit - r.stepCount] r).stepCount = max limit r.stepCount := by
        rw [stepCount_iterate_of_running hp]
        omega
      cases hcan : ((step rules)^[limit - r.stepCount] r).canStep rules with
      | true =>
          have hspent : budget.isSpent ((step rules)^[limit - r.stepCount] r).stepCount = true := by
            rw [isSpent_eq hb, hcount]
            exact decide_eq_true (by omega)
          exact Or.inr ⟨rfl, hcount, driveRound_of_canStep hspent hcan⟩
      | false =>
          -- the step that finds no rule is the next of the unbounded run
          rw [driveRound_eq_step (Or.inr hcan)] at hended ⊢
          obtain ⟨_, hfree⟩ := step_of_canStep_eq_false hcan
          exact Or.inl ⟨⟨limit - r.stepCount + 1, Function.iterate_succ_apply' _ _ _, hended⟩,
            by omega⟩

/-- Where a rule still applies, the run has further steps before it. -/
theorem stepCount_lt_of_run {n : Nat} {r' : Runner}
    (hcan : ((step rules)^[n] r).canStep rules = true) (hrun : Yields rules r .run r') :
    ((step rules)^[n] r).stepCount < r'.stepCount := by
  have hrunning := halted_eq_false_of_canStep hcan
  obtain ⟨rule, hrule⟩ := firstApplicable?_of_canStep hcan
  obtain ⟨m, rfl, hm⟩ := yields_run_iff.mp hrun
  have hlt : n < m := by
    by_contra hle
    rw [iterate_step_eq_of_le hm (Nat.le_of_not_lt hle), hm] at hrunning
    cases hrunning
  have hnext := stepCount_iterate_mono rules r hlt
  rw [Function.iterate_succ_apply', stepCount_step_of_some hrunning hrule] at hnext
  omega

theorem driveBy_int (settings : RunnerSettings) {L : Int} (hL : 1 ≤ L) (stopOnStall : Bool) :
    r.driveBy settings rules (.int L) (.bool stopOnStall) =
      .ok (r.drive rules (.ofInt L) stopOnStall) := by
  have hlimit : Budget.ofLimit settings (.int L) = .ok (.ofInt L) := if_neg (by omega)
  rw [driveBy, hlimit]
  rfl

/-- Bounded driving refines the unbounded run. Its rounds come to an end. If the run
    without a bound ends with no more steps than the budget allows, or than there were
    already, the bounded run ends in the same state. Otherwise it is stopped after
    exactly that many steps, on a word of the unbounded run, and its history is what
    the unbounded run has by then. -/
theorem driveBy_refines_run (settings : RunnerSettings) (rules : Ruleset) (r : Runner) {L : Int}
    (hL : 1 ≤ L) :
    ∃ d, r.driveBy settings rules (.int L) (.bool false) = .ok d ∧ d.halted = true ∧
      (∃ n, (driveRound rules (.ofInt L) false)^[n] r = d ∧
        ∀ m < n, ((driveRound rules (.ofInt L) false)^[m] r).halted = false) ∧
      (∀ r', Yields rules r .run r' → r'.stepCount ≤ max L.toNat r.stepCount → d = r') ∧
      ((¬ ∃ r', Yields rules r .run r' ∧ r'.stepCount ≤ max L.toNat r.stepCount) →
        d.termination = some .stopped ∧ d.stepCount = max L.toNat r.stepCount ∧
        d.context = ((step rules)^[L.toNat - r.stepCount] r).context ∧
        ∀ n, L.toNat - r.stepCount ≤ n → d.history.toList =
          ((step rules)^[n] r).history.toList.take (max L.toNat r.stepCount + 1)) := by
  have hb : (Budget.ofInt L).steps = some L.toNat := rfl
  refine ⟨_, driveBy_int settings hL false, halted_drive rules hb r,
    exists_rounds_eq_drive rules hb r, ?_, ?_⟩
  · intro r' hrun hle
    rcases drive_cases rules hb r with ⟨hended, _⟩ | ⟨hcan, hcount, _⟩
    · exact hended.run_unique hrun
    · -- stopped with a rule to apply: the unbounded run has more steps than allowed
      have hlt := stepCount_lt_of_run hcan hrun
      omega
  · intro hnone
    rcases drive_cases rules hb r with hended | ⟨hcan, hcount, hstopped⟩
    · exact absurd ⟨_, hended⟩ hnone
    · have hrunning := halted_eq_false_of_canStep hcan
      rw [hstopped, termination_halt (by rwa [halted_log]), stepCount_halt, context_halt,
        history_halt, history_log, context_log]
      refine ⟨rfl, hcount, rfl, ?_⟩
      intro n hn
      exact history_iterate_eq_take rules r hn hcount (by omega)

/-- With `ab -> b` from `aab`, a budget of two steps is exactly spent when the run ends
    by itself, and a budget of one step is too small. -/
theorem driveBy_refines_run_shrinking :
    ∃ rules d₁ d₂,
      (start ['a', 'a', 'b']).driveBy .standard rules (.int 1) (.bool false) = .ok d₁ ∧
      d₁.termination = some .stopped ∧ d₁.stepCount = 1 ∧
      (start ['a', 'a', 'b']).driveBy .standard rules (.int 2) (.bool false) = .ok d₂ ∧
      d₂.termination = some .natural ∧ d₂.stepCount = 2 := by
  let rules : Ruleset :=
    ⟨[⟨['a', 'b'], ['b'], false, List.all_eq_true.mp rfl, List.all_eq_true.mp rfl⟩]⟩
  have hrun : ((start ['a', 'a', 'b']).runWithin rules 3).map
      (fun r => (r.termination, r.stepCount)) = some (some .natural, 2) := by
    decide +kernel
  obtain ⟨r', hr', hend⟩ := Option.map_eq_some_iff.mp hrun
  obtain ⟨hnatural, hcount⟩ := Prod.mk.inj hend
  obtain ⟨d₁, hd₁, _, _, _, hcut⟩ :=
    driveBy_refines_run .standard rules (start ['a', 'a', 'b']) (L := 1) (by decide)
  obtain ⟨d₂, hd₂, _, _, hsame, _⟩ :=
    driveBy_refines_run .standard rules (start ['a', 'a', 'b']) (L := 2) (by decide)
  have hd : d₂ = r' := hsame r' (.run hr') (Nat.le_of_eq hcount)
  have hnone : ¬ ∃ r', Yields rules (start ['a', 'a', 'b']) .run r' ∧ r'.stepCount ≤ 1 := by
    rintro ⟨r₁, h₁, hle⟩
    rw [h₁.run_unique (.run hr'), hcount] at hle
    omega
  obtain ⟨hstopped, hone, _⟩ := hcut hnone
  exact ⟨rules, d₁, d₂, hd₁, hstopped, hone, hd₂, hd ▸ hnatural, hd ▸ hcount⟩

end NormalAlgorithm.Runner
