/-
  NormalAlgorithm.Proofs.Runner.Stall

  Stalled runs.

  A step that applies a rule and leaves the word as it was finds the same word again,
  and so the same rule. The run is stuck on that rule (`StuckOn`): every further step
  repeats the last entry and changes nothing else (`StuckOn.iterate`).

    * `stalled_is_stuck_forever`: a stalled runner whose ruleset is not changed repeats its
      last step for ever, and a run without a bound does not return.
    * `stop_on_stall_keeps_outcome`: a bounded run that stops on stalls ends on the same
      word, in the same way and with the same stall as one that does not, and what the
      latter has more in its history are copies of the last entry.

  The two runs are compared round by round (`Lags`). They are the same until a step
  stalls. From there on one has stopped, and the other repeats its last step until its
  budget is spent, and is stopped then.
-/

import NormalAlgorithm.Proofs.Runner.Bounded

namespace NormalAlgorithm.Runner

variable {rules : Ruleset} {rule : Rule} {budget : Budget} {r t f : Runner}

/-! ## Stuck runners -/

/-- The last step applied the rule and left the word as it was, and the next step will
    apply the same rule. -/
structure StuckOn (rules : Ruleset) (rule : Rule) (r : Runner) : Prop where
  running : r.halted = false
  applies : rules.firstApplicable? r.context = some rule
  goesOn : rule.terminating = false
  same : rule.apply r.context = r.context
  stalled : r.stalled = true
  last : r.history.back? = some ⟨r.context, some rule⟩

/-- A step that leaves the word as it was ends in a stuck runner. -/
theorem stuckOn_step (hh : r.halted = false)
    (hrule : rules.firstApplicable? r.context = some rule) (hterm : rule.terminating = false)
    (hsame : rule.apply r.context = r.context) : StuckOn rules rule (r.step rules) := by
  have hcontext : (r.step rules).context = r.context := by
    rw [context_step_of_some hh hrule, hsame]
  have hstalled : (r.step rules).stalled = true := by
    rw [stalled_step_of_some hh hrule, hterm, decide_eq_true hsame]
    rfl
  refine ⟨?_, ?_, hterm, ?_, hstalled, ?_⟩
  · rw [halted_step_of_some hh hrule, hterm]
  · rw [hcontext, hrule]
  · rw [hcontext, hsame]
  · rw [history_step_of_some hh hrule, Array.back?_push, hcontext, hsame]

/-- Whatever the runner was before, a step that stalls leaves it stuck. -/
theorem exists_stuckOn_step (hh : r.halted = false) (h : (r.step rules).stalled = true) :
    ∃ rule, StuckOn rules rule (r.step rules) := by
  cases hrule : rules.firstApplicable? r.context with
  | none =>
      rw [stalled_step_of_none hh hrule] at h
      cases h
  | some rule =>
      rw [stalled_step_of_some hh hrule, Bool.and_eq_true, Bool.not_eq_true',
        decide_eq_true_eq] at h
      exact ⟨rule, stuckOn_step hh hrule h.1 h.2⟩

namespace StuckOn

theorem step (h : StuckOn rules rule r) : StuckOn rules rule (r.step rules) :=
  stuckOn_step h.running h.applies h.goesOn h.same

theorem context_step (h : StuckOn rules rule r) : (r.step rules).context = r.context := by
  rw [context_step_of_some h.running h.applies, h.same]

theorem history_step (h : StuckOn rules rule r) :
    (r.step rules).history = r.history.push ⟨r.context, some rule⟩ := by
  have hne : r.history ≠ #[] := Array.ne_empty_of_mem (Array.mem_of_back? h.last)
  rw [history_step_of_some h.running h.applies, h.same, recordStart_of_nonempty hne]

theorem fired?_eq (h : StuckOn rules rule r) : r.fired? rules = some rule := by
  rw [fired?, h.running, h.applies]
  rfl

theorem canStep (h : StuckOn rules rule r) : r.canStep rules = true := by
  rw [Runner.canStep, h.fired?_eq]
  rfl

/-- A stuck runner stays stuck on the same rule and word, and each step adds a copy of
    its last entry. -/
theorem iterate (h : StuckOn rules rule r) (n : Nat) :
    StuckOn rules rule ((Runner.step rules)^[n] r) ∧
    ((Runner.step rules)^[n] r).context = r.context ∧
    ((Runner.step rules)^[n] r).history.toList =
      r.history.toList ++ List.replicate n ⟨r.context, some rule⟩ := by
  induction n with
  | zero => exact ⟨h, rfl, by rw [List.replicate_zero, List.append_nil]; rfl⟩
  | succ n ih =>
      obtain ⟨hstuck, hcontext, hhistory⟩ := ih
      rw [Function.iterate_succ_apply']
      refine ⟨hstuck.step, ?_, ?_⟩
      · rw [hstuck.context_step, hcontext]
      · rw [hstuck.history_step, Array.toList_push, hhistory, hcontext, List.append_assoc,
          List.replicate_succ']

end StuckOn

/-! ## Stalled runners -/

/-- A stall that calls under one ruleset find is one that was there before them, with no
    step since, or the runner is stuck. -/
def StallsOn (rules : Ruleset) (r₀ r : Runner) : Prop :=
  r.halted = false → r.stalled = true →
    (r₀.stalled = true ∧ r.history = r₀.history) ∨ ∃ rule, StuckOn rules rule r

theorem stallsOn_of_halted {r₀ : Runner} (h : r.halted = true) : StallsOn rules r₀ r := by
  intro hrunning
  rw [h] at hrunning
  cases hrunning

theorem closed_stallsOn (rules : Ruleset) (r₀ : Runner) : Closed rules (StallsOn rules r₀) where
  -- what a step leaves does not depend on the stall before it
  step _ hh _ := fun _ hstalled => Or.inr (exists_stuckOn_step hh hstalled)
  stop _ _ _ := stallsOn_of_halted halted_halt
  spend _ _ _ _ _ := stallsOn_of_halted halted_halt

/-- A stalled runner is stuck forever. Let any calls under one ruleset lead from `r₀` to a
    stalled runner `r` that has not halted, and let the stalled step be one of theirs: `r₀`
    was not stalled, or there are new entries since. What was done to the runner and to its
    ruleset before `r₀` does not matter. Then each further step applies the rule of the
    stalled one, leaves the word as it is, adds a copy of the last entry, and leaves the
    runner stalled and not halted. So a run from there does not return. -/
theorem stalled_is_stuck_forever {r₀ : Runner} {calls : List Call}
    (h : Reaches r₀ (calls.map (rules, ·)) r) (hrunning : r.halted = false)
    (hstalled : r.stalled = true) (hsince : r₀.stalled = false ∨ r.history ≠ r₀.history) :
    ∃ rule, r.history.back? = some ⟨r.context, some rule⟩ ∧
      (∀ n, ((step rules)^[n] r).fired? rules = some rule ∧
        ((step rules)^[n] r).context = r.context ∧
        ((step rules)^[n] r).history.toList =
          r.history.toList ++ List.replicate n ⟨r.context, some rule⟩ ∧
        ((step rules)^[n] r).stalled = true ∧ ((step rules)^[n] r).halted = false) ∧
      ∀ r', ¬ Yields rules r .run r' := by
  have hstalls : StallsOn rules r₀ r := by
    refine h.keeps ?_ fun _ hold => Or.inl ⟨hold, rfl⟩
    intro x hx
    obtain ⟨call, _, rfl⟩ := List.mem_map.mp hx
    exact closed_stallsOn rules r₀
  rcases hstalls hrunning hstalled with ⟨hold, hsame⟩ | ⟨rule, hstuck⟩
  · rcases hsince with hfresh | hmore
    · rw [hold] at hfresh
      cases hfresh
    · exact absurd hsame hmore
  · refine ⟨rule, hstuck.last, ?_, ?_⟩
    · intro n
      obtain ⟨hlater, hcontext, hhistory⟩ := hstuck.iterate n
      exact ⟨hlater.fired?_eq, hcontext, hhistory, hlater.stalled, hlater.running⟩
    · -- where a run returns the runner has halted, and no number of steps leads there
      intro r' hrun
      obtain ⟨n, rfl, hhalted⟩ := yields_run_iff.mp hrun
      rw [(hstuck.iterate n).1.running] at hhalted
      cases hhalted

/-- A runner that has stalled with `a -> a` is given another ruleset, in which `b -> b` stands
    before that rule, and another context `ab`. A step stalls again, and it is the new rule
    that repeats. -/
theorem stalled_is_stuck_forever_rules_changed :
    ∃ old new r₀, r₀ = { (start ['a']).step old with context := ['a', 'b'] } ∧
      r₀.stalled = true ∧ (r₀.step new).stalled = true ∧
      ∃ rule, rule.pattern = ['b'] ∧
        (∀ n, ((step new)^[n] (r₀.step new)).fired? new = some rule) ∧
        ∀ r', ¬ Yields new (r₀.step new) .run r' := by
  let idle : Rule := ⟨['a'], ['a'], false, List.all_eq_true.mp rfl, List.all_eq_true.mp rfl⟩
  let other : Rule := ⟨['b'], ['b'], false, List.all_eq_true.mp rfl, List.all_eq_true.mp rfl⟩
  let r₀ : Runner := { (start ['a']).step ⟨[idle]⟩ with context := ['a', 'b'] }
  have hstalled : (r₀.step ⟨[other, idle]⟩).stalled = true := by decide +kernel
  have hrunning : (r₀.step ⟨[other, idle]⟩).halted = false := by decide +kernel
  have hnew : (r₀.step ⟨[other, idle]⟩).history ≠ r₀.history := by decide +kernel
  have hreach : Reaches r₀ ([Call.step].map (⟨[other, idle]⟩, ·)) (r₀.step ⟨[other, idle]⟩) :=
    Reaches.start.call .step
  obtain ⟨rule, hlast, hsteps, hrun⟩ :=
    stalled_is_stuck_forever hreach hrunning hstalled (Or.inr hnew)
  refine ⟨⟨[idle]⟩, ⟨[other, idle]⟩, r₀, rfl, by decide +kernel, hstalled, rule, ?_,
    fun n => (hsteps n).1, hrun⟩
  have hback : (r₀.step ⟨[other, idle]⟩).history.back? = some ⟨['a', 'b'], some other⟩ := by
    decide +kernel
  rw [hback, Option.some.injEq, Entry.mk.injEq, Option.some.injEq] at hlast
  rw [← hlast.2]

/-! ## Two bounded runs -/

/-- Two runs from one runner, the first of which stops on stalls: they are still the
    same, or the first has stopped on a stall and the second has repeated the last
    step since, and may have been stopped over its budget. -/
inductive Lags (rules : Ruleset) : Runner → Runner → Prop where
  | same (r : Runner) : Lags rules r r
  | going {rule : Rule} {s : Runner} (h : StuckOn rules rule s) (n : Nat) :
    Lags rules (s.halt .stopped) ((step rules)^[n] s)
  | stopped {rule : Rule} {s : Runner} (h : StuckOn rules rule s) (n : Nat) (limit : Int) :
    Lags rules (s.halt .stopped) ((((step rules)^[n] s).log (.budgetSpent limit)).halt .stopped)

/-- From a common runner, one round keeps the two runs together or stops the first on a
    stall. -/
theorem lags_driveRound_same (rules : Ruleset) (budget : Budget) (r : Runner) :
    Lags rules (r.driveRound rules budget true) (r.driveRound rules budget false) := by
  cases hh : r.halted with
  | true =>
      rw [driveRound_of_halted hh, driveRound_of_halted hh]
      exact .same r
  | false =>
      by_cases hspent : budget.isSpent r.stepCount = true ∧ r.canStep rules = true
      · rw [driveRound_of_canStep hspent.1 hspent.2, driveRound_of_canStep hspent.1 hspent.2]
        exact .same _
      · rw [not_and_or, Bool.not_eq_true, Bool.not_eq_true] at hspent
        rw [driveRound_of_unspent hspent, driveRound_eq_step hspent, Bool.true_and]
        split
        · rename_i hstalled
          obtain ⟨rule, hstuck⟩ := exists_stuckOn_step hh hstalled
          exact .going hstuck 0
        · exact .same _

theorem Lags.driveRound (h : Lags rules t f) (budget : Budget) :
    Lags rules (t.driveRound rules budget true) (f.driveRound rules budget false) := by
  cases h with
  | same => exact lags_driveRound_same rules budget t
  | @going rule s hstuck n =>
      rw [driveRound_of_halted halted_halt]
      obtain ⟨hlater, _, _⟩ := hstuck.iterate n
      cases hspent : budget.isSpent ((step rules)^[n] s).stepCount with
      | true =>
          rw [driveRound_of_canStep hspent hlater.canStep]
          exact .stopped hstuck n budget.shown
      | false =>
          rw [driveRound_eq_step (Or.inl hspent),
            ← Function.iterate_succ_apply' (step rules) n s]
          exact .going hstuck (n + 1)
  | stopped hstuck n limit =>
      rw [driveRound_of_halted halted_halt, driveRound_of_halted halted_halt]
      exact .stopped hstuck n limit

theorem Lags.iterate (h : Lags rules t f) (budget : Budget) (n : Nat) :
    Lags rules ((Runner.driveRound rules budget true)^[n] t)
      ((Runner.driveRound rules budget false)^[n] f) := by
  induction n with
  | zero => exact h
  | succ n ih =>
      rw [Function.iterate_succ_apply', Function.iterate_succ_apply']
      exact ih.driveRound budget

/-- Once the second run has ended, the two have ended alike, and the second has only
    copies of the first one's last entry more. -/
theorem Lags.outcome (h : Lags rules t f) (hf : f.halted = true) :
    t.halted = true ∧ f.context = t.context ∧ f.termination = t.termination ∧
      f.stalled = t.stalled ∧
      ∃ more, f.history.toList = t.history.toList ++ more ∧
        ∀ e ∈ more, t.history.back? = some e := by
  cases h with
  | same => exact ⟨hf, rfl, rfl, rfl, [], (List.append_nil _).symm, by simp⟩
  | going hstuck n =>
      -- a stuck runner goes on
      rw [(hstuck.iterate n).1.running] at hf
      cases hf
  | @stopped rule s hstuck n limit =>
      obtain ⟨hlater, hcontext, hhistory⟩ := hstuck.iterate n
      refine ⟨halted_halt, ?_, ?_, ?_, List.replicate n ⟨s.context, some rule⟩, ?_, ?_⟩
      · rw [context_halt, context_log, context_halt, hcontext]
      · rw [termination_halt (by rw [halted_log, hlater.running]),
          termination_halt hstuck.running]
      · rw [stalled_halt, stalled_log, stalled_halt, hlater.stalled, hstuck.stalled]
      · rw [history_halt, history_log, history_halt, hhistory]
      · intro e he
        rw [history_halt, hstuck.last, List.eq_of_mem_replicate he]

/-- Stopping on stalls changes the length of the history and nothing else. With any
    limit of at least one step, both runs end, on the same word, in the same way and
    with the same stall. The history of the one that stops on stalls is the beginning of
    the other, and every entry after it is a copy of its last one. -/
theorem stop_on_stall_keeps_outcome (settings : RunnerSettings) (rules : Ruleset) (r : Runner)
    {L : Int} (hL : 1 ≤ L) :
    ∃ t f, r.driveBy settings rules (.int L) (.bool true) = .ok t ∧
      r.driveBy settings rules (.int L) (.bool false) = .ok f ∧
      t.halted = true ∧ f.halted = true ∧
      f.context = t.context ∧ f.termination = t.termination ∧ f.stalled = t.stalled ∧
      ∃ more, f.history.toList = t.history.toList ++ more ∧
        ∀ e ∈ more, t.history.back? = some e := by
  have hb : (Budget.ofInt L).steps = some L.toNat := rfl
  have hended := halted_drive rules hb r
  have hlags : Lags rules (r.drive rules (.ofInt L) true) (r.drive rules (.ofInt L) false) := by
    rw [drive_eq_iterate hb, drive_eq_iterate hb]
    exact (Lags.same r).iterate _ _
  obtain ⟨hstopped, houtcome⟩ := hlags.outcome hended
  exact ⟨_, _, driveBy_int settings hL true, driveBy_int settings hL false, hstopped, hended,
    houtcome⟩

/-- With `a -> b` and `b -> b` from `a`, the second step stalls. With a limit of five
    steps, one run has two steps and the other five. -/
theorem stop_on_stall_keeps_outcome_repeating :
    ∃ rules t f, (start ['a']).driveBy .standard rules (.int 5) (.bool true) = .ok t ∧
      (start ['a']).driveBy .standard rules (.int 5) (.bool false) = .ok f ∧
      t.stepCount = 2 ∧ f.stepCount = 5 ∧ f.context = t.context ∧
      f.termination = t.termination ∧ f.stalled = t.stalled ∧
      ∃ more, f.history.toList = t.history.toList ++ more ∧
        ∀ e ∈ more, t.history.back? = some e := by
  let rules : Ruleset :=
    ⟨[⟨['a'], ['b'], false, List.all_eq_true.mp rfl, List.all_eq_true.mp rfl⟩,
      ⟨['b'], ['b'], false, List.all_eq_true.mp rfl, List.all_eq_true.mp rfl⟩]⟩
  have htwo : ((start ['a']).driveBy .standard rules (.int 5) (.bool true)).toOption.map
      stepCount = some 2 := by decide +kernel
  have hfive : ((start ['a']).driveBy .standard rules (.int 5) (.bool false)).toOption.map
      stepCount = some 5 := by decide +kernel
  obtain ⟨t, f, ht, hf, _, _, houtcome⟩ :=
    stop_on_stall_keeps_outcome .standard rules (start ['a']) (L := 5) (by decide)
  rw [ht] at htwo
  rw [hf] at hfive
  exact ⟨rules, t, f, ht, hf, Option.some.inj htwo, Option.some.inj hfive, houtcome⟩

end NormalAlgorithm.Runner
