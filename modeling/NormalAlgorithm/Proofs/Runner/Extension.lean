/-
  NormalAlgorithm.Proofs.Runner.Extension

  Rulesets with further rules at their end.

  The first rules have priority: where one of them applies, a runner of the longer
  ruleset takes the same step (`step_append_of_some`), so the two runs are one and the
  same up to the step at which the shorter ruleset finds no rule (`iterate_append_of_running`).
  From there the longer one goes on with the first of the further rules that applies
  (`GoesOn`).

    * `appended_rules_act_last`: the two runs, step by step, and how the second goes on
      when the first has halted.
-/

import NormalAlgorithm.Proofs.Runner.Derivation
import NormalAlgorithm.Proofs.Runner.Run

namespace NormalAlgorithm

/-- Rules at the end are looked at only if no rule before them applies. -/
theorem Ruleset.firstApplicable?_append (R S : List Rule) (w : Word) :
    firstApplicable? ⟨R ++ S⟩ w = (firstApplicable? ⟨R⟩ w).or (firstApplicable? ⟨S⟩ w) :=
  List.find?_append

theorem Ruleset.firstApplicable?_eq_none_iff {rules : Ruleset} {w : Word} :
    rules.firstApplicable? w = none ↔ ∀ q ∈ rules.rules, ¬ q.pattern <:+: w := by
  simp only [firstApplicable?, List.find?_eq_none, Rule.occursIn_iff]

namespace Runner

variable {R S : List Rule} {rules : Ruleset} {r : Runner} {rule : Rule}

/-- The run of `r` has come to its end, and `t` goes on from there with further rules: it
    applies the first of them that it can, and halts as `r` has if it can apply none. -/
inductive GoesOn (rules : Ruleset) (further : List Rule) (r t : Runner) : Prop where
  | applies {rule : Rule} (first : Ruleset.IsFirst ⟨further⟩ r.context rule)
      (fired : t.fired? rules = some rule)
      (rewrites : rule.Rewrites r.context (t.step rules).context)
      (history : (t.step rules).history = r.history.push ⟨(t.step rules).context, some rule⟩)
  | halts (absent : ∀ q ∈ further, ¬ q.pattern <:+: r.context) (fired : t.fired? rules = none)
      (same : t.step rules = r)

/-! ## One step -/

theorem fired?_of_running (h : r.halted = false) :
    r.fired? rules = rules.firstApplicable? r.context := by
  rw [fired?, h]
  rfl

theorem halted_eq_false_of_fired? (h : r.fired? rules = some rule) : r.halted = false := by
  cases hh : r.halted with
  | false => rfl
  | true =>
      rw [fired?, hh] at h
      cases h

/-- Where one of the first rules applies, the further ones have no part in a step. -/
theorem step_append_of_some (h : r.halted = false)
    (hrule : Ruleset.firstApplicable? ⟨R⟩ r.context = some rule) :
    r.step ⟨R ++ S⟩ = r.step ⟨R⟩ := by
  have happend : Ruleset.firstApplicable? ⟨R ++ S⟩ r.context = some rule := by
    rw [Ruleset.firstApplicable?_append, hrule, Option.some_or]
  rw [step_of_some h happend, step_of_some h hrule]

/-- Where none of the first rules applies, the run of these has come to its end, and that
    of the longer ruleset goes on. -/
theorem goesOn_of_none (h : r.halted = false)
    (hrule : Ruleset.firstApplicable? ⟨R⟩ r.context = none) :
    GoesOn ⟨R ++ S⟩ S (r.step ⟨R⟩) r := by
  have happend : Ruleset.firstApplicable? ⟨R ++ S⟩ r.context =
      Ruleset.firstApplicable? ⟨S⟩ r.context := by
    rw [Ruleset.firstApplicable?_append, hrule, Option.none_or]
  have hcontext : (r.step ⟨R⟩).context = r.context := context_step_of_none h hrule
  cases hfirst : Ruleset.firstApplicable? ⟨S⟩ r.context with
  | some rule =>
      rw [hfirst] at happend
      have hisFirst := Ruleset.firstApplicable?_eq_some_iff.mp hfirst
      refine .applies (hcontext ▸ hisFirst) ?_ ?_ ?_
      · rw [fired?_of_running h, happend]
      · rw [hcontext, context_step_of_some h happend]
        exact Rule.rewrites_apply hisFirst.occurs
      · rw [history_step_of_some h happend, context_step_of_some h happend,
          history_step_of_none h hrule]
  | none =>
      rw [hfirst] at happend
      refine .halts ?_ ?_ ?_
      · rw [hcontext]
        exact Ruleset.firstApplicable?_eq_none_iff.mp hfirst
      · rw [fired?_of_running h, happend]
      · rw [step_of_none h happend, step_of_none h hrule]

/-! ## Runs -/

/-- As long as the run of the first rules has not ended, further rules make no difference. -/
theorem iterate_append_of_running {n : Nat} (h : ((step ⟨R⟩)^[n] r).halted = false) :
    (step ⟨R ++ S⟩)^[n] r = (step ⟨R⟩)^[n] r := by
  induction n with
  | zero => rfl
  | succ n ih =>
      rw [Function.iterate_succ_apply'] at h
      have hh := halted_eq_false_of_step h
      rw [Function.iterate_succ_apply', Function.iterate_succ_apply', ih hh]
      cases hrule : Ruleset.firstApplicable? ⟨R⟩ ((step ⟨R⟩)^[n] r).context with
      | some rule => exact step_append_of_some hh hrule
      | none =>
          rw [halted_step_of_none hh hrule] at h
          cases h

/-- A run that has ended has taken a last step. -/
theorem exists_last_step {n : Nat} (h : r.halted = false)
    (hn : ((step rules)^[n] r).halted = true) :
    ∃ m, m < n ∧ ((step rules)^[m] r).halted = false ∧
      (step rules)^[n] r = ((step rules)^[m] r).step rules := by
  induction n with
  | zero =>
      rw [Function.iterate_zero_apply, h] at hn
      cases hn
  | succ n ih =>
      rw [Function.iterate_succ_apply'] at hn ⊢
      cases hh : ((step rules)^[n] r).halted with
      | false => exact ⟨n, Nat.lt_succ_self n, hh, rfl⟩
      | true =>
          obtain ⟨m, hm, hrunning, hlast⟩ := ih hh
          refine ⟨m, Nat.lt_succ_of_lt hm, hrunning, ?_⟩
          rw [step_of_halted hh, hlast]

/-- A run of the first rules that a rule has ended is the run of the longer ruleset. -/
theorem iterate_append_of_explicit {n : Nat} (hflagged : Flagged r) (h : r.halted = false)
    (hn : ((step ⟨R⟩)^[n] r).termination = some .explicit) :
    (step ⟨R ++ S⟩)^[n] r = (step ⟨R⟩)^[n] r := by
  have hhalted := (hflagged.iterate_step ⟨R⟩ n).halted_of_termination hn
  obtain ⟨m, hm, hrunning, hlast⟩ := exists_last_step h hhalted
  cases hrule : Ruleset.firstApplicable? ⟨R⟩ ((step ⟨R⟩)^[m] r).context with
  | none =>
      rw [hlast, termination_step_of_none hrunning hrule] at hn
      cases hn
  | some rule =>
      have hsame : (step ⟨R ++ S⟩)^[m + 1] r = (step ⟨R⟩)^[n] r := by
        rw [Function.iterate_succ_apply', iterate_append_of_running hrunning,
          step_append_of_some hrunning hrule, hlast]
      -- after its last step the longer ruleset's run stays where it is too
      rw [iterate_step_eq_of_le (by rwa [hsame]) hm, hsame]

/-- A run of the first rules that no rule has ended took as many steps as it applied rules,
    and one more to find none. -/
theorem exists_goesOn_of_natural {n : Nat} (hflagged : Flagged r) (h : r.halted = false)
    (hn : ((step ⟨R⟩)^[n] r).termination = some .natural) :
    ∃ m, ((step ⟨R⟩)^[n] r).stepCount = r.stepCount + m ∧
      ((step ⟨R ++ S⟩)^[m] r).halted = false ∧
      ((step ⟨R ++ S⟩)^[m] r).context = ((step ⟨R⟩)^[n] r).context ∧
      ((step ⟨R ++ S⟩)^[m] r).recordStart.history = ((step ⟨R⟩)^[n] r).history ∧
      GoesOn ⟨R ++ S⟩ S ((step ⟨R⟩)^[n] r) ((step ⟨R ++ S⟩)^[m] r) := by
  have hhalted := (hflagged.iterate_step ⟨R⟩ n).halted_of_termination hn
  obtain ⟨m, _, hrunning, hlast⟩ := exists_last_step h hhalted
  rw [hlast] at hn ⊢
  cases hrule : Ruleset.firstApplicable? ⟨R⟩ ((step ⟨R⟩)^[m] r).context with
  | some rule =>
      rw [termination_step_of_some hrunning hrule,
        (hflagged.iterate_step ⟨R⟩ m).termination_eq_none hrunning] at hn
      split at hn <;> cases hn
  | none =>
      refine ⟨m, ?_, ?_⟩
      · rw [stepCount_step_of_none hrunning hrule, stepCount_iterate_of_running hrunning]
      · rw [iterate_append_of_running hrunning]
        exact ⟨hrunning, (context_step_of_none hrunning hrule).symm,
          (history_step_of_none hrunning hrule).symm, goesOn_of_none hrunning hrule⟩

/-- Rules at the end of a ruleset act only where no rule before them can. Step by step, both
    runs apply the same rules as long as the first rules apply; a terminating one ends both
    in the same state. If the first rules come to an end because none of them applies, then
    after as many steps as rules were applied the other run has the same history and goes on
    with the further rules. -/
theorem appended_rules_act_last (R S : List Rule) (c : Word) (n : Nat) :
    (∀ rule, ((step ⟨R⟩)^[n] (start c)).fired? ⟨R⟩ = some rule →
      ((step ⟨R ++ S⟩)^[n] (start c)).fired? ⟨R ++ S⟩ = some rule ∧
      (step ⟨R ++ S⟩)^[n] (start c) = (step ⟨R⟩)^[n] (start c) ∧
      (step ⟨R ++ S⟩)^[n + 1] (start c) = (step ⟨R⟩)^[n + 1] (start c)) ∧
    (((step ⟨R⟩)^[n] (start c)).termination = some .explicit →
      (step ⟨R ++ S⟩)^[n] (start c) = (step ⟨R⟩)^[n] (start c)) ∧
    (((step ⟨R⟩)^[n] (start c)).termination = some .natural →
      ∃ m, ((step ⟨R⟩)^[n] (start c)).stepCount = m ∧
        ((step ⟨R ++ S⟩)^[m] (start c)).halted = false ∧
        ((step ⟨R ++ S⟩)^[m] (start c)).context = ((step ⟨R⟩)^[n] (start c)).context ∧
        ((step ⟨R ++ S⟩)^[m] (start c)).recordStart.history =
          ((step ⟨R⟩)^[n] (start c)).history ∧
        GoesOn ⟨R ++ S⟩ S ((step ⟨R⟩)^[n] (start c)) ((step ⟨R ++ S⟩)^[m] (start c))) := by
  refine ⟨?_, iterate_append_of_explicit (flagged_start c) rfl, ?_⟩
  · intro rule hfired
    have hrunning := halted_eq_false_of_fired? hfired
    have hsame : (step ⟨R ++ S⟩)^[n] (start c) = (step ⟨R⟩)^[n] (start c) :=
      iterate_append_of_running hrunning
    rw [fired?_of_running hrunning] at hfired
    refine ⟨?_, hsame, ?_⟩
    · rw [hsame, fired?_of_running hrunning, Ruleset.firstApplicable?_append, hfired,
        Option.some_or]
    · rw [Function.iterate_succ_apply', Function.iterate_succ_apply', hsame,
        step_append_of_some hrunning hfired]
  · intro hnatural
    obtain ⟨m, hcount, hrest⟩ := exists_goesOn_of_natural (S := S) (flagged_start c) rfl hnatural
    have hzero : (start c).stepCount + m = m := Nat.zero_add m
    exact ⟨m, hcount.trans hzero, hrest⟩

end Runner

end NormalAlgorithm
