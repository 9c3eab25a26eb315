/-
  NormalAlgorithm.Proofs.Runner.Progress

  Runs that make progress.

  What a ruleset does to a word is told by words and rules alone. One application of the
  first rule that applies leads to the next word (`Ruleset.Moves`), and a number of them
  lead on to a word further away (`Ruleset.Advances`); none of the rules terminates or
  puts back what it took. A runner that stands at the beginning of such a way goes along
  it, one step for each application, and is never stalled on it (`Advances.iterate`).

    * `Advances.halts_naturally`: the way ends at a word to which no rule applies.
    * `Advances.halts_explicitly`: it ends at a word to which a terminating rule applies
      first.
-/

import NormalAlgorithm.Proofs.Runner.Extension
import NormalAlgorithm.Proofs.Runner.Status

namespace NormalAlgorithm

/-- Applying a rule is the only way to rewrite by it. -/
theorem Rule.Rewrites.apply_eq {rule : Rule} {w w' : Word} (h : rule.Rewrites w w') :
    rule.apply w = w' := by
  obtain ⟨u, v, hleft, rfl⟩ := h
  exact hleft.replaceFirst_eq rule.replacement

namespace Ruleset

open Runner

/-- `rules.Moves w w'`: the first rule that applies to `w` leads to `w'`, and it neither
    terminates nor has equal sides. -/
inductive Moves (rules : Ruleset) (w w' : Word) : Prop where
  | intro {rule : Rule} (first : rules.IsFirst w rule) (goesOn : rule.terminating = false)
      (differs : rule.pattern ≠ rule.replacement) (rewrites : rule.Rewrites w w')

/-- `rules.Advances n w w'`: `n` moves lead from `w` to `w'`. -/
inductive Advances (rules : Ruleset) : Nat → Word → Word → Prop where
  | refl (w : Word) : Advances rules 0 w w
  | head {n : Nat} {w w₁ w' : Word} (move : rules.Moves w w₁) (rest : Advances rules n w₁ w') :
    Advances rules (n + 1) w w'

variable {rules : Ruleset} {rule : Rule} {n : Nat} {c w w' : Word} {r : Runner}

/-! ## Along the way -/

/-- A runner makes the move by one step, and goes on from there. -/
theorem Moves.step (h : rules.Moves r.context w) (hh : r.halted = false) :
    (r.step rules).context = w ∧ (r.step rules).halted = false ∧
      (r.step rules).stalled = false := by
  cases h with
  | @intro rule first goesOn differs rewrites =>
      have hrule := firstApplicable?_eq_some_iff.mpr first
      have hchanged : rule.apply r.context ≠ r.context := by
        rwa [Ne, Rule.apply_eq_self_iff first.occurs]
      refine ⟨?_, ?_, ?_⟩
      · rw [context_step_of_some hh hrule, rewrites.apply_eq]
      · rw [halted_step_of_some hh hrule, goesOn]
      · rw [stalled_step_of_some hh hrule, decide_eq_false hchanged, Bool.and_false]

/-- A runner at the beginning of the way comes to its end without having halted, and is
    never stalled on it. -/
theorem Advances.iterate (h : rules.Advances n w w') (hw : r.context = w)
    (hh : r.halted = false) (hs : r.stalled = false) :
    ((step rules)^[n] r).context = w' ∧ ((step rules)^[n] r).halted = false ∧
      ∀ m ≤ n, ((step rules)^[m] r).stalled = false := by
  induction h generalizing r with
  | refl =>
      refine ⟨hw, hh, fun m hm => ?_⟩
      have hzero : m = 0 := Nat.le_zero.mp hm
      rwa [hzero]
  | head move _ ih =>
      subst hw
      obtain ⟨hcontext, hrunning, hmoving⟩ := move.step hh
      obtain ⟨hend, hlater, hway⟩ := ih hcontext hrunning hmoving
      refine ⟨hend, hlater, fun m hm => ?_⟩
      cases m with
      | zero => exact hs
      | succ m => exact hway m (Nat.le_of_succ_le_succ hm)

/-! ## Whole runs -/

/-- If the step after the way ends the run and does not stall, a run from the start returns
    there, and the runner is stalled at no time. -/
theorem Advances.run (h : rules.Advances n c w)
    (hhalted : ((step rules)^[n + 1] (start c)).halted = true)
    (hmoving : ((step rules)^[n + 1] (start c)).stalled = false) :
    Yields rules (start c) .run ((step rules)^[n + 1] (start c)) ∧
      ∀ m, ((step rules)^[m] (start c)).stalled = false := by
  refine ⟨yields_run_iff.mpr ⟨n + 1, rfl, hhalted⟩, fun m => ?_⟩
  obtain ⟨_, _, hway⟩ := h.iterate (r := start c) rfl rfl rfl
  rcases Nat.lt_or_ge n m with hlater | hm
  · rw [iterate_step_eq_of_le hhalted hlater]
    exact hmoving
  · exact hway m hm

/-- A way to a word to which no rule applies is a run that ends naturally. -/
theorem Advances.halts_naturally (h : rules.Advances n c w)
    (hnone : ∀ q ∈ rules.rules, ¬ q.pattern <:+: w) :
    ∃ r, Yields rules (start c) .run r ∧ r.termination = some .natural ∧ r.context = w ∧
      r.stepCount = n ∧ ∀ m, ((step rules)^[m] (start c)).stalled = false := by
  obtain ⟨hcontext, hrunning, _⟩ := h.iterate (r := start c) rfl rfl rfl
  have hrule : rules.firstApplicable? ((step rules)^[n] (start c)).context = none := by
    rw [hcontext]
    exact firstApplicable?_eq_none_iff.mpr hnone
  have hlast : (step rules)^[n + 1] (start c) = ((step rules)^[n] (start c)).step rules :=
    Function.iterate_succ_apply' _ _ _
  obtain ⟨hrun, hmoving⟩ := h.run (by rw [hlast, halted_step_of_none hrunning hrule])
    (by rw [hlast, stalled_step_of_none hrunning hrule])
  refine ⟨_, hrun, ?_, ?_, ?_, hmoving⟩
  · rw [hlast, termination_step_of_none hrunning hrule]
  · rw [hlast, context_step_of_none hrunning hrule, hcontext]
  · rw [hlast, stepCount_step_of_none hrunning hrule, stepCount_iterate_of_running hrunning]
    exact Nat.zero_add n

/-- A way to a word to which a terminating rule applies first is a run that this rule
    ends. -/
theorem Advances.halts_explicitly (h : rules.Advances n c w) (hfirst : rules.IsFirst w rule)
    (hterm : rule.terminating = true) (hrewrites : rule.Rewrites w w') :
    ∃ r, Yields rules (start c) .run r ∧ r.termination = some .explicit ∧ r.context = w' ∧
      r.stepCount = n + 1 ∧ ∀ m, ((step rules)^[m] (start c)).stalled = false := by
  obtain ⟨hcontext, hrunning, _⟩ := h.iterate (r := start c) rfl rfl rfl
  have hrule : rules.firstApplicable? ((step rules)^[n] (start c)).context = some rule := by
    rw [hcontext]
    exact firstApplicable?_eq_some_iff.mpr hfirst
  have hlast : (step rules)^[n + 1] (start c) = ((step rules)^[n] (start c)).step rules :=
    Function.iterate_succ_apply' _ _ _
  obtain ⟨hrun, hmoving⟩ := h.run (by rw [hlast, halted_step_of_some hrunning hrule, hterm])
    (by rw [hlast, stalled_step_of_some hrunning hrule, hterm]; rfl)
  refine ⟨_, hrun, ?_, ?_, ?_, hmoving⟩
  · rw [hlast, termination_step_of_some hrunning hrule, hterm]
    rfl
  · rw [hlast, context_step_of_some hrunning hrule, hcontext, hrewrites.apply_eq]
  · rw [hlast, stepCount_step_of_some hrunning hrule, stepCount_iterate_of_running hrunning]
    exact congrArg (· + 1) (Nat.zero_add n)

end Ruleset

end NormalAlgorithm
