/-
  NormalAlgorithm.Proofs.Runner.Run

  Runs without a bound, as repeated steps.

  A run that has ended stays where it is, so a run is found among the iterates of a
  step: it ends in the first of them that has halted, and every later one is the same.

    * `stepCount_iterate_of_running`: up to there each step applies a rule.
    * `history_iterate_isPrefix`: each history goes on from the earlier ones.
    * `yields_run_iff`: where a run ends.
    * `Yields.run_eq_some`: a run without a bound finds that state.
    * `Yields.run_unique`: a run ends in one state only.
    * `Yields.unique`, `Reaches.unique`: so do all calls and sequences of calls.
    * `Reaches.eq_of_halted`: a runner that has halted stays as it is.
-/

import Mathlib.Logic.Function.Iterate
import NormalAlgorithm.Proofs.Runner.Calls

namespace NormalAlgorithm.Runner

variable {rules : Ruleset} {r r' : Runner}

/-! ## One step -/

theorem halted_eq_false_of_step (h : (r.step rules).halted = false) : r.halted = false := by
  cases hh : r.halted with
  | false => rfl
  | true => rwa [step_of_halted hh, hh] at h

/-- A step that does not end the run has applied a rule. -/
theorem stepCount_step_of_running (h : (r.step rules).halted = false) :
    (r.step rules).stepCount = r.stepCount + 1 := by
  have hh := halted_eq_false_of_step h
  cases hrule : rules.firstApplicable? r.context with
  | none =>
      rw [halted_step_of_none hh hrule] at h
      cases h
  | some rule => exact stepCount_step_of_some hh hrule

theorem stepCount_step_le (rules : Ruleset) (r : Runner) :
    (r.step rules).stepCount ≤ r.stepCount + 1 := by
  cases hh : r.halted with
  | true =>
      rw [step_of_halted hh]
      omega
  | false =>
      cases hrule : rules.firstApplicable? r.context with
      | none =>
          rw [stepCount_step_of_none hh hrule]
          omega
      | some rule => exact Nat.le_of_eq (stepCount_step_of_some hh hrule)

/-! ## Many steps -/

theorem iterate_step_of_halted (h : r.halted = true) (n : Nat) : (step rules)^[n] r = r :=
  Function.iterate_fixed (step_of_halted h) n

/-- From the state in which a run has ended, steps lead nowhere. -/
theorem iterate_step_eq_of_le {m n : Nat} (h : ((step rules)^[m] r).halted = true) (hmn : m ≤ n) :
    (step rules)^[n] r = (step rules)^[m] r := by
  obtain ⟨k, rfl⟩ := Nat.exists_eq_add_of_le' hmn
  rw [Function.iterate_add_apply, iterate_step_of_halted h]

theorem iterate_step_eq_of_halted {m n : Nat} (hm : ((step rules)^[m] r).halted = true)
    (hn : ((step rules)^[n] r).halted = true) : (step rules)^[m] r = (step rules)^[n] r := by
  -- the later of the two is the earlier one still
  rcases Nat.le_total m n with h | h
  · exact (iterate_step_eq_of_le hm h).symm
  · exact iterate_step_eq_of_le hn h

theorem Flagged.iterate_step (h : Flagged r) (rules : Ruleset) (n : Nat) :
    Flagged ((Runner.step rules)^[n] r) := by
  induction n with
  | zero => exact h
  | succ n ih =>
      rw [Function.iterate_succ_apply']
      exact ih.step rules

theorem stepCount_iterate_le (rules : Ruleset) (r : Runner) (n : Nat) :
    ((step rules)^[n] r).stepCount ≤ r.stepCount + n := by
  induction n with
  | zero => exact Nat.le_refl _
  | succ n ih =>
      rw [Function.iterate_succ_apply']
      have hstep := stepCount_step_le rules ((step rules)^[n] r)
      omega

/-- As long as the run has not ended, every step has applied a rule. -/
theorem stepCount_iterate_of_running {n : Nat} (h : ((step rules)^[n] r).halted = false) :
    ((step rules)^[n] r).stepCount = r.stepCount + n := by
  induction n with
  | zero => rfl
  | succ n ih =>
      rw [Function.iterate_succ_apply'] at h ⊢
      rw [stepCount_step_of_running h, ih (halted_eq_false_of_step h), Nat.add_assoc]

/-- The history after some steps is the beginning of every later one. -/
theorem history_iterate_isPrefix (rules : Ruleset) (r : Runner) {m n : Nat} (h : m ≤ n) :
    ((step rules)^[m] r).history.toList <+: ((step rules)^[n] r).history.toList := by
  induction h with
  | refl => exact List.prefix_refl _
  | step _ ih =>
      rw [Function.iterate_succ_apply']
      exact ih.trans (history_step_isPrefix rules _)

theorem stepCount_iterate_mono (rules : Ruleset) (r : Runner) {m n : Nat} (h : m ≤ n) :
    ((step rules)^[m] r).stepCount ≤ ((step rules)^[n] r).stepCount := by
  have hlen := (history_iterate_isPrefix rules r h).length_le
  rw [Array.length_toList, Array.length_toList] at hlen
  rw [stepCount, stepCount]
  omega

/-- A history with a step in it is found at the beginning of every later one. -/
theorem history_iterate_eq_take (rules : Ruleset) (r : Runner) {m n count : Nat} (hmn : m ≤ n)
    (hcount : ((step rules)^[m] r).stepCount = count) (hpos : 0 < count) :
    ((step rules)^[m] r).history.toList = ((step rules)^[n] r).history.toList.take (count + 1) := by
  have hlen : ((step rules)^[m] r).history.toList.length = count + 1 := by
    rw [Array.length_toList]
    rw [stepCount] at hcount
    omega
  rw [← hlen]
  exact List.prefix_iff_eq_take.mp (history_iterate_isPrefix rules r hmn)

/-! ## Runs -/

/-- Stepping until the end, for at most some steps, finds the end if that many steps
    lead there. -/
theorem runWithin_eq_some_iff {fuel : Nat} :
    r.runWithin rules fuel = some r' ↔ (step rules)^[fuel] r = r' ∧ r'.halted = true := by
  induction fuel generalizing r with
  | zero =>
      rw [runWithin, Option.ite_none_right_eq_some, Option.some.injEq, Function.iterate_zero_apply,
        and_comm]
      exact and_congr_right fun h => by rw [h]
  | succ fuel ih =>
      rw [runWithin]
      split
      · rename_i hh
        rw [iterate_step_of_halted hh, Option.some.injEq]
        exact ⟨fun h => ⟨h, h ▸ hh⟩, And.left⟩
      · rw [ih, Function.iterate_succ_apply]

/-- A run ends in the state in which repeated steps have halted. -/
theorem yields_run_iff :
    Yields rules r .run r' ↔ ∃ n, (step rules)^[n] r = r' ∧ r'.halted = true := by
  constructor
  · intro h
    cases h with
    | run hrun => exact ⟨_, runWithin_eq_some_iff.mp hrun⟩
  · rintro ⟨n, h⟩
    exact .run (runWithin_eq_some_iff.mpr h)

theorem run_eq_ite (rules : Ruleset) (r : Runner) :
    r.run rules = if r.halted then some r else (r.step rules).run rules := by
  rw [run, repeatM_eq_of_monadTail]
  split
  · rename_i hh
    simp [repeatM.body, hh]
  · rename_i hh
    simp [repeatM.body, hh, run]

/-- A run that ends is found by a run without a bound. -/
theorem Yields.run_eq_some (h : Yields rules r .run r') : r.run rules = some r' := by
  obtain ⟨n, rfl, hh⟩ := yields_run_iff.mp h
  clear h
  induction n generalizing r with
  | zero =>
      rw [run_eq_ite]
      exact if_pos hh
  | succ n ih =>
      rw [run_eq_ite]
      split
      · rename_i hended
        rw [iterate_step_of_halted hended]
      · exact ih hh

theorem Yields.run_unique {r₁ r₂ : Runner} (h₁ : Yields rules r .run r₁)
    (h₂ : Yields rules r .run r₂) : r₁ = r₂ := by
  obtain ⟨m, rfl, hm⟩ := yields_run_iff.mp h₁
  obtain ⟨n, rfl, hn⟩ := yields_run_iff.mp h₂
  exact iterate_step_eq_of_halted hm hn

/-! ## Calls -/

/-- A call leaves one state only. -/
theorem Yields.unique {call : Call} {r₁ r₂ : Runner}
    (h₁ : Yields rules r call r₁)
    (h₂ : Yields rules r call r₂) : r₁ = r₂ := by
  cases h₁ with
  | step =>
      cases h₂
      rfl
  | run hrun => exact (Yields.run hrun).run_unique h₂
  | stop =>
      cases h₂
      rfl
  | drive hdrive =>
      cases h₂ with
      | drive hdrive' => exact Except.ok.inj (hdrive.symm.trans hdrive')
      | refused hfault => cases hdrive.symm.trans hfault
  | refused hfault =>
      cases h₂ with
      | drive hdrive => cases hfault.symm.trans hdrive
      | refused _ => rfl

theorem Reaches.unique {calls : List (Ruleset × Call)} {r₀ r₁ r₂ : Runner}
    (h₁ : Reaches r₀ calls r₁) (h₂ : Reaches r₀ calls r₂) : r₁ = r₂ := by
  induction h₁ generalizing r₂ with
  | start =>
      generalize hnil : ([] : List (Ruleset × Call)) = past at h₂
      cases h₂ with
      | start => rfl
      | call _ _ => simp at hnil
  | @call past rules call s s' _ hcall ih =>
      generalize hcalls : past ++ [(rules, call)] = all at h₂
      cases h₂ with
      | start => simp at hcalls
      | @call past' rules' call' t t' ht hcall' =>
          -- the last call is the same one, made in the same state
          obtain ⟨rfl, hlast⟩ := List.append_inj' hcalls rfl
          rw [List.singleton_inj, Prod.mk.injEq] at hlast
          obtain ⟨rfl, rfl⟩ := hlast
          rw [← ih ht] at hcall'
          exact hcall.unique hcall'

/-- What a runner that has halted is asked for changes nothing. -/
theorem closed_eq_of_halted (h : r.halted = true) (rules : Ruleset) : Closed rules (· = r) where
  step s hs heq := by
    rw [heq, h] at hs
    cases hs
  stop s hs heq := by
    rw [heq, h] at hs
    cases hs
  spend s _ hs _ heq := by
    rw [heq, h] at hs
    cases hs

theorem Yields.eq_of_halted {call : Call} (hcall : Yields rules r call r') (h : r.halted = true) :
    r' = r :=
  (closed_eq_of_halted h rules).yields rfl hcall

theorem Reaches.eq_of_halted {calls : List (Ruleset × Call)} (hreaches : Reaches r calls r')
    (h : r.halted = true) : r' = r :=
  hreaches.keeps (fun x _ => closed_eq_of_halted h x.1) rfl

end NormalAlgorithm.Runner
