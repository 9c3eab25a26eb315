/-
  NormalAlgorithm.Proofs.Runner.Shrinking

  Rulesets that make words shorter.

  If every rule that does not terminate has a replacement shorter than its pattern
  (`Ruleset.Shrinks`), each move takes at least one character away (`Shrinks.move`). So
  there are no more moves than the word has characters, and they lead to a word to which
  no rule applies or a terminating one applies first (`Shrinks.exists_advances`). A
  terminating rule may be applied there, which is one application more.

  A runner that is not stalled now or after any number of steps (`Moving`) gives a bounded
  run no stall to stop on, so the flag for that makes no difference (`Moving.drive_eq`).

    * `shrinking_rules_halt`: every run of such a ruleset returns, after at most one
      application more than the word has characters, and a bounded run with a budget for
      these ends in the same state.
-/

import NormalAlgorithm.Proofs.Runner.Bounded
import NormalAlgorithm.Proofs.Runner.Progress

namespace NormalAlgorithm

/-! ## Shorter words -/

/-- Each rule that does not terminate has a replacement shorter than its pattern. -/
def Ruleset.Shrinks (rules : Ruleset) : Prop :=
  ∀ rule ∈ rules.rules, rule.terminating = false →
    rule.replacement.length < rule.pattern.length

/-- A rule changes the length of a word by as much as its sides differ. -/
theorem Rule.Rewrites.length_add {rule : Rule} {w w' : Word} (h : rule.Rewrites w w') :
    w'.length + rule.pattern.length = w.length + rule.replacement.length := by
  obtain ⟨u, v, hleft, rfl⟩ := h
  rw [hleft.split]
  simp only [List.length_append]
  omega

namespace Ruleset

open Runner

variable {rules : Ruleset} {rule : Rule} {w : Word}

/-- A rule that does not terminate makes a move, to a shorter word. -/
theorem Shrinks.move (h : rules.Shrinks) (hfirst : rules.IsFirst w rule)
    (hgoesOn : rule.terminating = false) :
    ∃ w', rules.Moves w w' ∧ w'.length < w.length := by
  have hshorter := h rule hfirst.mem hgoesOn
  have hrewrites := Rule.rewrites_apply hfirst.occurs
  have hdiffers : rule.pattern ≠ rule.replacement := by
    intro hsame
    rw [hsame] at hshorter
    exact Nat.lt_irrefl _ hshorter
  have hlength := hrewrites.length_add
  exact ⟨_, .intro hfirst hgoesOn hdiffers hrewrites, by omega⟩

/-- By induction on the length of the word: the moves from it are no more than it has
    characters, and come to an end. -/
theorem Shrinks.exists_advances (h : rules.Shrinks) (c : Word) :
    ∃ n w, rules.Advances n c w ∧ n ≤ c.length ∧
      ((∀ q ∈ rules.rules, ¬ q.pattern <:+: w) ∨
        ∃ rule, rules.IsFirst w rule ∧ rule.terminating = true) := by
  induction hlen : c.length using Nat.strong_induction_on generalizing c with
  | h length ih =>
      cases hrule : rules.firstApplicable? c with
      | none =>
          exact ⟨0, c, .refl c, Nat.zero_le _, Or.inl (firstApplicable?_eq_none_iff.mp hrule)⟩
      | some rule =>
          have hfirst := firstApplicable?_eq_some_iff.mp hrule
          cases hterm : rule.terminating with
          | true => exact ⟨0, c, .refl c, Nat.zero_le _, Or.inr ⟨rule, hfirst, hterm⟩⟩
          | false =>
              obtain ⟨c', hmove, hshorter⟩ := h.move hfirst hterm
              obtain ⟨n, w, hway, hn, hend⟩ := ih c'.length (by omega) c' rfl
              exact ⟨n + 1, w, .head hmove hway, by omega, hend⟩

/-- A run returns, and what ends it is a word to which no rule applies, or a terminating
    rule. -/
theorem Shrinks.exists_run (h : rules.Shrinks) (c : Word) :
    ∃ r, Yields rules (start c) .run r ∧ r.stepCount ≤ c.length + 1 ∧
      (r.termination = some .natural ∨ r.termination = some .explicit) ∧
      ∀ m, ((step rules)^[m] (start c)).stalled = false := by
  obtain ⟨n, w, hway, hn, hnone | ⟨rule, hfirst, hterm⟩⟩ := h.exists_advances c
  · obtain ⟨r, hrun, hnatural, _, hcount, hmoving⟩ := hway.halts_naturally hnone
    exact ⟨r, hrun, by omega, Or.inl hnatural, hmoving⟩
  · obtain ⟨r, hrun, hexplicit, _, hcount, hmoving⟩ :=
      hway.halts_explicitly hfirst hterm (Rule.rewrites_apply hfirst.occurs)
    exact ⟨r, hrun, by omega, Or.inr hexplicit, hmoving⟩

end Ruleset

/-! ## Bounded runs without a stall -/

namespace Runner

variable {rules : Ruleset} {budget : Budget} {limit : Nat} {r r' : Runner}

/-- The runner is not stalled, and steps will not stall it. -/
def Moving (rules : Ruleset) (r : Runner) : Prop :=
  ∀ n, ((step rules)^[n] r).stalled = false

theorem Moving.step (h : Moving rules r) : Moving rules (r.step rules) :=
  fun n => h (n + 1)

theorem moving_of_halted (hh : r.halted = true) (hs : r.stalled = false) : Moving rules r := by
  intro n
  rw [iterate_step_of_halted hh, hs]

theorem closed_moving (rules : Ruleset) : Closed rules (Moving rules) where
  step _ _ h := h.step
  stop _ _ h := moving_of_halted halted_halt (stalled_halt.trans (h 0))
  spend _ _ _ _ h := moving_of_halted halted_halt (stalled_halt.trans (h 0))

/-- In a round there is no stall to stop on. -/
theorem Moving.driveRound_eq (h : Moving rules r) (budget : Budget) (stopOnStall : Bool) :
    r.driveRound rules budget stopOnStall = r.driveRound rules budget false := by
  by_cases hspent : budget.isSpent r.stepCount = true ∧ r.canStep rules = true
  · rw [driveRound_of_canStep hspent.1 hspent.2, driveRound_of_canStep hspent.1 hspent.2]
  · rw [not_and_or, Bool.not_eq_true, Bool.not_eq_true] at hspent
    have hnext : (r.step rules).stalled = false := h 1
    rw [driveRound_of_unspent hspent, driveRound_eq_step hspent, hnext, Bool.and_false]
    rfl

theorem Moving.driveWithin_eq (h : Moving rules r) (budget : Budget) (stopOnStall : Bool)
    (fuel : Nat) :
    r.driveWithin rules budget stopOnStall fuel = r.driveWithin rules budget false fuel := by
  induction fuel generalizing r with
  | zero => rfl
  | succ fuel ih =>
      rw [driveWithin, driveWithin]
      split
      · rfl
      · rename_i hh
        rw [h.driveRound_eq budget stopOnStall]
        exact ih ((closed_moving rules).driveRound budget false (Bool.eq_false_iff.mpr hh) h)

theorem Moving.drive_eq (h : Moving rules r) (budget : Budget) (stopOnStall : Bool) :
    r.drive rules budget stopOnStall = r.drive rules budget false :=
  h.driveWithin_eq budget stopOnStall _

/-- A bounded run with a budget for all steps of the unbounded one ends where that ends. -/
theorem drive_eq_of_run (hb : budget.steps = some limit) (hrun : Yields rules r .run r')
    (hle : r'.stepCount ≤ limit) : r.drive rules budget false = r' := by
  rcases drive_cases rules hb r with ⟨hended, _⟩ | ⟨hcan, hcount, _⟩
  · exact hended.run_unique hrun
  · -- a rule would still apply with the budget spent, so the unbounded run has more steps
    have hlt := stepCount_lt_of_run hcan hrun
    omega

theorem driveBy_of_ofLimit {settings : RunnerSettings} {limit : Value}
    (h : Budget.ofLimit settings limit = .ok budget) (stopOnStall : Value) :
    r.driveBy settings rules limit stopOnStall =
      .ok (r.drive rules budget (stopFlag settings stopOnStall)) := by
  rw [driveBy, h]

/-- Shrinking rulesets always halt. If each rule that does not terminate has a replacement
    shorter than its pattern, then from every word a run returns, with at most one rule more
    applied than the word has characters, and is not stalled at any time. It has ended by
    itself: naturally or by a terminating rule. A bounded run that may apply that many rules,
    by the limit that it is given or by its settings, ends in exactly the same state, whether
    it has to stop on stalls or not. -/
theorem shrinking_rules_halt (h : rules.Shrinks) (c : Word) :
    ∃ r, Yields rules (start c) .run r ∧ r.stepCount ≤ c.length + 1 ∧
      (r.termination = some .natural ∨ r.termination = some .explicit) ∧
      (∀ n, ((step rules)^[n] (start c)).stalled = false) ∧
      (∀ (settings : RunnerSettings) (L : Int) (stopOnStall : Value), c.length + 1 ≤ L →
        (start c).driveBy settings rules (.int L) stopOnStall = .ok r) ∧
      ∀ (settings : RunnerSettings) (stopOnStall : Value), c.length + 1 ≤ settings.maxSteps →
        (start c).driveBy settings rules .null stopOnStall = .ok r := by
  obtain ⟨r, hrun, hcount, hended, hmoving⟩ := h.exists_run c
  have hdrive : ∀ (L : Int) (stopOnStall : Bool), c.length + 1 ≤ L →
      (start c).drive rules (.ofInt L) stopOnStall = r := by
    intro L stopOnStall hL
    rw [Moving.drive_eq hmoving]
    exact drive_eq_of_run rfl hrun (by omega)
  refine ⟨r, hrun, hcount, hended, hmoving, ?_, ?_⟩
  · intro settings L stopOnStall hL
    have hlimit : Budget.ofLimit settings (.int L) = .ok (.ofInt L) := if_neg (by omega)
    rw [driveBy_of_ofLimit hlimit, hdrive L _ hL]
  · intro settings stopOnStall hL
    rw [driveBy_of_ofLimit rfl, hdrive settings.maxSteps _ (by omega)]

/-- With `a -> !` and `! ->. b` from `aa`, the two letters go and the terminating rule finds
    the empty word, which makes three applications for two characters. A budget of three is
    enough, and the run that stops on stalls is not stopped. -/
theorem shrinking_rules_halt_two_letters :
    ∃ (rules : Ruleset) (r : Runner), rules.Shrinks ∧
      Yields rules (start ['a', 'a']) .run r ∧ r.stepCount = 3 ∧ r.context = ['b'] ∧
      (start ['a', 'a']).driveBy .standard rules (.int 3) (.bool true) = .ok r := by
  let rules : Ruleset :=
    ⟨[⟨['a'], [], false, List.all_eq_true.mp rfl, Rule.isPlain_of_mem_nil⟩,
      ⟨[], ['b'], true, Rule.isPlain_of_mem_nil, List.all_eq_true.mp rfl⟩]⟩
  have hshrinks : rules.Shrinks := by
    intro rule hrule hterm
    rcases List.mem_pair.mp hrule with rfl | rfl
    · exact Nat.zero_lt_one
    · cases hterm
  have hrun : ((start ['a', 'a']).runWithin rules 3).map (fun r => (r.stepCount, r.context)) =
      some (3, ['b']) := by
    decide +kernel
  obtain ⟨r', hr', hend⟩ := Option.map_eq_some_iff.mp hrun
  obtain ⟨hcount, hcontext⟩ := Prod.mk.inj hend
  obtain ⟨r, hyields, _, _, _, hdrive, _⟩ := shrinking_rules_halt hshrinks ['a', 'a']
  have hr : r = r' := hyields.run_unique (.run hr')
  exact ⟨rules, r, hshrinks, hyields, hr ▸ hcount, hr ▸ hcontext,
    hdrive .standard 3 (.bool true) (by decide)⟩

end Runner

end NormalAlgorithm
