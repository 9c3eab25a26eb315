/-
  NormalAlgorithm.Proofs.Runner.Shadow

  Rules that stand in the shadow of another.

  A runner asks its ruleset one thing only: the first rule that applies to a word. Two
  rulesets that always answer alike (`Ruleset.Agrees`) are therefore the same to it: every
  step, every call and every sequence of calls leads to the same state
  (`Reaches.of_agrees`).

  Where the pattern of a rule occurs, so does every pattern that occurs in it. If such a
  pattern is that of an earlier rule, the later one is never the first that applies, and
  the ruleset agrees with the one without it (`agrees_of_shadowed`).

    * `shadowed_rule_is_dead`: such a rule is never applied and can be left out; and a
      ruleset with an empty pattern in it, which occurs in every word, never halts
      naturally.
-/

import NormalAlgorithm.Proofs.Runner.Bounded
import NormalAlgorithm.Proofs.Runner.Extension

namespace NormalAlgorithm

/-! ## Rulesets that find the same rules -/

/-- The same rule of both, or no rule of either, is the first that applies to a word. -/
def Ruleset.Agrees (rules rules' : Ruleset) : Prop :=
  ∀ w, rules.firstApplicable? w = rules'.firstApplicable? w

namespace Ruleset.Agrees

variable {rules rules' : Ruleset}

theorem symm (h : rules.Agrees rules') : rules'.Agrees rules := fun w => (h w).symm

theorem canStep_eq (h : rules.Agrees rules') (r : Runner) : r.canStep rules = r.canStep rules' := by
  rw [Runner.canStep, Runner.canStep, Runner.fired?, Runner.fired?, h]

theorem step_eq (h : rules.Agrees rules') (r : Runner) : r.step rules = r.step rules' := by
  cases hh : r.halted with
  | true => rw [Runner.step_of_halted hh, Runner.step_of_halted hh]
  | false =>
      have hsame := h r.context
      cases hrule : rules'.firstApplicable? r.context with
      | none =>
          rw [hrule] at hsame
          rw [Runner.step_of_none hh hsame, Runner.step_of_none hh hrule]
      | some rule =>
          rw [hrule] at hsame
          rw [Runner.step_of_some hh hsame, Runner.step_of_some hh hrule]

theorem runWithin_eq (h : rules.Agrees rules') (r : Runner) (fuel : Nat) :
    r.runWithin rules fuel = r.runWithin rules' fuel := by
  induction fuel generalizing r with
  | zero => rfl
  | succ fuel ih => rw [Runner.runWithin, Runner.runWithin, h.step_eq, ih]

theorem driveRound_eq (h : rules.Agrees rules') (r : Runner) (budget : Budget)
    (stopOnStall : Bool) :
    r.driveRound rules budget stopOnStall = r.driveRound rules' budget stopOnStall := by
  rw [Runner.driveRound, Runner.driveRound, h.canStep_eq, h.step_eq]

theorem driveWithin_eq (h : rules.Agrees rules') (r : Runner) (budget : Budget)
    (stopOnStall : Bool) (fuel : Nat) :
    r.driveWithin rules budget stopOnStall fuel =
      r.driveWithin rules' budget stopOnStall fuel := by
  induction fuel generalizing r with
  | zero => rfl
  | succ fuel ih => rw [Runner.driveWithin, Runner.driveWithin, h.driveRound_eq, ih]

theorem driveBy_eq (h : rules.Agrees rules') (r : Runner) (settings : RunnerSettings)
    (limit stopOnStall : Value) :
    r.driveBy settings rules limit stopOnStall = r.driveBy settings rules' limit stopOnStall := by
  rw [Runner.driveBy, Runner.driveBy]
  cases Budget.ofLimit settings limit with
  | error fault => rfl
  | ok budget => exact congrArg Except.ok (h.driveWithin_eq r budget _ _)

end Ruleset.Agrees

namespace Runner

variable {rules rules' : Ruleset} {r₀ r r' : Runner} {call : Call}

theorem Yields.of_agrees (h : rules.Agrees rules') (hcall : Yields rules r call r') :
    Yields rules' r call r' := by
  cases hcall with
  | step =>
      rw [h.step_eq]
      exact .step
  | run hrun => exact .run (by rwa [← h.runWithin_eq])
  | stop => exact .stop
  | drive hdrive => exact .drive (by rwa [← h.driveBy_eq])
  | refused hfault => exact .refused (by rwa [← h.driveBy_eq])

/-- Calls lead to the same state with one ruleset that agrees with each of those that they
    find. -/
theorem Reaches.replace_rules (rules' : Ruleset) {calls : List (Ruleset × Call)}
    (h : Reaches r₀ calls r) (hrules : ∀ x ∈ calls, x.1.Agrees rules') :
    Reaches r₀ (calls.map fun x => (rules', x.2)) r := by
  induction h with
  | start => exact .start
  | call _ hcall ih =>
      rw [List.map_append]
      have hlast := hrules _ (List.mem_append_right _ List.mem_cons_self)
      exact (ih fun x hx => hrules x (List.mem_append_left _ hx)).call (hcall.of_agrees hlast)

theorem Reaches.of_agrees {calls : List Call} (h : rules.Agrees rules')
    (hreaches : Reaches r₀ (calls.map (rules, ·)) r) : Reaches r₀ (calls.map (rules', ·)) r := by
  have hother := hreaches.replace_rules rules' fun x hx => by
    obtain ⟨_, _, rfl⟩ := List.mem_map.mp hx
    exact h
  rwa [List.map_map] at hother

theorem reaches_iff_of_agrees (h : rules.Agrees rules') (calls : List Call) :
    Reaches r₀ (calls.map (rules, ·)) r ↔ Reaches r₀ (calls.map (rules', ·)) r :=
  ⟨.of_agrees h, .of_agrees h.symm⟩

/-! ## Calls that end -/

/-- A call that ends whatever the rules are: no run without a bound, and no bounded run whose
    limit is infinite. -/
def Call.IsBounded : Call → Prop
  | .run => False
  | .drive settings limit _ =>
    ∀ budget, Budget.ofLimit settings limit = .ok budget → budget.steps ≠ none
  | _ => True

theorem exists_yields (rules : Ruleset) (r : Runner) (hcall : call.IsBounded) :
    ∃ r', Yields rules r call r' := by
  cases call with
  | step => exact ⟨_, .step⟩
  | run => exact hcall.elim
  | stop => exact ⟨_, .stop⟩
  | drive settings limit stopOnStall =>
      cases hdrive : r.driveBy settings rules limit stopOnStall with
      | error fault => exact ⟨r, .refused hdrive⟩
      | ok r' => exact ⟨r', .drive hdrive⟩

theorem exists_reaches (rules : Ruleset) (r₀ : Runner) {calls : List Call}
    (hcalls : ∀ call ∈ calls, call.IsBounded) : ∃ r, Reaches r₀ (calls.map (rules, ·)) r := by
  induction calls using List.reverseRecOn with
  | nil => exact ⟨r₀, .start⟩
  | append_singleton past call ih =>
      obtain ⟨r, hr⟩ := ih fun x hx => hcalls x (List.mem_append_left _ hx)
      obtain ⟨r', hr'⟩ := exists_yields rules r (hcalls call (by simp))
      refine ⟨r', ?_⟩
      rw [List.map_append]
      exact hr.call hr'

end Runner

/-! ## Shadowed rules -/

namespace Ruleset

variable {p q : Rule} {w : Word}

/-- Where a rule before it does not apply, a rule in its shadow does not apply either. -/
theorem not_infix_of_shadowed {before : List Rule} (hp : p ∈ before)
    (h : p.pattern <:+: q.pattern) (hnone : ∀ e ∈ before, ¬ e.pattern <:+: w) :
    ¬ q.pattern <:+: w :=
  fun hq => hnone p hp (h.trans hq)

/-- A ruleset agrees with the one that a shadowed rule is left out of. -/
theorem agrees_of_shadowed {before : List Rule} (hp : p ∈ before)
    (h : p.pattern <:+: q.pattern) (after : List Rule) :
    Agrees ⟨before ++ q :: after⟩ ⟨before ++ after⟩ := by
  intro w
  rw [firstApplicable?_append, firstApplicable?_append]
  cases hfirst : firstApplicable? ⟨before⟩ w with
  | some rule => rw [Option.some_or, Option.some_or]
  | none =>
      have hq := not_infix_of_shadowed hp h (firstApplicable?_eq_none_iff.mp hfirst)
      rw [Option.none_or, Option.none_or]
      exact List.find?_cons_of_neg fun hocc => hq (Rule.occursIn_iff.mp hocc)

/-- Where a shadowed rule applies, a rule before it is the one that is found. -/
theorem exists_firstApplicable?_of_shadowed {before : List Rule} (hp : p ∈ before)
    (h : p.pattern <:+: q.pattern) (after : List Rule) (hq : q.pattern <:+: w) :
    ∃ e ∈ before, firstApplicable? ⟨before ++ q :: after⟩ w = some e := by
  rw [firstApplicable?_append]
  cases hfirst : firstApplicable? ⟨before⟩ w with
  | some e => exact ⟨e, (firstApplicable?_eq_some_iff.mp hfirst).mem, Option.some_or⟩
  | none =>
      exact absurd hq (not_infix_of_shadowed hp h (firstApplicable?_eq_none_iff.mp hfirst))

/-- An empty pattern occurs in every word. -/
theorem firstApplicable?_ne_none {rules : Ruleset} {e : Rule} (he : e ∈ rules.rules)
    (hempty : e.pattern = []) (w : Word) : rules.firstApplicable? w ≠ none := by
  intro hnone
  refine firstApplicable?_eq_none_iff.mp hnone e he ?_
  rw [hempty]
  exact List.nil_infix

end Ruleset

namespace Runner

variable {rules : Ruleset}

/-- Only a step that finds no rule halts a run naturally. -/
theorem closed_not_natural (h : ∀ w, rules.firstApplicable? w ≠ none) :
    Closed rules fun r => r.termination ≠ some .natural where
  step r hh hr := by
    cases hrule : rules.firstApplicable? r.context with
    | none => exact absurd hrule (h r.context)
    | some rule =>
        rw [termination_step_of_some hh hrule]
        cases rule.terminating <;> simp [hr]
  stop r hh _ := by simp [termination_halt hh]
  spend r limit hh _ _ := by
    rw [termination_halt (by rwa [halted_log])]
    simp

/-- After calls under one ruleset, every rule in the history is one of its rules. -/
theorem mem_rules_of_mem_history {c : Word} {calls : List Call} {r : Runner}
    (h : Reaches (start c) (calls.map (rules, ·)) r) {e : Entry} (he : e ∈ r.history)
    {rule : Rule} (hrule : e.rule = some rule) : rule ∈ rules.rules := by
  have htraced : Traced rules c r :=
    h.keeps_of_closed (closed_traced rules c) (traced_start rules c)
  obtain ⟨i, hi, rfl⟩ := Array.mem_iff_getElem.mp he
  rcases htraced.derived with ⟨hempty, _⟩ | hderived
  · simp [hempty] at hi
  · cases i with
    | zero =>
        have hfirst := hderived.first
        rw [Array.getElem?_eq_getElem hi, Option.some.injEq] at hfirst
        rw [hfirst] at hrule
        cases hrule
    | succ i =>
        obtain ⟨rule', hrule', hisFirst, _⟩ := hderived.step i hi
        rw [hrule', Option.some.injEq] at hrule
        exact hrule ▸ hisFirst.mem

/-- A shadowed rule is dead. Let the pattern of an earlier rule `p` occur in that of `q`, as
    an empty one does. Wherever `q` applies, a rule before it is found. So every sequence of
    calls leads to the same state with `q` and without it, and every rule in the history is
    one of the others. Calls that are steps, stops and bounded runs do lead to a state, and to
    one only. In particular a runner whose ruleset holds a rule with an empty pattern never
    halts naturally. -/
theorem shadowed_rule_is_dead (X Y Z : List Rule) {p q : Rule} (h : p.pattern <:+: q.pattern)
    (c : Word) :
    (∀ w, q.pattern <:+: w → ∃ e ∈ X ++ p :: Y,
      Ruleset.firstApplicable? ⟨X ++ p :: Y ++ q :: Z⟩ w = some e) ∧
    (∀ (calls : List Call) (r : Runner),
      Reaches (start c) (calls.map (⟨X ++ p :: Y ++ q :: Z⟩, ·)) r ↔
        Reaches (start c) (calls.map (⟨X ++ p :: Y ++ Z⟩, ·)) r) ∧
    (∀ (calls : List Call) (r : Runner),
      Reaches (start c) (calls.map (⟨X ++ p :: Y ++ q :: Z⟩, ·)) r →
        ∀ e ∈ r.history, ∀ rule, e.rule = some rule → rule ∈ X ++ p :: Y ++ Z) ∧
    (∀ calls : List Call, (∀ call ∈ calls, call.IsBounded) →
      ∃ r, ∀ r', Reaches (start c) (calls.map (⟨X ++ p :: Y ++ q :: Z⟩, ·)) r' ↔ r' = r) ∧
    ∀ (rules : Ruleset) (e : Rule), e ∈ rules.rules → e.pattern = [] →
      ∀ (calls : List Call) (r : Runner), Reaches (start c) (calls.map (rules, ·)) r →
        r.termination ≠ some .natural := by
  have hp : p ∈ X ++ p :: Y := List.mem_append_right X List.mem_cons_self
  have hagrees : Ruleset.Agrees ⟨X ++ p :: Y ++ q :: Z⟩ ⟨X ++ p :: Y ++ Z⟩ :=
    Ruleset.agrees_of_shadowed hp h Z
  refine ⟨fun w => Ruleset.exists_firstApplicable?_of_shadowed hp h Z,
    fun calls r => reaches_iff_of_agrees hagrees calls, ?_, ?_, ?_⟩
  · intro calls r hr e he rule hrule
    exact mem_rules_of_mem_history ((reaches_iff_of_agrees hagrees calls).mp hr) he hrule
  · intro calls hcalls
    obtain ⟨r, hr⟩ := exists_reaches ⟨X ++ p :: Y ++ q :: Z⟩ (start c) hcalls
    exact ⟨r, fun r' => ⟨fun hr' => hr'.unique hr, fun heq => heq ▸ hr⟩⟩
  · intro rules e he hempty calls r hr
    exact hr.keeps_of_closed (closed_not_natural (Ruleset.firstApplicable?_ne_none he hempty))
      (by simp [start])

/-- With `a -> b` before `aa ->. c`, the second rule has no part in what `aa` becomes: a step
    and a bounded run lead to `bb`, where no rule applies, as they do without it. -/
theorem shadowed_rule_is_dead_longer_pattern :
    ∃ (p q : Rule) (calls : List Call) (r : Runner), p.pattern <:+: q.pattern ∧
      q.pattern = ['a', 'a'] ∧
      Reaches (start ['a', 'a']) (calls.map (⟨[p, q]⟩, ·)) r ∧
      Reaches (start ['a', 'a']) (calls.map (⟨[p]⟩, ·)) r ∧
      r.context = ['b', 'b'] ∧ r.termination = some .natural ∧ r.stepCount = 2 := by
  let p : Rule := ⟨['a'], ['b'], false, List.all_eq_true.mp rfl, List.all_eq_true.mp rfl⟩
  let q : Rule := ⟨['a', 'a'], ['c'], true, List.all_eq_true.mp rfl, List.all_eq_true.mp rfl⟩
  have hinfix : p.pattern <:+: q.pattern := ⟨[], ['a'], rfl⟩
  let r : Runner := ((start ['a', 'a']).step ⟨[p, q]⟩).drive ⟨[p, q]⟩ (.ofInt 5) true
  have hend : r.context = ['b', 'b'] ∧ r.termination = some .natural ∧ r.stepCount = 2 := by
    decide +kernel
  have hreaches : Reaches (start ['a', 'a'])
      ([.step, .drive .standard (.int 5) (.bool true)].map (⟨[p, q]⟩, ·)) r :=
    (Reaches.start.call .step).call (.drive (driveBy_int .standard (by decide) true))
  obtain ⟨_, hsame, _⟩ := shadowed_rule_is_dead [] [] [] hinfix ['a', 'a']
  exact ⟨p, q, _, r, hinfix, rfl, hreaches, (hsame _ r).mp hreaches, hend⟩

end Runner

end NormalAlgorithm
