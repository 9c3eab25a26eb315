/-
  NormalAlgorithm.Proofs.Runner.Status

  The status of a runner, read off its history.

  Whether a run has ended, how it ended and whether it is stalled are fields of their own,
  set on different branches of a step. They never contradict each other or the history
  (`Consistent`): the flag is set together with the way the run ended, an explicit
  end is a terminating rule in the last entry, and nowhere before it, and a stall is
  a last entry whose rule puts back what it took (`Entry.Closes`, `Entry.Idles`).

    * `status_agrees_with_history`: this holds after every sequence of calls, whatever
      becomes of the ruleset between them.

  A run that has not ended has no terminating rule in its history at all
  (`Consistent.not_closes`), so a step may add one. A stop changes how the run ended
  and nothing else (`Consistent.stopped`).
-/

import NormalAlgorithm.Proofs.Runner.Derivation

namespace NormalAlgorithm

/-! ## Entries -/

namespace Entry

/-- The entry carries a terminating rule. -/
def Closes (e : Entry) : Prop := ∃ rule, e.rule = some rule ∧ rule.terminating = true

/-- The entry carries a rule that does not terminate and replaces its pattern by
    itself. -/
def Idles (e : Entry) : Prop :=
  ∃ rule, e.rule = some rule ∧ rule.terminating = false ∧ rule.pattern = rule.replacement

theorem not_closes_of_none (w : Word) : ¬ Closes ⟨w, none⟩ := by
  rintro ⟨rule, hrule, _⟩
  cases hrule

theorem closes_some_iff {w : Word} {rule : Rule} :
    Closes ⟨w, some rule⟩ ↔ rule.terminating = true := by
  constructor
  · rintro ⟨_, hrule, hterm⟩
    cases hrule
    exact hterm
  · intro hterm
    exact ⟨rule, rfl, hterm⟩

theorem idles_some_iff {w : Word} {rule : Rule} :
    Idles ⟨w, some rule⟩ ↔ rule.terminating = false ∧ rule.pattern = rule.replacement := by
  constructor
  · rintro ⟨_, hrule, hidle⟩
    cases hrule
    exact hidle
  · intro hidle
    exact ⟨rule, rfl, hidle⟩

end Entry

/-- A rule leaves a word in which its pattern occurs as it was exactly when its sides
    are equal. -/
theorem Rule.apply_eq_self_iff {rule : Rule} {w : Word} (h : rule.pattern <:+: w) :
    rule.apply w = w ↔ rule.pattern = rule.replacement :=
  replaceFirst_eq_self_iff h

/-! ## Runners -/

namespace Runner

variable {rules : Ruleset} {rule : Rule} {r r' : Runner}

/-- The status fields say what the history says. -/
structure Consistent (r : Runner) : Prop where
  flagged : Flagged r
  earlier : ∀ e ∈ r.history.pop, ¬ e.Closes
  explicit_iff : r.termination = some .explicit ↔ ∃ e, r.history.back? = some e ∧ e.Closes
  stalled_iff : r.stalled = true ↔
    r.termination ≠ some .natural ∧ ∃ e, r.history.back? = some e ∧ e.Idles

theorem consistent_start (c : Word) : Consistent (start c) := by
  refine ⟨flagged_start c, ?_, ?_, ?_⟩ <;> simp [start]

/-- The history of a run that has not ended holds no terminating rule. -/
theorem Consistent.not_closes (h : Consistent r) (hh : r.halted = false) :
    ∀ e ∈ r.history, ¬ e.Closes := by
  intro e he hcloses
  obtain ⟨earlier, last, hpush⟩ := Array.exists_push_of_ne_empty (Array.ne_empty_of_mem he)
  rw [hpush, Array.mem_push] at he
  rcases he with he | rfl
  · refine h.earlier e ?_ hcloses
    rwa [hpush, Array.pop_push]
  · -- the last entry would have ended the run
    have hlast : r.history.back? = some e := by rw [hpush, Array.back?_push]
    have hexplicit := h.explicit_iff.mpr ⟨e, hlast, hcloses⟩
    rw [h.flagged.termination_eq_none hh] at hexplicit
    cases hexplicit

theorem Consistent.not_closes_recordStart (h : Consistent r) (hh : r.halted = false) :
    ∀ e ∈ r.recordStart.history, ¬ e.Closes := by
  by_cases hempty : r.history = #[]
  · intro e he
    rw [history_recordStart_of_empty hempty] at he
    rw [Array.mem_singleton.mp he]
    exact Entry.not_closes_of_none r.context
  · rw [recordStart_of_nonempty hempty]
    exact h.not_closes hh

/-- A step that finds no rule ends the run, neither explicitly nor in a stall. -/
theorem Consistent.step_of_none (h : Consistent r) (hh : r.halted = false)
    (hrule : rules.firstApplicable? r.context = none) : Consistent (r.step rules) := by
  have hnone := h.not_closes_recordStart hh
  refine ⟨h.flagged.step rules, ?_, ?_, ?_⟩
  · rw [history_step_of_none hh hrule]
    intro e he
    rw [← Array.mem_toList_iff, Array.toList_pop] at he
    exact hnone e (Array.mem_toList_iff.mp (List.dropLast_subset _ he))
  · rw [history_step_of_none hh hrule, termination_step_of_none hh hrule]
    constructor
    · intro hexplicit
      cases hexplicit
    · rintro ⟨e, he, hcloses⟩
      exact absurd hcloses (hnone e (Array.mem_of_back? he))
  · rw [stalled_step_of_none hh hrule, termination_step_of_none hh hrule]
    simp

/-- A step that applies a rule leaves the status that the rule calls for. -/
theorem Consistent.step_of_some (h : Consistent r) (hh : r.halted = false)
    (hrule : rules.firstApplicable? r.context = some rule) : Consistent (r.step rules) := by
  have hocc := (Ruleset.firstApplicable?_eq_some_iff.mp hrule).occurs
  have hlast : (r.step rules).history.back? = some ⟨rule.apply r.context, some rule⟩ := by
    rw [history_step_of_some hh hrule, Array.back?_push]
  have hopen := h.flagged.termination_eq_none hh
  refine ⟨h.flagged.step rules, ?_, ?_, ?_⟩
  · rw [history_step_of_some hh hrule, Array.pop_push]
    exact h.not_closes_recordStart hh
  · simp only [hlast, Option.some.injEq, exists_eq_left', Entry.closes_some_iff,
      termination_step_of_some hh hrule, hopen]
    cases rule.terminating <;> simp
  · simp only [hlast, Option.some.injEq, exists_eq_left', Entry.idles_some_iff,
      stalled_step_of_some hh hrule, termination_step_of_some hh hrule, hopen, Bool.and_eq_true,
      Bool.not_eq_true', decide_eq_true_eq, Rule.apply_eq_self_iff hocc]
    cases rule.terminating <;> simp

/-- A stop keeps the history and the stall, and was not there before. -/
theorem Consistent.stopped (h : Consistent r) (hh : r.halted = false)
    (hhistory : r'.history = r.history) (hstalled : r'.stalled = r.stalled)
    (hhalted : r'.halted = true) (hstopped : r'.termination = some .stopped) :
    Consistent r' := by
  have hexplicit := h.explicit_iff
  have hidle := h.stalled_iff
  rw [h.flagged.termination_eq_none hh] at hexplicit hidle
  refine ⟨flagged_of_ended hhalted hstopped, ?_, ?_, ?_⟩
  · rw [hhistory]
    exact h.earlier
  · rw [hhistory, hstopped, ← hexplicit]
    simp
  · rw [hhistory, hstopped, hstalled, hidle]
    simp

theorem closed_consistent (rules : Ruleset) : Closed rules Consistent where
  step r hh h := by
    cases hrule : rules.firstApplicable? r.context with
    | none => exact h.step_of_none hh hrule
    | some rule => exact h.step_of_some hh hrule
  stop _ hh h := h.stopped hh history_halt stalled_halt halted_halt (termination_halt hh)
  spend r limit hh _ h :=
    h.stopped hh (by rw [history_halt, history_log]) (by rw [stalled_halt, stalled_log])
      halted_halt (termination_halt (by rwa [halted_log]))

/-- After every sequence of calls, under any rulesets: the run has halted exactly if
    there is a way in which it ended, no entry but the last carries a terminating
    rule, the run ended explicitly exactly if the last one does, and it is stalled
    exactly if it did not end naturally and the rule of the last entry does not
    terminate and replaces its pattern by itself. -/
theorem status_agrees_with_history {c : Word} {calls : List (Ruleset × Call)}
    (h : Reaches (start c) calls r) :
    (r.halted = true ↔ r.termination ≠ none) ∧
    (∀ e ∈ r.history.pop, ¬ e.Closes) ∧
    (r.termination = some .explicit ↔ ∃ e, r.history.back? = some e ∧ e.Closes) ∧
    (r.stalled = true ↔
      r.termination ≠ some .natural ∧ ∃ e, r.history.back? = some e ∧ e.Idles) := by
  have hstatus : Consistent r :=
    h.keeps (fun x _ => closed_consistent x.1) (consistent_start c)
  have hhalted : r.halted = true ↔ r.termination ≠ none := by
    rw [hstatus.flagged]
    exact Option.isSome_iff_ne_none
  exact ⟨hhalted, hstatus.earlier, hstatus.explicit_iff, hstatus.stalled_iff⟩

/-- With `a -> a` a step from `a` stalls. With `a ->. b` in its place the next step ends
    the run, and the stall is over. -/
theorem status_agrees_with_history_rules_changed :
    ∃ idle closing r₁ r₂, Reaches (start ['a']) [(idle, .step)] r₁ ∧
      (∃ e, r₁.history.back? = some e ∧ e.Idles) ∧
      Reaches (start ['a']) [(idle, .step), (closing, .step)] r₂ ∧
      (∃ e, r₂.history.back? = some e ∧ e.Closes) ∧
      ¬ ∃ e, r₂.history.back? = some e ∧ e.Idles := by
  let idle : Ruleset := ⟨[⟨['a'], ['a'], false, List.all_eq_true.mp rfl, List.all_eq_true.mp rfl⟩]⟩
  let closing : Ruleset :=
    ⟨[⟨['a'], ['b'], true, List.all_eq_true.mp rfl, List.all_eq_true.mp rfl⟩]⟩
  have h₁ : Reaches (start ['a']) [(idle, .step)] ((start ['a']).step idle) :=
    Reaches.start.call .step
  have h₂ : Reaches (start ['a']) [(idle, .step), (closing, .step)]
      (((start ['a']).step idle).step closing) :=
    h₁.call .step
  have hstalled : ((start ['a']).step idle).stalled = true := by decide +kernel
  have hexplicit : (((start ['a']).step idle).step closing).termination = some .explicit := by
    decide +kernel
  have hmoving : (((start ['a']).step idle).step closing).stalled = false := by decide +kernel
  obtain ⟨_, _, _, hidles⟩ := status_agrees_with_history h₁
  obtain ⟨_, _, hcloses, hidles'⟩ := status_agrees_with_history h₂
  refine ⟨idle, closing, _, _, h₁, (hidles.mp hstalled).2, h₂, hcloses.mp hexplicit, ?_⟩
  intro hidle
  have hagain := hidles'.mpr ⟨by rw [hexplicit]; simp, hidle⟩
  rw [hmoving] at hagain
  cases hagain

end Runner

end NormalAlgorithm
