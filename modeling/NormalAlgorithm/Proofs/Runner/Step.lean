/-
  NormalAlgorithm.Proofs.Runner.Step

  What one step of a runner does, field by field.

  A step of a runner that has not halted either finds no rule and halts, or applies
  the first applicable one (`step_of_none`, `step_of_some`). The fields after each
  part of a step are simp lemmas, so that proofs about runs never unfold a step.

    * `history_step_of_none`, `history_step_of_some`: the entries that a step adds.
    * `halted_step_of_none`, `halted_step_of_some`: when a step halts.
    * `termination_step_of_none`, `termination_step_of_some`: how it halts.
    * `stalled_step_of_none`, `stalled_step_of_some`: when a step stalls.
    * `stepCount_step_of_none`, `stepCount_step_of_some`: a step counts exactly if a
      rule was applied.
    * `history_step_isPrefix`: histories only grow, at their end.
    * `journal_step_of_none`, `journal_step_of_some`: the records that a step adds.
    * `Flagged.step`: a step sets the flag of a run that has ended together with the way
      in which it ended.
-/

import NormalAlgorithm.Runner.Basic

namespace NormalAlgorithm.Runner

variable {rules : Ruleset} {r : Runner} {rule : Rule} {how : Termination}

/-! ## Logging -/

@[simp] theorem initial_log (x : Journal.Record) : (r.log x).initial = r.initial := rfl

@[simp] theorem context_log (x : Journal.Record) : (r.log x).context = r.context := rfl

@[simp] theorem history_log (x : Journal.Record) : (r.log x).history = r.history := rfl

@[simp] theorem termination_log (x : Journal.Record) :
    (r.log x).termination = r.termination := rfl

@[simp] theorem stalled_log (x : Journal.Record) : (r.log x).stalled = r.stalled := rfl

@[simp] theorem halted_log (x : Journal.Record) : (r.log x).halted = r.halted := rfl

@[simp] theorem stepCount_log (x : Journal.Record) : (r.log x).stepCount = r.stepCount := rfl

@[simp] theorem journal_log (x : Journal.Record) : (r.log x).journal = r.journal.push x := rfl

/-! ## Halting -/

theorem halt_of_halted (h : r.halted = true) : r.halt how = r := if_pos h

@[simp] theorem initial_halt : (r.halt how).initial = r.initial := by
  rw [halt]
  split <;> rfl

@[simp] theorem context_halt : (r.halt how).context = r.context := by
  rw [halt]
  split <;> rfl

@[simp] theorem history_halt : (r.halt how).history = r.history := by
  rw [halt]
  split <;> rfl

@[simp] theorem stalled_halt : (r.halt how).stalled = r.stalled := by
  rw [halt]
  split <;> rfl

@[simp] theorem stepCount_halt : (r.halt how).stepCount = r.stepCount := by
  rw [stepCount, history_halt, stepCount]

theorem termination_halt (h : r.halted = false) : (r.halt how).termination = some how := by
  rw [halt, h]
  rfl

@[simp] theorem halted_halt : (r.halt how).halted = true := by
  cases h : r.halted with
  | true => rw [halt_of_halted h, h]
  | false =>
      rw [halt, h]
      rfl

/-- Halting is logged with the number of steps and the word of that moment. -/
theorem journal_halt (h : r.halted = false) :
    (r.halt how).journal = r.journal.push (.halted how r.stepCount r.context) := by
  rw [halt, h]
  rfl

/-! ## The first entry -/

@[simp] theorem initial_recordStart : r.recordStart.initial = r.initial := by
  rw [recordStart]
  split <;> rfl

@[simp] theorem context_recordStart : r.recordStart.context = r.context := by
  rw [recordStart]
  split <;> rfl

@[simp] theorem termination_recordStart : r.recordStart.termination = r.termination := by
  rw [recordStart]
  split <;> rfl

@[simp] theorem stalled_recordStart : r.recordStart.stalled = r.stalled := by
  rw [recordStart]
  split <;> rfl

@[simp] theorem halted_recordStart : r.recordStart.halted = r.halted := by
  rw [recordStart]
  split <;> rfl

@[simp] theorem journal_recordStart : r.recordStart.journal = r.journal := by
  rw [recordStart]
  split <;> rfl

theorem history_recordStart_of_empty (h : r.history = #[]) :
    r.recordStart.history = #[⟨r.context, none⟩] := by
  rw [recordStart, h]
  rfl

theorem recordStart_of_nonempty (h : r.history ≠ #[]) : r.recordStart = r := by
  rw [recordStart, if_neg]
  rwa [Array.isEmpty_iff]

/-- Once its start is recorded, a history has one entry more than it has steps. -/
theorem size_history_recordStart : r.recordStart.history.size = r.stepCount + 1 := by
  by_cases h : r.history = #[]
  · rw [history_recordStart_of_empty h, stepCount, h]
    rfl
  · have hpos : r.history.size ≠ 0 := by
      intro hsize
      exact h (Array.eq_empty_of_size_eq_zero hsize)
    rw [recordStart_of_nonempty h, stepCount]
    omega

@[simp] theorem stepCount_recordStart : r.recordStart.stepCount = r.stepCount := by
  rw [stepCount, size_history_recordStart, Nat.add_sub_cancel]

/-! ## Applying a rule -/

/-- A rule has been applied and logged, and what it means for the run is open. -/
def moved (r : Runner) (rule : Rule) : Runner :=
  let next := rule.apply r.context
  let moved := { r with context := next, history := r.history.push ⟨next, some rule⟩ }
  moved.log (.stepped moved.stepCount rule next)

theorem applyRule_eq (r : Runner) (rule : Rule) :
    r.applyRule rule =
      if rule.terminating then { r.moved rule with stalled := false }.halt .explicit
      else if rule.apply r.context = r.context then
        { r.moved rule with stalled := true }.log (.stalled rule (rule.apply r.context))
      else { r.moved rule with stalled := false } := rfl

@[simp] theorem initial_applyRule : (r.applyRule rule).initial = r.initial := by
  rw [applyRule_eq]
  split
  · simp [moved]
  · split <;> rfl

@[simp] theorem context_applyRule : (r.applyRule rule).context = rule.apply r.context := by
  rw [applyRule_eq]
  split
  · simp [moved]
  · split <;> rfl

@[simp] theorem history_applyRule :
    (r.applyRule rule).history = r.history.push ⟨rule.apply r.context, some rule⟩ := by
  rw [applyRule_eq]
  split
  · simp [moved]
  · split <;> rfl

theorem termination_applyRule (h : r.halted = false) :
    (r.applyRule rule).termination =
      if rule.terminating then some .explicit else r.termination := by
  rw [applyRule_eq]
  split
  · exact termination_halt h
  · split <;> rfl

theorem halted_applyRule (h : r.halted = false) :
    (r.applyRule rule).halted = rule.terminating := by
  rw [applyRule_eq]
  split
  · rename_i hterm
    rw [halted_halt, hterm]
  · rename_i hterm
    rw [Bool.eq_false_iff.mpr hterm]
    split <;> exact h

/-- A rule that does not terminate stalls the run if it leaves the word as it was. -/
theorem stalled_applyRule :
    (r.applyRule rule).stalled =
      (!rule.terminating && decide (rule.apply r.context = r.context)) := by
  rw [applyRule_eq]
  split
  · rename_i hterm
    rw [stalled_halt, hterm]
    rfl
  · rename_i hterm
    rw [Bool.eq_false_iff.mpr hterm]
    split
    · rename_i hsame
      exact (decide_eq_true hsame).symm
    · rename_i hmoved
      exact (decide_eq_false hmoved).symm

/-- A rule is logged with the number that its entry has in the history, and after it what it
    means for the run: that it ended, or that it made no progress. -/
theorem journal_applyRule (h : r.halted = false) :
    (r.applyRule rule).journal.toList = r.journal.toList ++
      .stepped r.history.size rule (rule.apply r.context) ::
        if rule.terminating then [.halted .explicit r.history.size (rule.apply r.context)]
        else if rule.apply r.context = r.context then [.stalled rule (rule.apply r.context)]
        else [] := by
  have hcount : (r.moved rule).stepCount = r.history.size := by
    rw [moved, stepCount_log, stepCount, Array.size_push, Nat.add_sub_cancel]
  have hmoved : (r.moved rule).journal.toList =
      r.journal.toList ++ [.stepped r.history.size rule (rule.apply r.context)] := by
    rw [← hcount]
    exact Array.toList_push
  rw [applyRule_eq]
  split
  · have hrunning : { r.moved rule with stalled := false }.halted = false := h
    rw [journal_halt hrunning, Array.toList_push, hmoved, List.append_assoc, ← hcount]
    rfl
  · split
    · rw [journal_log, Array.toList_push, hmoved, List.append_assoc]
      rfl
    · exact hmoved

/-- Applying a rule adds a step. -/
theorem stepCount_applyRule_recordStart :
    (r.recordStart.applyRule rule).stepCount = r.stepCount + 1 := by
  rw [stepCount, history_applyRule, Array.size_push, size_history_recordStart, Nat.add_sub_cancel]

/-! ## Steps -/

theorem step_of_halted (h : r.halted = true) : r.step rules = r := if_pos h

/-- Without an applicable rule, a step halts the run. -/
theorem step_of_none (h : r.halted = false) (hrule : rules.firstApplicable? r.context = none) :
    r.step rules = { r.recordStart with stalled := false }.halt .natural := by
  rw [step, h]
  simp only [Bool.false_eq_true, if_false, context_recordStart, hrule]

/-- A step applies the first applicable rule. -/
theorem step_of_some (h : r.halted = false)
    (hrule : rules.firstApplicable? r.context = some rule) :
    r.step rules = r.recordStart.applyRule rule := by
  rw [step, h]
  simp only [Bool.false_eq_true, if_false, context_recordStart, hrule]

theorem context_step_of_none (h : r.halted = false)
    (hrule : rules.firstApplicable? r.context = none) :
    (r.step rules).context = r.context := by
  rw [step_of_none h hrule, context_halt]
  exact context_recordStart

theorem context_step_of_some (h : r.halted = false)
    (hrule : rules.firstApplicable? r.context = some rule) :
    (r.step rules).context = rule.apply r.context := by
  rw [step_of_some h hrule, context_applyRule, context_recordStart]

theorem history_step_of_none (h : r.halted = false)
    (hrule : rules.firstApplicable? r.context = none) :
    (r.step rules).history = r.recordStart.history := by
  rw [step_of_none h hrule, history_halt]

theorem history_step_of_some (h : r.halted = false)
    (hrule : rules.firstApplicable? r.context = some rule) :
    (r.step rules).history = r.recordStart.history.push ⟨rule.apply r.context, some rule⟩ := by
  rw [step_of_some h hrule, history_applyRule, context_recordStart]

theorem halted_step_of_none (h : r.halted = false)
    (hrule : rules.firstApplicable? r.context = none) : (r.step rules).halted = true := by
  rw [step_of_none h hrule, halted_halt]

theorem halted_step_of_some (h : r.halted = false)
    (hrule : rules.firstApplicable? r.context = some rule) :
    (r.step rules).halted = rule.terminating := by
  rw [step_of_some h hrule, halted_applyRule (by rwa [halted_recordStart])]

theorem termination_step_of_none (h : r.halted = false)
    (hrule : rules.firstApplicable? r.context = none) :
    (r.step rules).termination = some .natural := by
  rw [step_of_none h hrule, termination_halt]
  exact halted_recordStart.trans h

theorem termination_step_of_some (h : r.halted = false)
    (hrule : rules.firstApplicable? r.context = some rule) :
    (r.step rules).termination =
      if rule.terminating then some .explicit else r.termination := by
  rw [step_of_some h hrule, termination_applyRule (by rwa [halted_recordStart]),
    termination_recordStart]

theorem stalled_step_of_none (h : r.halted = false)
    (hrule : rules.firstApplicable? r.context = none) : (r.step rules).stalled = false := by
  rw [step_of_none h hrule, stalled_halt]

theorem stalled_step_of_some (h : r.halted = false)
    (hrule : rules.firstApplicable? r.context = some rule) :
    (r.step rules).stalled =
      (!rule.terminating && decide (rule.apply r.context = r.context)) := by
  rw [step_of_some h hrule, stalled_applyRule, context_recordStart]

/-- A step that finds no rule logs the end of the run. -/
theorem journal_step_of_none (h : r.halted = false)
    (hrule : rules.firstApplicable? r.context = none) :
    (r.step rules).journal = r.journal.push (.halted .natural r.stepCount r.context) := by
  have hrunning : { r.recordStart with stalled := false }.halted = false :=
    halted_recordStart.trans h
  have hcount : { r.recordStart with stalled := false }.stepCount = r.stepCount :=
    stepCount_recordStart
  rw [step_of_none h hrule, journal_halt hrunning, hcount]
  simp only [journal_recordStart, context_recordStart]

/-- A step that applies a rule logs it, and then the end of the run or a lack of progress. -/
theorem journal_step_of_some (h : r.halted = false)
    (hrule : rules.firstApplicable? r.context = some rule) :
    (r.step rules).journal.toList = r.journal.toList ++
      .stepped (r.stepCount + 1) rule (rule.apply r.context) ::
        if rule.terminating then [.halted .explicit (r.stepCount + 1) (rule.apply r.context)]
        else if rule.apply r.context = r.context then [.stalled rule (rule.apply r.context)]
        else [] := by
  rw [step_of_some h hrule, journal_applyRule (by rwa [halted_recordStart]),
    size_history_recordStart, journal_recordStart, context_recordStart]

theorem initial_step (rules : Ruleset) (r : Runner) : (r.step rules).initial = r.initial := by
  cases h : r.halted with
  | true => rw [step_of_halted h]
  | false =>
      cases hrule : rules.firstApplicable? r.context with
      | none =>
          rw [step_of_none h hrule, initial_halt]
          exact initial_recordStart
      | some rule => rw [step_of_some h hrule, initial_applyRule, initial_recordStart]

theorem stepCount_step_of_none (h : r.halted = false)
    (hrule : rules.firstApplicable? r.context = none) :
    (r.step rules).stepCount = r.stepCount := by
  rw [step_of_none h hrule, stepCount_halt]
  exact stepCount_recordStart

theorem stepCount_step_of_some (h : r.halted = false)
    (hrule : rules.firstApplicable? r.context = some rule) :
    (r.step rules).stepCount = r.stepCount + 1 := by
  rw [step_of_some h hrule, stepCount_applyRule_recordStart]

theorem history_recordStart_isPrefix : r.history.toList <+: r.recordStart.history.toList := by
  by_cases h : r.history = #[]
  · rw [h]
    exact List.nil_prefix
  · simp only [recordStart_of_nonempty h, List.prefix_refl]

/-- A step keeps the history and adds to its end. -/
theorem history_step_isPrefix (rules : Ruleset) (r : Runner) :
    r.history.toList <+: (r.step rules).history.toList := by
  cases h : r.halted with
  | true => simp only [step_of_halted h, List.prefix_refl]
  | false =>
      cases hrule : rules.firstApplicable? r.context with
      | none =>
          rw [history_step_of_none h hrule]
          exact history_recordStart_isPrefix
      | some rule =>
          rw [history_step_of_some h hrule, Array.toList_push]
          exact history_recordStart_isPrefix.trans (List.prefix_append _ _)

/-! ## The flag and the ending

Whether a run has ended and how it ended are stored apart, and set together. -/

/-- The flag of a runner is set exactly if there is a way in which its run ended. -/
def Flagged (r : Runner) : Prop := r.halted = r.termination.isSome

theorem flagged_start (c : Word) : Flagged (start c) := rfl

theorem Flagged.termination_eq_none (h : Flagged r) (hh : r.halted = false) :
    r.termination = none := by
  rw [Flagged, hh] at h
  exact Option.isNone_iff_eq_none.mp (Option.isSome_eq_false_iff.mp h.symm)

theorem Flagged.halted_of_termination (h : Flagged r) (hend : r.termination = some how) :
    r.halted = true := by
  rw [Flagged, hend] at h
  exact h

/-- A way to end that is stored with the flag agrees with it. -/
theorem flagged_of_ended (hh : r.halted = true) (hend : r.termination = some how) : Flagged r := by
  rw [Flagged, hh, hend]
  rfl

/-- The first end sets both, and a later one neither. -/
theorem Flagged.halt (h : Flagged r) (how : Termination) : Flagged (r.halt how) := by
  cases hh : r.halted with
  | true => rwa [halt_of_halted hh]
  | false => exact flagged_of_ended halted_halt (termination_halt hh)

theorem Flagged.step (h : Flagged r) (rules : Ruleset) : Flagged (r.step rules) := by
  cases hh : r.halted with
  | true => rwa [step_of_halted hh]
  | false =>
      cases hrule : rules.firstApplicable? r.context with
      | none =>
          exact flagged_of_ended (halted_step_of_none hh hrule) (termination_step_of_none hh hrule)
      | some rule =>
          rw [Flagged, halted_step_of_some hh hrule, termination_step_of_some hh hrule,
            h.termination_eq_none hh]
          cases rule.terminating <;> rfl

end NormalAlgorithm.Runner
