/-
  NormalAlgorithm.Proofs.Runner.Journal

  The journal of a runner, told from its history.

  Records are made in four places: by a step that applies a rule, by a step that stalls, by a
  bounded run whose budget is spent, and by every way of halting. What they make up is one
  story (`Tells`): the entries of the history in their order (`Entry.records`, `story`), and
  at the end, once, how the run ended.

    * `journal_tells_history`: this is so after every sequence of calls, and the budget is
      mentioned exactly if one of the calls was a bounded run that spent it (`SpentAmong`).

  A step adds the records of the entry that it adds (`Tells.step`). A bounded run takes steps
  until its budget is spent while a rule still applies, if it comes to that at all
  (`Budget.RunsOut`), and the two cases are followed round by round
  (`Tells.driveWithin_of_runsOut`, `Tells.driveWithin_of_not_runsOut`).
-/

import NormalAlgorithm.Proofs.Runner.Bounded
import NormalAlgorithm.Proofs.Runner.Status

namespace NormalAlgorithm

open NormalAlgorithm.Journal NormalAlgorithm.Text

/-! ## The records of a history -/

/-- What is logged of the entry with number `n`: the rule applied, and if that does not
    terminate and puts back what it took, that there was no progress. The word a run starts
    from is not logged. -/
def Entry.records (n : Nat) (e : Entry) : List Record :=
  match e.rule with
  | none => []
  | some rule =>
    .stepped n rule e.context ::
      if rule.terminating = false ∧ rule.pattern = rule.replacement then [.stalled rule e.context]
      else []

/-- What is logged of a history, entry by entry. -/
def story (history : Array Entry) : List Record :=
  history.toList.zipIdx.flatMap fun (e, n) => e.records n

theorem story_push (history : Array Entry) (e : Entry) :
    story (history.push e) = story history ++ e.records history.size := by
  rw [story, Array.toList_push, List.zipIdx_append, List.flatMap_append, Array.length_toList,
    Nat.zero_add]
  simp [story]

variable {rules : Ruleset} {rule : Rule} {r r' : Runner} {budget : Budget} {stopOnStall : Bool}

namespace Runner

/-- The first entry adds nothing to the story. -/
theorem story_recordStart : story r.recordStart.history = story r.history := by
  by_cases h : r.history = #[]
  · rw [history_recordStart_of_empty h, h]
    rfl
  · rw [recordStart_of_nonempty h]

/-! ## Steps and stops -/

/-- The journal is the story of the history. Once the run has ended, that is the last record,
    after the budget if it was the budget that ended it. -/
structure Tells (spent : Option Int) (r : Runner) : Prop where
  ruled : ∀ e ∈ r.history.toList.tail, e.rule.isSome = true
  flagged : Flagged r
  running : r.halted = false → spent = none ∧ r.journal.toList = story r.history
  ended : ∀ how, r.termination = some how →
    (spent.isSome = true → how = .stopped) ∧
    r.journal.toList = story r.history ++ spent.toList.map Record.budgetSpent ++
      [.halted how r.stepCount r.context]

theorem tells_start (c : Word) : Tells none (start c) where
  ruled := by simp [start]
  flagged := flagged_start c
  running _ := ⟨rfl, rfl⟩
  ended how h := by simp [start] at h

/-- What is left to show of a run that has ended. -/
theorem tells_of_ended {spent : Option Int} {how : Termination} (hhalted : r.halted = true)
    (hhow : r.termination = some how)
    (hruled : ∀ e ∈ r.history.toList.tail, e.rule.isSome = true)
    (hstopped : spent.isSome = true → how = .stopped)
    (hjournal : r.journal.toList = story r.history ++ spent.toList.map Record.budgetSpent ++
      [.halted how r.stepCount r.context]) : Tells spent r := by
  refine ⟨hruled, flagged_of_ended hhalted hhow, ?_, ?_⟩
  · intro hrunning
    rw [hhalted] at hrunning
    cases hrunning
  · intro how' hhow'
    rw [hhow, Option.some.injEq] at hhow'
    exact hhow' ▸ ⟨hstopped, hjournal⟩

/-- With its start recorded, the entries after the first carry a rule as before. -/
theorem Tells.ruled_recordStart {spent : Option Int} (h : Tells spent r) :
    ∀ e ∈ r.recordStart.history.toList.tail, e.rule.isSome = true := by
  by_cases hempty : r.history = #[]
  · rw [history_recordStart_of_empty hempty]
    intro e he
    cases he
  · rw [recordStart_of_nonempty hempty]
    exact h.ruled

/-- The entry that a step adds carries a rule. -/
theorem Tells.ruled_step (h : Tells none r) (hh : r.halted = false)
    (hrule : rules.firstApplicable? r.context = some rule) :
    ∀ e ∈ (r.step rules).history.toList.tail, e.rule.isSome = true := by
  have hne : r.recordStart.history.toList ≠ [] := by
    intro hnil
    have hsize : r.recordStart.history.size = r.stepCount + 1 := size_history_recordStart
    rw [← Array.length_toList, hnil] at hsize
    cases hsize
  rw [history_step_of_some hh hrule, Array.toList_push, List.tail_append_of_ne_nil hne]
  intro e he
  rcases List.mem_append.mp he with he | he
  · exact h.ruled_recordStart e he
  · rw [List.mem_singleton.mp he]
    rfl

/-- The records of a step are those of the entry that it adds, and the end if it has come. -/
theorem journal_step_eq (hh : r.halted = false)
    (hrule : rules.firstApplicable? r.context = some rule) :
    (r.step rules).journal.toList = r.journal.toList ++
      (Entry.mk (rule.apply r.context) (some rule)).records (r.stepCount + 1) ++
      if rule.terminating then [.halted .explicit (r.stepCount + 1) (rule.apply r.context)]
      else [] := by
  -- a rule leaves the word as it was exactly if it puts back what it took
  have hocc := (Ruleset.firstApplicable?_eq_some_iff.mp hrule).occurs
  have hsame := Rule.apply_eq_self_iff hocc
  rw [journal_step_of_some hh hrule]
  cases hterm : rule.terminating with
  | true => simp [Entry.records, hterm]
  | false => simp [Entry.records, hterm, hsame]

/-- A step that finds no rule adds the end of the run to the journal. -/
theorem Tells.step_of_none (h : Tells none r) (hh : r.halted = false)
    (hrule : rules.firstApplicable? r.context = none) : Tells none (r.step rules) := by
  apply tells_of_ended (halted_step_of_none hh hrule) (termination_step_of_none hh hrule)
  · rw [history_step_of_none hh hrule]
    exact h.ruled_recordStart
  · simp
  · rw [journal_step_of_none hh hrule, Array.toList_push, (h.running hh).2,
      history_step_of_none hh hrule, story_recordStart, stepCount_step_of_none hh hrule,
      context_step_of_none hh hrule]
    simp

/-- A step that applies a rule adds the records of its entry to the journal. -/
theorem Tells.step_of_some (h : Tells none r) (hh : r.halted = false)
    (hrule : rules.firstApplicable? r.context = some rule) : Tells none (r.step rules) := by
  have hstory : story (r.step rules).history = story r.history ++
      (Entry.mk (rule.apply r.context) (some rule)).records (r.stepCount + 1) := by
    rw [history_step_of_some hh hrule, story_push, story_recordStart, size_history_recordStart]
  have hjournal := journal_step_eq hh hrule
  rw [(h.running hh).2, ← hstory] at hjournal
  have hend := termination_step_of_some hh hrule
  cases hterm : rule.terminating with
  | true =>
      rw [hterm, if_pos rfl] at hend hjournal
      have hhalted : (r.step rules).halted = true := by rw [halted_step_of_some hh hrule, hterm]
      apply tells_of_ended hhalted hend (h.ruled_step hh hrule)
      · simp
      · rw [hjournal, stepCount_step_of_some hh hrule, context_step_of_some hh hrule]
        simp
  | false =>
      rw [hterm, if_neg Bool.false_ne_true] at hend hjournal
      refine ⟨h.ruled_step hh hrule, h.flagged.step rules,
        fun _ => ⟨rfl, by rw [hjournal, List.append_nil]⟩, ?_⟩
      intro how hhow
      rw [hend, h.flagged.termination_eq_none hh] at hhow
      cases hhow

theorem Tells.step (h : Tells none r) : Tells none (r.step rules) := by
  cases hh : r.halted with
  | true => rwa [step_of_halted hh]
  | false =>
      cases hrule : rules.firstApplicable? r.context with
      | none => exact h.step_of_none hh hrule
      | some rule => exact h.step_of_some hh hrule

/-- A stop adds the end of the run to the journal, if it has not come yet. -/
theorem Tells.stop (h : Tells none r) : Tells none (r.halt .stopped) := by
  cases hh : r.halted with
  | true => rwa [halt_of_halted hh]
  | false =>
      apply tells_of_ended halted_halt (termination_halt hh)
      · rw [history_halt]
        exact h.ruled
      · simp
      · rw [journal_halt hh, Array.toList_push, (h.running hh).2, history_halt, stepCount_halt,
          context_halt]
        simp

/-- A stop because the budget is spent adds the budget, and then the end of the run. -/
theorem Tells.spend (h : Tells none r) (hh : r.halted = false) (limit : Int) :
    Tells (some limit) ((r.log (.budgetSpent limit)).halt .stopped) := by
  have hlogged : (r.log (.budgetSpent limit)).halted = false := by rwa [halted_log]
  apply tells_of_ended halted_halt (termination_halt hlogged)
  · rw [history_halt, history_log]
    exact h.ruled
  · simp
  · rw [journal_halt hlogged, Array.toList_push, journal_log, Array.toList_push,
      (h.running hh).2, history_halt, history_log, stepCount_halt, stepCount_log, context_halt,
      context_log]
    simp

/-! ## Runs -/

/-- A run without a bound only takes steps. -/
theorem Tells.iterate (h : Tells none r) (n : Nat) : Tells none ((Runner.step rules)^[n] r) := by
  induction n with
  | zero => exact h
  | succ n ih =>
      rw [Function.iterate_succ_apply']
      exact ih.step

end Runner

/-- From a runner on, steps lead to a state in which the budget is spent and a rule still
    applies, and no stall stops the run on the way there. -/
def Budget.RunsOut (budget : Budget) (rules : Ruleset) (stopOnStall : Bool) (r : Runner) : Prop :=
  ∃ n, budget.isSpent ((Runner.step rules)^[n] r).stepCount = true ∧
    ((Runner.step rules)^[n] r).canStep rules = true ∧
    (stopOnStall = true → ∀ m < n, ((Runner.step rules)^[m + 1] r).stalled = false)

namespace Runner

theorem not_runsOut_of_halted (h : r.halted = true) : ¬ budget.RunsOut rules stopOnStall r := by
  rintro ⟨n, _, hcan, _⟩
  rw [iterate_step_of_halted h, canStep_eq_false_of_halted h] at hcan
  cases hcan

/-- The budget runs out at once, or after a step that does not stop the run by a stall. -/
theorem runsOut_iff :
    budget.RunsOut rules stopOnStall r ↔
      (budget.isSpent r.stepCount = true ∧ r.canStep rules = true) ∨
      ((stopOnStall && (r.step rules).stalled) = false ∧
        budget.RunsOut rules stopOnStall (r.step rules)) := by
  constructor
  · rintro ⟨n, hspent, hcan, hstall⟩
    cases n with
    | zero => exact Or.inl ⟨hspent, hcan⟩
    | succ n =>
        refine Or.inr ⟨?_, n, hspent, hcan, fun hstop m hm => hstall hstop (m + 1) (by omega)⟩
        cases hstop : stopOnStall with
        | false => rfl
        | true => exact hstall hstop 0 (by omega)
  · rintro (⟨hspent, hcan⟩ | ⟨hfirst, n, hspent, hcan, hstall⟩)
    · exact ⟨0, hspent, hcan, fun _ m hm => absurd hm (Nat.not_lt_zero m)⟩
    · refine ⟨n + 1, hspent, hcan, fun hstop m hm => ?_⟩
      cases m with
      | zero =>
          rw [hstop, Bool.true_and] at hfirst
          exact hfirst
      | succ m => exact hstall hstop m (by omega)

/-- A run whose budget runs out has not ended, and its budget is finite. -/
theorem exists_limit_of_runsOut (h : budget.RunsOut rules stopOnStall r) :
    r.halted = false ∧ ∃ limit, budget.steps = some limit := by
  constructor
  · rw [Bool.eq_false_iff]
    intro hh
    exact not_runsOut_of_halted hh h
  · obtain ⟨n, hspent, _⟩ := h
    cases hsteps : budget.steps with
    | some limit => exact ⟨limit, rfl⟩
    | none =>
        rw [Budget.isSpent, hsteps] at hspent
        cases hspent

/-- A bounded run whose budget does not run out takes steps, and may be stopped by a stall. -/
theorem Tells.driveWithin_of_not_runsOut (h : Tells none r)
    (hout : ¬ budget.RunsOut rules stopOnStall r) (fuel : Nat) :
    Tells none (r.driveWithin rules budget stopOnStall fuel) := by
  induction fuel generalizing r with
  | zero => exact h
  | succ fuel ih =>
      rw [Runner.driveWithin]
      split
      · exact h
      · rw [runsOut_iff, not_or] at hout
        obtain ⟨hnow, hlater⟩ := hout
        have hgo : budget.isSpent r.stepCount = false ∨ r.canStep rules = false := by
          rw [← Bool.and_eq_false_iff, Bool.eq_false_iff, ne_eq, Bool.and_eq_true]
          exact hnow
        rw [driveRound_of_unspent hgo]
        cases hstall : stopOnStall && (r.step rules).stalled with
        | true => exact ih h.step.stop (not_runsOut_of_halted halted_halt)
        | false => exact ih h.step fun hout => hlater ⟨hstall, hout⟩

/-- A bounded run whose budget runs out gets to the round that stops it, if it has a round
    left for that and one for each step before. -/
theorem Tells.driveWithin_of_runsOut {limit fuel : Nat} (h : Tells none r)
    (hout : budget.RunsOut rules stopOnStall r) (hlimit : budget.steps = some limit)
    (hfuel : 1 ≤ fuel ∧ limit < fuel + r.stepCount) :
    Tells (some budget.shown) (r.driveWithin rules budget stopOnStall fuel) := by
  induction fuel generalizing r with
  | zero => omega
  | succ fuel ih =>
      obtain ⟨hh, _⟩ := exists_limit_of_runsOut hout
      rw [Runner.driveWithin, hh, if_neg Bool.false_ne_true]
      by_cases hnow : budget.isSpent r.stepCount = true ∧ r.canStep rules = true
      · -- this is the round that stops it, and the rounds after it do nothing
        rw [driveRound_of_canStep hnow.1 hnow.2, driveWithin_eq_iterate,
          iterate_driveRound_of_halted halted_halt]
        exact h.spend hh budget.shown
      · obtain ⟨hstall, hlater⟩ := (runsOut_iff.mp hout).resolve_left hnow
        -- the step has not ended the run, so it has applied a rule with the budget not spent
        obtain ⟨hrunning, _⟩ := exists_limit_of_runsOut hlater
        have hcount := stepCount_step_of_running hrunning
        have hcan : r.canStep rules = true := by
          rw [← Bool.not_eq_false]
          intro hcan
          rw [(step_of_canStep_eq_false hcan).1] at hrunning
          cases hrunning
        have hunspent : budget.isSpent r.stepCount = false := by
          rw [Bool.eq_false_iff]
          exact fun hspent => hnow ⟨hspent, hcan⟩
        have hbelow : r.stepCount < limit := by
          rw [isSpent_eq hlimit, decide_eq_false_iff_not] at hunspent
          omega
        rw [driveRound_of_unspent (Or.inl hunspent), hstall, if_neg Bool.false_ne_true]
        exact ih h.step hlater (by omega)

/-! ## Calls -/

/-- `Spends rules r call shown`: the call is a bounded run from `r` that spends its budget,
    which is shown as `shown`. -/
inductive Spends (rules : Ruleset) (r : Runner) : Call → Int → Prop where
  | drive {settings : RunnerSettings} {limit stopOnStall : Value} {budget : Budget}
      (hbudget : Budget.ofLimit settings limit = .ok budget)
      (hout : budget.RunsOut rules (stopFlag settings stopOnStall) r) :
    Spends rules r (.drive settings limit stopOnStall) budget.shown

/-- One of the calls, in the state that those before it lead to, spends its budget. -/
def SpentAmong (r₀ : Runner) (calls : List (Ruleset × Call)) (shown : Int) : Prop :=
  ∃ past x later r, calls = past ++ x :: later ∧ Reaches r₀ past r ∧ Spends x.1 r x.2 shown

variable {settings : RunnerSettings} {limit stopAsked : Value}

theorem not_spends_of_halted {call : Call} (h : r.halted = true) (shown : Int) :
    ¬ Spends rules r call shown := by
  rintro ⟨_, hout⟩
  exact not_runsOut_of_halted h hout

theorem spends_drive_iff (hbudget : Budget.ofLimit settings limit = .ok budget) (shown : Int) :
    Spends rules r (.drive settings limit stopAsked) shown ↔
      budget.shown = shown ∧ budget.RunsOut rules (stopFlag settings stopAsked) r := by
  constructor
  · rintro ⟨hbudget', hout⟩
    obtain rfl := Except.ok.inj (hbudget.symm.trans hbudget')
    exact ⟨rfl, hout⟩
  · rintro ⟨rfl, hout⟩
    exact .drive hbudget hout

theorem Tells.drive (h : Tells none r) (hbudget : Budget.ofLimit settings limit = .ok budget) :
    ∃ spent,
      (∀ shown, spent = some shown ↔ Spends rules r (.drive settings limit stopAsked) shown) ∧
      Tells spent (r.drive rules budget (stopFlag settings stopAsked)) := by
  by_cases hout : budget.RunsOut rules (stopFlag settings stopAsked) r
  · refine ⟨some budget.shown, ?_, ?_⟩
    · intro shown
      rw [spends_drive_iff hbudget, Option.some.injEq]
      exact ⟨fun hshown => ⟨hshown, hout⟩, And.left⟩
    · obtain ⟨_, steps, hsteps⟩ := exists_limit_of_runsOut hout
      rw [Runner.drive, hsteps, Option.getD_some]
      exact h.driveWithin_of_runsOut hout hsteps (by omega)
  · refine ⟨none, ?_, h.driveWithin_of_not_runsOut hout _⟩
    intro shown
    rw [spends_drive_iff hbudget]
    simp [hout]

/-- One call adds its records, and mentions the budget exactly if it spends it. -/
theorem Tells.yields {call : Call} (h : Tells none r) (hcall : Yields rules r call r') :
    ∃ spent, (∀ shown, spent = some shown ↔ Spends rules r call shown) ∧ Tells spent r' := by
  have hnone (hcall : ∀ shown, ¬ Spends rules r call shown) (shown : Int) :
      none = some shown ↔ Spends rules r call shown := by simp [hcall]
  cases hcall with
  | step => exact ⟨none, hnone (by rintro _ ⟨⟩), h.step⟩
  | run hrun =>
      obtain ⟨n, rfl, _⟩ := yields_run_iff.mp (.run hrun)
      exact ⟨none, hnone (by rintro _ ⟨⟩), h.iterate n⟩
  | stop => exact ⟨none, hnone (by rintro _ ⟨⟩), h.stop⟩
  | drive hdrive =>
      rw [driveBy] at hdrive
      split at hdrive
      · cases hdrive
      · rename_i budget hbudget
        obtain rfl := Except.ok.inj hdrive
        exact h.drive hbudget
  | refused hdrive =>
      refine ⟨none, hnone ?_, h⟩
      rintro shown ⟨hbudget, _⟩
      rw [driveBy, hbudget] at hdrive
      cases hdrive

/-- The budget is spent by one of some calls if it is by the last, or by one before it. -/
theorem spentAmong_concat {r₀ : Runner} {calls : List (Ruleset × Call)} {x : Ruleset × Call}
    (h : Reaches r₀ calls r) (shown : Int) :
    SpentAmong r₀ (calls ++ [x]) shown ↔ SpentAmong r₀ calls shown ∨ Spends x.1 r x.2 shown := by
  constructor
  · rintro ⟨past, y, later, s, hcalls, hs, hspends⟩
    rcases List.eq_nil_or_concat later with rfl | ⟨later, z, rfl⟩
    · -- it is the last call, in the state that the others lead to
      obtain ⟨rfl, hlast⟩ := List.append_inj' hcalls rfl
      rw [List.singleton_inj] at hlast
      rw [hlast, h.unique hs]
      exact Or.inr hspends
    · rw [List.concat_eq_append, ← List.cons_append, ← List.append_assoc] at hcalls
      obtain ⟨rfl, _⟩ := List.append_inj' hcalls rfl
      exact Or.inl ⟨past, y, later, s, rfl, hs, hspends⟩
  · rintro (⟨past, y, later, s, rfl, hs, hspends⟩ | hspends)
    · exact ⟨past, y, later ++ [x], s, by simp, hs, hspends⟩
    · exact ⟨calls, x, [], r, rfl, h, hspends⟩

/-- After every sequence of calls the journal tells the history, and the budget if it was
    spent. -/
theorem exists_tells {c : Word} {calls : List (Ruleset × Call)} (h : Reaches (start c) calls r) :
    ∃ spent, (∀ shown, spent = some shown ↔ SpentAmong (start c) calls shown) ∧
      Tells spent r := by
  induction h with
  | start => exact ⟨none, fun shown => by simp [SpentAmong], tells_start c⟩
  | @call past rules call r r' hpast hcall ih =>
      obtain ⟨spent, hspent, htells⟩ := ih
      cases hh : r.halted with
      | true =>
          -- nothing happens any more
          rw [hcall.eq_of_halted hh]
          refine ⟨spent, fun shown => ?_, htells⟩
          rw [hspent, spentAmong_concat hpast]
          exact ⟨Or.inl, fun hor => hor.resolve_right (not_spends_of_halted hh shown)⟩
      | false =>
          -- no budget has been spent before, so the last call decides
          obtain ⟨rfl, _⟩ := htells.running hh
          obtain ⟨spent, hspent', htells'⟩ := htells.yields hcall
          refine ⟨spent, fun shown => ?_, htells'⟩
          rw [hspent', spentAmong_concat hpast]
          refine ⟨Or.inr, fun hor => hor.resolve_left fun hbefore => ?_⟩
          cases (hspent shown).mpr hbefore

/-- The journal tells the same story as the history, after every sequence of calls and whatever
    rulesets they find. Each entry after the first carries a rule and is logged under its number
    in the history, directly followed by a warning exactly if the rule does not terminate and
    puts back what it took (`story`). A run that goes on has logged nothing else. One that has
    ended has logged that once, at the very end, with how it ended, the number of its steps and
    its word; directly before that the budget is mentioned, exactly if one of the calls was a
    bounded run that spent it, and then it is the one that stopped the run. Nothing is logged
    after that. -/
theorem journal_tells_history {c : Word} {calls : List (Ruleset × Call)}
    (h : Reaches (start c) calls r) :
    (∀ e ∈ r.history.toList.tail, e.rule.isSome = true) ∧
    (∃ spent : Option Int, (∀ shown, spent = some shown ↔ SpentAmong (start c) calls shown) ∧
      (r.halted = false → spent = none ∧ r.journal.toList = story r.history) ∧
      (∀ how, r.termination = some how → (spent.isSome = true → how = .stopped) ∧
        r.journal.toList = story r.history ++ spent.toList.map Record.budgetSpent ++
          [.halted how r.stepCount r.context])) ∧
    (r.halted = true → ∀ later r', Reaches r later r' → r'.journal = r.journal) ∧
    (∀ n rule w, (Record.stepped n rule w).level = .debug ∧ (Record.stepped n rule w).message =
      "Step " ++ String.ofList (decimal n) ++ ": " ++ rule.text ++ " => " ++
        String.ofList (quoted w)) ∧
    (∀ rule w, (Record.stalled rule w).level = .warning ∧ (Record.stalled rule w).message =
      "No progress: '" ++ rule.text ++ "' leaves " ++ String.ofList (quoted w) ++ " unchanged") ∧
    (∀ how n w, (Record.halted how n w).level = .info ∧ (Record.halted how n w).message =
      "Halted (" ++ how.name ++ ") after " ++ String.ofList (decimal n) ++ " step(s): " ++
        String.ofList (quoted w)) ∧
    (∀ limit, (Record.budgetSpent limit).level = .warning ∧ (Record.budgetSpent limit).message =
      "Step budget of " ++ String.ofList (decimalInt limit) ++ " exhausted, stopping") := by
  obtain ⟨spent, hspent, htells⟩ := exists_tells h
  refine ⟨htells.ruled, ⟨spent, hspent, htells.running, htells.ended⟩, ?_,
    fun _ _ _ => ⟨rfl, rfl⟩, fun _ _ => ⟨rfl, rfl⟩, fun _ _ _ => ⟨rfl, rfl⟩,
    fun _ => ⟨rfl, rfl⟩⟩
  intro hh later r' hlater
  rw [hlater.eq_of_halted hh]

/-- With `a -> a` from `a`, a step and then a bounded run of two steps that does not stop on
    stalls: two steps and two warnings, the budget, and the end. A stop after that logs
    nothing. -/
theorem journal_tells_history_budget_spent :
    ∃ rule r, Reaches (start ['a'])
        ([.step, .drive .standard (.int 2) (.bool false), .stop].map (⟨[rule]⟩, ·)) r ∧
      SpentAmong (start ['a'])
        ([.step, .drive .standard (.int 2) (.bool false), .stop].map (⟨[rule]⟩, ·)) 2 ∧
      r.journal.toList = [.stepped 1 rule ['a'], .stalled rule ['a'], .stepped 2 rule ['a'],
        .stalled rule ['a'], .budgetSpent 2, .halted .stopped 2 ['a']] := by
  let rule : Rule := ⟨['a'], ['a'], false, List.all_eq_true.mp rfl, List.all_eq_true.mp rfl⟩
  let r : Runner := (((start ['a']).step ⟨[rule]⟩).drive ⟨[rule]⟩ (.ofInt 2) false).halt .stopped
  have hreaches : Reaches (start ['a'])
      ([.step, .drive .standard (.int 2) (.bool false), .stop].map (⟨[rule]⟩, ·)) r :=
    ((Reaches.start.call .step).call (.drive (driveBy_int .standard (by decide) false))).call .stop
  have hstopped : r.termination = some .stopped := by decide +kernel
  have hstory : story r.history = [.stepped 1 rule ['a'], .stalled rule ['a'],
      .stepped 2 rule ['a'], .stalled rule ['a']] := by decide +kernel
  have hjournal : r.journal.toList = [.stepped 1 rule ['a'], .stalled rule ['a'],
      .stepped 2 rule ['a'], .stalled rule ['a'], .budgetSpent 2, .halted .stopped 2 ['a']] := by
    decide +kernel
  obtain ⟨_, ⟨spent, hspent, _, hended⟩, _⟩ := journal_tells_history hreaches
  have htold := (hended .stopped hstopped).2
  rw [hstory, hjournal] at htold
  refine ⟨rule, r, hreaches, (hspent 2).mp ?_, hjournal⟩
  cases spent with
  | none => simp at htold
  | some shown =>
      simp only [Option.toList_some, List.map_cons, List.map_nil, List.cons_append,
        List.nil_append, List.cons.injEq, true_and, Record.budgetSpent.injEq] at htold
      rw [htold.1]

end Runner

end NormalAlgorithm
