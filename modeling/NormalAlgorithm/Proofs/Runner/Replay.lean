/-
  NormalAlgorithm.Proofs.Runner.Replay

  The outcome of a run can be replayed from its texts.

  An outcome holds no rules, only their statement forms. To replay it is to compile
  each of these forms and to apply the rule to the word of the record before
  (`StepRecord.ReplaysFrom`).

    * `result_can_be_replayed`: the outcome of a runner starts from its first word, and
      every further record is what its own rule text makes of the one before, up to
      the word that the outcome gives.

  On the runner's side the history is a trail in which each entry follows from the
  word before it by the rule it carries (`Entry.FollowsFrom`). Which ruleset the rule
  was found in does not matter, so the rulesets may change on the way. Compiling the
  statement form of a rule gives the rule back, which carries the trail over to the
  records (`IsTrail.replays`).
-/

import NormalAlgorithm.Proofs.Runner.Derivation
import NormalAlgorithm.Proofs.Statement.Compile
import NormalAlgorithm.Runner.Result

namespace NormalAlgorithm

/-! ## Entries and records -/

/-- The entry is what the rule it carries makes of a word. -/
def Entry.FollowsFrom (w : Word) (e : Entry) : Prop :=
  ∃ rule, e.rule = some rule ∧ rule.pattern <:+: w ∧ rule.apply w = e.context

/-- The record is what its rule, compiled from its text, makes of a word. -/
def StepRecord.ReplaysFrom (w : Word) (record : StepRecord) : Prop :=
  ∃ text rule, record.rule = some text ∧ Statement.compile text = .ok rule ∧
    rule.terminating = record.terminating ∧ rule.pattern <:+: w ∧
    rule.apply w = record.context

@[simp] theorem Entry.context_toRecord (e : Entry) : e.toRecord.context = e.context := by
  rw [toRecord]
  split <;> rfl

/-- The statement form of an entry's rule is enough to replay it. -/
theorem Entry.FollowsFrom.replaysFrom {w : Word} {e : Entry} (h : e.FollowsFrom w) :
    e.toRecord.ReplaysFrom w := by
  obtain ⟨context, _⟩ := e
  obtain ⟨rule, rfl, hocc, happly⟩ := h
  exact ⟨rule.render, rule, rfl, Statement.compile_render rule, rfl, hocc, happly⟩

/-- The records of a trail can be replayed. -/
theorem IsTrail.replays {c w : Word} {entries : List Entry}
    (h : IsTrail Entry.FollowsFrom c entries w) :
    (entries.map Entry.toRecord).IsChain fun previous record =>
      record.ReplaysFrom previous.context := by
  rw [List.isChain_map]
  refine h.linked.imp ?_
  intro previous e hfollows
  rw [Entry.context_toRecord]
  exact hfollows.replaysFrom

/-! ## Runners -/

namespace Runner

variable {rules : Ruleset} {c : Word} {r : Runner}

/-- A runner remembers the word it started from. -/
theorem closed_initial (rules : Ruleset) (c : Word) : Closed rules fun r => r.initial = c where
  step r _ h := (initial_step rules r).trans h
  stop _ _ h := initial_halt.trans h
  spend _ _ _ _ h := initial_halt.trans h

/-- The entry that a step adds follows from the word that it found. -/
theorem followsFrom_apply {w : Word} {rule : Rule} (h : rules.firstApplicable? w = some rule) :
    Entry.FollowsFrom w ⟨rule.apply w, some rule⟩ :=
  ⟨rule, rfl, (Ruleset.firstApplicable?_eq_some_iff.mp h).occurs, rfl⟩

/-- The outcome of a runner after every sequence of calls, under any rulesets, gives the
    word that the runner started from, whether it has halted and how many rules were
    applied. If there are records, the first is the start, every further one is what
    the rule compiled from its text makes of the word before it, and the last one has
    the word of the outcome; without records the runner is still at its start. -/
theorem result_can_be_replayed {calls : List (Ruleset × Call)}
    (h : Reaches (start c) calls r) :
    r.result.initial = c ∧ r.result.halted = r.halted ∧ r.result.stepCount = r.stepCount ∧
    (r.result.steps = [] → r.result.context = c) ∧
    (r.result.steps ≠ [] →
      r.result.steps[0]? = some ⟨c, none, false⟩ ∧
      (∀ i, (hi : i + 1 < r.result.steps.length) →
        (r.result.steps[i + 1]).ReplaysFrom r.result.steps[i].context) ∧
      r.result.steps.getLast?.map StepRecord.context = some r.result.context) := by
  have hinitial : r.initial = c := h.keeps (fun x _ => closed_initial x.1 c) rfl
  have htrailed : Trailed Entry.FollowsFrom c r :=
    h.keeps (fun x _ => closed_trailed c fun _ _ => followsFrom_apply) (trailed_start _ c)
  have hcount : r.result.stepCount = r.stepCount := by
    rw [RunResult.stepCount, result, List.length_map, Array.length_toList, stepCount]
  have hhalted : r.result.halted = r.halted := h.flagged.symm
  refine ⟨hinitial, hhalted, hcount, ?_, ?_⟩
  · intro hnone
    rcases htrailed with ⟨_, hc⟩ | htrail
    · exact hc
    · exact absurd (List.map_eq_nil_iff.mp hnone) htrail.ne_nil
  · intro hsome
    rcases htrailed with ⟨hempty, _⟩ | htrail
    · refine absurd ?_ hsome
      rw [result, hempty]
      rfl
    · refine ⟨?_, List.isChain_iff_getElem.mp htrail.replays, ?_⟩
      · rw [result, ← List.head?_eq_getElem?, List.head?_map, htrail.first]
        rfl
      · rw [result, List.getLast?_map, Option.map_map, ← htrail.last]
        exact congrArg (Option.map · _) (funext Entry.context_toRecord)

/-- A step with `a -> ->` from `ab`, and a run to the end with `-> ->. !` in its place. -/
theorem result_can_be_replayed_arrows :
    ∃ spell erase r, Reaches (start ['a', 'b']) [(spell, .step), (erase, .run)] r ∧
      r.result.initial = ['a', 'b'] ∧ r.result.context = ['b'] ∧ r.result.steps.length = 3 ∧
      r.result.steps[0]? = some ⟨['a', 'b'], none, false⟩ ∧
      ∀ i, (hi : i + 1 < r.result.steps.length) →
        (r.result.steps[i + 1]).ReplaysFrom r.result.steps[i].context := by
  let spell : Ruleset :=
    ⟨[⟨['a'], ['-', '>'], false, List.all_eq_true.mp rfl, List.all_eq_true.mp rfl⟩]⟩
  let erase : Ruleset :=
    ⟨[⟨['-', '>'], [], true, List.all_eq_true.mp rfl, List.all_eq_true.mp rfl⟩]⟩
  have hrun : (((start ['a', 'b']).step spell).runWithin erase 1).map
      (fun r => (r.result.context, r.result.steps.length)) = some (['b'], 3) := by
    decide +kernel
  obtain ⟨r, hr, hend⟩ := Option.map_eq_some_iff.mp hrun
  obtain ⟨hcontext, hlength⟩ := Prod.mk.inj hend
  have h : Reaches (start ['a', 'b']) [(spell, .step), (erase, .run)] r :=
    (Reaches.start.call .step).call (.run hr)
  have hne : r.result.steps ≠ [] := by
    intro hnil
    rw [hnil] at hlength
    cases hlength
  obtain ⟨hinitial, _, _, _, hsteps⟩ := result_can_be_replayed h
  obtain ⟨hfirst, hreplays, _⟩ := hsteps hne
  exact ⟨spell, erase, r, h, hinitial, hcontext, hlength, hfirst, hreplays⟩

end Runner

end NormalAlgorithm
