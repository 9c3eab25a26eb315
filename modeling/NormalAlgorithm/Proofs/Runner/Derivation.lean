/-
  NormalAlgorithm.Proofs.Runner.Derivation

  Histories are derivations.

  A derivation starts from a word, and each further entry comes from the word before
  it by the first rule whose pattern occurs there, which rewrites the leftmost
  occurrence (`ComesFrom`, `IsDerivation`). Nothing of the runner is mentioned in
  that.

    * `history_is_derivation`: after every sequence of calls under one ruleset, the
      history of a runner is a derivation from its first word to its context, or
      there is none yet.

  The invariant is `Traced`. A derivation is a trail whose links are the steps of a
  derivation (`isDerivation_iff_isTrail`), and the entry that a step adds is such a
  link (`Entry.comesFrom_apply`).
-/

import NormalAlgorithm.Proofs.Rule.Basic
import NormalAlgorithm.Proofs.Runner.Trail

namespace NormalAlgorithm

/-! ## One step of a derivation -/

/-- The first rule, in order, whose pattern occurs in a word. -/
def Ruleset.IsFirst (rules : Ruleset) (w : Word) (rule : Rule) : Prop :=
  ∃ before after, rules.rules = before ++ rule :: after ∧ rule.pattern <:+: w ∧
    ∀ q ∈ before, ¬ q.pattern <:+: w

/-- A word with the leftmost occurrence of the pattern replaced. -/
def Rule.Rewrites (rule : Rule) (w w' : Word) : Prop :=
  ∃ u v, IsLeftmost rule.pattern w u v ∧ w' = u ++ rule.replacement ++ v

/-- The entry comes from a word by the first rule that applies there. -/
def Entry.ComesFrom (rules : Ruleset) (w : Word) (e : Entry) : Prop :=
  ∃ rule, e.rule = some rule ∧ rules.IsFirst w rule ∧ rule.Rewrites w e.context

theorem Rule.occursIn_iff {rule : Rule} {w : Word} :
    rule.occursIn w = true ↔ rule.pattern <:+: w := occurs_iff_infix

/-- The search through the rules gives the first that applies. -/
theorem Ruleset.firstApplicable?_eq_some_iff {rules : Ruleset} {w : Word} {rule : Rule} :
    rules.firstApplicable? w = some rule ↔ rules.IsFirst w rule := by
  rw [firstApplicable?, List.find?_eq_some_iff_append, Rule.occursIn_iff]
  constructor
  · rintro ⟨hocc, before, after, hrules, hbefore⟩
    refine ⟨before, after, hrules, hocc, ?_⟩
    intro q hq hinf
    have h := hbefore q hq
    rw [Rule.occursIn_iff.mpr hinf] at h
    cases h
  · rintro ⟨before, after, hrules, hocc, hbefore⟩
    refine ⟨hocc, before, after, hrules, ?_⟩
    intro q hq
    rw [Bool.not_eq_true', Bool.eq_false_iff]
    intro h
    exact hbefore q hq (Rule.occursIn_iff.mp h)

theorem Rule.rewrites_apply {rule : Rule} {w : Word} (h : rule.pattern <:+: w) :
    rule.Rewrites w (rule.apply w) :=
  exists_leftmost_replaceFirst h

theorem Ruleset.IsFirst.occurs {rules : Ruleset} {w : Word} {rule : Rule}
    (h : rules.IsFirst w rule) : rule.pattern <:+: w := by
  obtain ⟨_, _, _, hocc, _⟩ := h
  exact hocc

theorem Ruleset.IsFirst.mem {rules : Ruleset} {w : Word} {rule : Rule}
    (h : rules.IsFirst w rule) : rule ∈ rules.rules := by
  obtain ⟨before, after, hrules, _, _⟩ := h
  rw [hrules]
  exact List.mem_append_right _ List.mem_cons_self

/-- The entry that a step adds comes from the word that it found. -/
theorem Entry.comesFrom_apply {rules : Ruleset} {w : Word} {rule : Rule}
    (h : rules.firstApplicable? w = some rule) :
    Entry.ComesFrom rules w ⟨rule.apply w, some rule⟩ := by
  have hfirst := Ruleset.firstApplicable?_eq_some_iff.mp h
  exact ⟨rule, rfl, hfirst, rule.rewrites_apply hfirst.occurs⟩

/-! ## Derivations -/

/-- A history that leads from a word to another, each entry coming from the one before. -/
structure IsDerivation (rules : Ruleset) (c : Word) (history : Array Entry) (w : Word) :
    Prop where
  first : history[0]? = some ⟨c, none⟩
  last : history.back?.map Entry.context = some w
  step : ∀ i, (hi : i + 1 < history.size) → (history[i + 1]).ComesFrom rules history[i].context

/-- A derivation is a trail whose links are the steps of a derivation. -/
theorem isDerivation_iff_isTrail {rules : Ruleset} {c w : Word} {history : Array Entry} :
    IsDerivation rules c history w ↔ IsTrail (Entry.ComesFrom rules) c history.toList w := by
  have hfirst : history.toList.head? = history[0]? := by
    rw [List.head?_eq_getElem?, Array.getElem?_toList]
  constructor
  · intro h
    refine ⟨hfirst.trans h.first, ?_, List.isChain_iff_getElem.mpr h.step⟩
    rw [Array.getLast?_toList]
    exact h.last
  · intro h
    refine ⟨hfirst.symm.trans h.first, ?_, List.isChain_iff_getElem.mp h.linked⟩
    rw [← Array.getLast?_toList]
    exact h.last

/-! ## Runners -/

namespace Runner

/-- A runner that has not started is on its first word; else its history is a
    derivation up to its context. In both cases the steps are the entries with a rule. -/
structure Traced (rules : Ruleset) (c : Word) (r : Runner) : Prop where
  derived : (r.history = #[] ∧ r.context = c) ∨ IsDerivation rules c r.history r.context
  counted : r.stepCount = r.history.countP (·.rule.isSome)

variable {rules : Ruleset} {c : Word} {r r' : Runner}

theorem traced_start (rules : Ruleset) (c : Word) : Traced rules c (start c) :=
  ⟨Or.inl ⟨rfl, rfl⟩, rfl⟩

/-- Being traced depends on the history and the context only. -/
theorem Traced.congr (h : Traced rules c r) (hhistory : r'.history = r.history)
    (hcontext : r'.context = r.context) : Traced rules c r' := by
  refine ⟨?_, ?_⟩
  · rw [hhistory, hcontext]
    exact h.derived
  · rw [stepCount, hhistory]
    exact h.counted

theorem Traced.trailed (h : Traced rules c r) : Trailed (Entry.ComesFrom rules) c r :=
  h.derived.imp_right isDerivation_iff_isTrail.mp

theorem Traced.counted_recordStart (h : Traced rules c r) :
    r.stepCount = r.recordStart.history.countP (·.rule.isSome) := by
  by_cases hempty : r.history = #[]
  · rw [history_recordStart_of_empty hempty, stepCount, hempty]
    rfl
  · rw [recordStart_of_nonempty hempty]
    exact h.counted

theorem Traced.step (hh : r.halted = false) (h : Traced rules c r) :
    Traced rules c (r.step rules) := by
  have htrail := h.trailed.step hh fun _ => Entry.comesFrom_apply
  refine ⟨htrail.imp_right isDerivation_iff_isTrail.mpr, ?_⟩
  have hcount := h.counted_recordStart
  cases hrule : rules.firstApplicable? r.context with
  | none =>
      rw [stepCount_step_of_none hh hrule, history_step_of_none hh hrule]
      exact hcount
  | some rule =>
      -- the entry added is one more that carries a rule
      rw [stepCount_step_of_some hh hrule, history_step_of_some hh hrule,
        Array.countP_push_of_pos rfl, hcount]

theorem closed_traced (rules : Ruleset) (c : Word) : Closed rules (Traced rules c) where
  step _ hh h := h.step hh
  stop _ _ h := h.congr history_halt context_halt
  spend _ _ _ _ h := h.congr (by rw [history_halt, history_log]) (by rw [context_halt, context_log])

/-- After every sequence of calls under one ruleset, there is no history and the
    context is the first word, or the history is a derivation from the first word to
    the context. The steps counted are the entries that carry a rule. -/
theorem history_is_derivation {calls : List Call}
    (h : Reaches (start c) (calls.map (rules, ·)) r) :
    ((r.history = #[] ∧ r.context = c) ∨ IsDerivation rules c r.history r.context) ∧
      r.stepCount = r.history.countP (·.rule.isSome) := by
  have htraced : Traced rules c r :=
    h.keeps_of_closed (closed_traced rules c) (traced_start rules c)
  exact ⟨htraced.derived, htraced.counted⟩

/-- A step, a run to the end and a stop, with `ab -> b` from `aab`. -/
theorem history_is_derivation_step_run_stop :
    ∃ rules r, Reaches (start ['a', 'a', 'b']) ([.step, .run, .stop].map (rules, ·)) r ∧
      r.stepCount = 2 ∧
      ((r.history = #[] ∧ r.context = ['a', 'a', 'b']) ∨
        IsDerivation rules ['a', 'a', 'b'] r.history r.context) ∧
      r.stepCount = r.history.countP (·.rule.isSome) := by
  let rules : Ruleset :=
    ⟨[⟨['a', 'b'], ['b'], false, List.all_eq_true.mp rfl, List.all_eq_true.mp rfl⟩]⟩
  have hrun : (((start ['a', 'a', 'b']).step rules).runWithin rules 2).map stepCount = some 2 := by
    decide +kernel
  obtain ⟨r, hr, hcount⟩ := Option.map_eq_some_iff.mp hrun
  have h : Reaches (start ['a', 'a', 'b']) ([.step, .run, .stop].map (rules, ·))
      (r.halt .stopped) :=
    ((Reaches.start.call .step).call (.run hr)).call .stop
  exact ⟨rules, r.halt .stopped, h, by rw [stepCount_halt, hcount], history_is_derivation h⟩

end Runner

end NormalAlgorithm
