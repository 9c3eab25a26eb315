/-
  NormalAlgorithm.Proofs.Runner.Trail

  Histories as trails of words.

  A trail starts at a word, and each further entry is linked to the word before it
  (`IsTrail`). What a link is stays open: the rule of the entry, or also the ruleset
  that it was found in. If every entry that a step adds is linked to the word that the
  step found, the history of a runner is a trail after every sequence of calls:
  `closed_trailed`.

  A step first records the word it starts from, after which there is a trail in any
  case (`Trailed.recordStart`), and then may add one entry to it (`IsTrail.concat`).
  Stopping touches neither.
-/

import Mathlib.Data.List.Chain
import NormalAlgorithm.Proofs.Runner.Calls

namespace NormalAlgorithm

/-- Entries that lead from a word to another, each linked to the word before it. -/
structure IsTrail (link : Word → Entry → Prop) (c : Word) (entries : List Entry) (w : Word) :
    Prop where
  first : entries.head? = some ⟨c, none⟩
  last : entries.getLast?.map Entry.context = some w
  linked : entries.IsChain fun previous e => link previous.context e

variable {link : Word → Entry → Prop} {c w : Word} {entries : List Entry}

theorem isTrail_singleton (link : Word → Entry → Prop) (c : Word) :
    IsTrail link c [⟨c, none⟩] c :=
  ⟨rfl, rfl, List.isChain_singleton _⟩

theorem IsTrail.ne_nil (h : IsTrail link c entries w) : entries ≠ [] := by
  rintro rfl
  cases h.first

/-- A trail goes on with an entry that is linked to its last word. -/
theorem IsTrail.concat {e : Entry} (h : IsTrail link c entries w) (he : link w e) :
    IsTrail link c (entries ++ [e]) e.context := by
  refine ⟨?_, ?_, ?_⟩
  · rw [List.head?_append_of_ne_nil _ h.ne_nil]
    exact h.first
  · rw [List.getLast?_concat]
    rfl
  · rw [List.isChain_append]
    refine ⟨h.linked, List.isChain_singleton _, ?_⟩
    intro previous hprevious y hy
    -- the only new pair is the last entry so far and `e`
    cases hy
    have hlast := h.last
    rw [hprevious, Option.map_some, Option.some.injEq] at hlast
    rwa [hlast]

namespace Runner

variable {rules : Ruleset} {r r' : Runner}

/-- A runner that has not started is on its first word; else its history is a trail up
    to its context. -/
def Trailed (link : Word → Entry → Prop) (c : Word) (r : Runner) : Prop :=
  (r.history = #[] ∧ r.context = c) ∨ IsTrail link c r.history.toList r.context

theorem trailed_start (link : Word → Entry → Prop) (c : Word) : Trailed link c (start c) :=
  Or.inl ⟨rfl, rfl⟩

/-- Being trailed depends on the history and the context only. -/
theorem Trailed.congr (h : Trailed link c r) (hhistory : r'.history = r.history)
    (hcontext : r'.context = r.context) : Trailed link c r' := by
  rw [Trailed, hhistory, hcontext]
  exact h

/-- Once the start is recorded, there is a trail. -/
theorem Trailed.recordStart (h : Trailed link c r) :
    IsTrail link c r.recordStart.history.toList r.context := by
  rcases h with ⟨hempty, hc⟩ | htrail
  · rw [history_recordStart_of_empty hempty, hc]
    exact isTrail_singleton link c
  · have hne : r.history ≠ #[] := by
      intro hempty
      exact htrail.ne_nil (by rw [hempty])
    rwa [recordStart_of_nonempty hne]

theorem Trailed.step (hh : r.halted = false) (h : Trailed link c r)
    (hlink : ∀ rule, rules.firstApplicable? r.context = some rule →
      link r.context ⟨rule.apply r.context, some rule⟩) :
    Trailed link c (r.step rules) := by
  right
  cases hrule : rules.firstApplicable? r.context with
  | none =>
      rw [history_step_of_none hh hrule, context_step_of_none hh hrule]
      exact h.recordStart
  | some rule =>
      rw [history_step_of_some hh hrule, context_step_of_some hh hrule, Array.toList_push]
      exact h.recordStart.concat (hlink rule hrule)

theorem closed_trailed (c : Word) (hlink : ∀ w rule, rules.firstApplicable? w = some rule →
    link w ⟨rule.apply w, some rule⟩) : Closed rules (Trailed link c) where
  step r hh h := h.step hh (hlink r.context)
  stop _ _ h := h.congr history_halt context_halt
  spend _ _ _ _ h := h.congr (by rw [history_halt, history_log]) (by rw [context_halt, context_log])

end Runner

end NormalAlgorithm
