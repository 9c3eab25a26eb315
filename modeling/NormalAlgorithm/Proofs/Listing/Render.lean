/-
  NormalAlgorithm.Proofs.Listing.Render

  Listings of rulesets, read back.

    * `Ruleset.ofListing_render_eq_filter`: the rules come back in their order, but for
      those whose pattern starts with `#`, whose lines are taken for comments.

  The statement form of a rule holds no line boundary and neither starts nor ends with a
  blank, so it is found again as a line and trimming leaves it as it is.
-/

import NormalAlgorithm.Proofs.Statement.Compile
import NormalAlgorithm.Proofs.Text.Line
import NormalAlgorithm.Ruleset

namespace NormalAlgorithm

open NormalAlgorithm.Text

/-! ## Statement forms as lines -/

namespace Rule

theorem showSide_ne_nil (w : Word) : showSide w ≠ [] := (Statement.spells_showSide w).ne_nil

theorem noBlank_showSide {w : Word} (hw : ∀ c ∈ w, isPlain c = true) : NoBlank (showSide w) :=
  ((Statement.spells_showSide w).isSide hw).noBlank

theorem noBreak_arrow (terminating : Bool) : NoBreak ([' '] ++ arrow terminating ++ [' ']) := by
  cases terminating <;> decide

/-- The statement form as the two sides and what stands between them. -/
theorem render_eq (r : Rule) :
    r.render =
      showSide r.pattern ++ ([' '] ++ arrow r.terminating ++ [' ']) ++ showSide r.replacement := by
  simp only [render, List.append_assoc]

theorem render_ne_nil (r : Rule) : r.render ≠ [] := by
  rw [render_eq, List.append_assoc]
  exact List.append_ne_nil_of_left_ne_nil (showSide_ne_nil r.pattern) _

theorem noBreak_render (r : Rule) : NoBreak r.render := by
  rw [render_eq]
  exact ((noBlank_showSide r.pattern_plain).noBreak.append (noBreak_arrow r.terminating)).append
    (noBlank_showSide r.replacement_plain).noBreak

theorem trim_render (r : Rule) : trim r.render = r.render := by
  rw [render_eq]
  exact trim_of_noBlank_ends (noBlank_showSide r.pattern_plain) (showSide_ne_nil r.pattern)
    (noBlank_showSide r.replacement_plain) (showSide_ne_nil r.replacement)

/-- A rule is taken for a comment if its pattern starts like one. The empty pattern does
    not, since it is written as a mark. -/
theorem isSkipped_render (r : Rule) :
    Listing.isSkipped r.render = (r.pattern.head? == some '#') := by
  rw [Listing.isSkipped, render_eq]
  cases r.pattern with
  | nil => rfl
  | cons c rest => rfl

end Rule

/-! ## Listings -/

theorem Listing.render_eq_joinWith (rules : List Rule) :
    Listing.render rules = joinWith ['\n'] (rules.map Rule.render) := by
  induction rules with
  | nil => rfl
  | cons r rest ih =>
      cases rest with
      | nil => rfl
      | cons next rest =>
          have hjoin : joinWith ['\n'] ((r :: next :: rest).map Rule.render) =
              r.render ++ ['\n'] ++ joinWith ['\n'] ((next :: rest).map Rule.render) := rfl
          rw [hjoin, ← ih, List.append_assoc]
          rfl

/-- The lines of a listing are the statement forms of its rules. -/
theorem Listing.splitLines_render (rules : List Rule) :
    splitLines (Listing.render rules) = rules.map Rule.render := by
  rw [render_eq_joinWith, splitLines_joinWith]
  intro line hline
  obtain ⟨r, _, rfl⟩ := List.mem_map.mp hline
  exact ⟨r.noBreak_render, r.render_ne_nil⟩

/-- The lines of rules give the rules again that are not taken for comments, whatever
    the number of the first line. -/
theorem Listing.parseLines_render (n : Nat) (rules : List Rule) :
    parseLines n (rules.map Rule.render) =
      .ok (rules.filter fun r => r.pattern.head? != some '#') := by
  induction rules generalizing n with
  | nil => rfl
  | cons r rest ih =>
      rw [List.map_cons, parseLines, List.filter_cons]
      simp only [r.trim_render, r.isSkipped_render]
      cases hhash : r.pattern.head? == some '#' with
      | true =>
          rw [if_pos rfl, ih, bne, hhash]
          rfl
      | false =>
          rw [bne, hhash]
          simp only [Statement.compile_render, ih, Bool.false_eq_true, if_false, Bool.not_false,
            if_true]

/-- A ruleset that is written as a listing and read back has lost the rules whose pattern
    starts with `#`, and no others. So it comes back as it was exactly if it has no such
    rule. There are such rules: a mark before the `#` makes a statement of one. -/
theorem Ruleset.ofListing_render_eq_filter (s : Ruleset) :
    ofListing s.render = .ok ⟨s.rules.filter fun r => r.pattern.head? != some '#'⟩ ∧
      (ofListing s.render = .ok s ↔ ∀ r ∈ s.rules, r.pattern.head? ≠ some '#') ∧
      ∃ r, Statement.compile "!#a -> b".toList = .ok r ∧ r.pattern.head? = some '#' := by
  have hread : ofListing s.render =
      .ok ⟨s.rules.filter fun r => r.pattern.head? != some '#'⟩ := by
    rw [ofListing, render, Listing.parse, Listing.splitLines_render, Listing.parseLines_render]
    rfl
  refine ⟨hread, ?_, ⟨_, rfl, rfl⟩⟩
  rw [hread, Except.ok.injEq]
  constructor
  · intro h r hr
    have hkept := List.filter_eq_self.mp (congrArg Ruleset.rules h) r hr
    exact bne_iff_ne.mp hkept
  · intro h
    exact congrArg Ruleset.mk (List.filter_eq_self.mpr fun r hr => bne_iff_ne.mpr (h r hr))

end NormalAlgorithm
