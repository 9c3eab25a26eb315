/-
  NormalAlgorithm.Ruleset

  Ordered rules, edited by position. Positions are integers without bounds: those
  below zero mean the front and those past the end mean the back, except where a
  rule has to be there already.

    * `Ruleset.get?`, `Ruleset.set?`: the rule at a position, and its exchange
      (`get_statement`, `set_statement`).
    * `Ruleset.add`, `Ruleset.remove`: insertion and removal at a clamped
      position; no position means the back (`add_statement`, `remove_statement`).
    * `Ruleset.firstApplicable?`: the rule that a run applies to a word (`_find_rule`).
-/

import NormalAlgorithm.Listing

namespace NormalAlgorithm

open NormalAlgorithm.Text

/-- Rules in the order in which they are tried (`Ruleset`). -/
structure Ruleset where
  rules : List Rule
  deriving DecidableEq

namespace Ruleset

/-- The ruleset without rules. -/
def empty : Ruleset := ⟨[]⟩

/-- The number of rules. -/
def size (s : Ruleset) : Nat := s.rules.length

/-- Whether there is a rule (`has_statements`). -/
def hasRules (s : Ruleset) : Bool := !s.rules.isEmpty

/-- The ruleset of a listing (`from_text`). -/
def ofListing (text : List Char) : Except ListingFault Ruleset :=
  (Listing.parse text).map (⟨·⟩)

/-- The rule at a position, if there is one (`get_statement`). -/
def get? (s : Ruleset) : Int → Option Rule
  | .ofNat n => s.rules[n]?
  | .negSucc _ => none

/-- Exchange the rule at a position: the rule that was there and the new ruleset,
    or nothing if there was no rule (`set_statement`). -/
def set? (s : Ruleset) (rule : Rule) : Int → Option (Rule × Ruleset)
  | .ofNat n =>
    match s.rules[n]? with
    | some previous => some (previous, ⟨s.rules.set n rule⟩)
    | none => none
  | .negSucc _ => none

/-- Insert a rule before the one at a position; below zero at the front, past the
    end or without a position at the back (`add_statement`). -/
def add (s : Ruleset) (rule : Rule) : Option Int → Ruleset
  | none => ⟨s.rules ++ [rule]⟩
  | some (.ofNat n) => ⟨s.rules.take n ++ rule :: s.rules.drop n⟩
  | some (.negSucc _) => ⟨rule :: s.rules⟩

/-- Remove the rule at a position; below zero the first, past the end or without
    a position the last. An empty ruleset stays as it is (`remove_statement`). -/
def remove (s : Ruleset) (position : Option Int) : Option Rule × Ruleset :=
  let last := s.rules.length - 1
  let n := match position with
    | none => last
    | some (.ofNat n) => min n last
    | some (.negSucc _) => 0
  (s.rules[n]?, ⟨s.rules.eraseIdx n⟩)

/-- The first rule, in order, whose pattern occurs in a word (`_find_rule`). -/
def firstApplicable? (s : Ruleset) (w : Word) : Option Rule := s.rules.find? (·.occursIn w)

/-- The rules as a listing (`str`). -/
def render (s : Ruleset) : List Char := Listing.render s.rules

/-- The ruleset with its rules' fields named (`repr`). -/
def literal (s : Ruleset) : List Char :=
  "Ruleset([".toList ++ joinWith [',', ' '] (s.rules.map Rule.literal) ++ [']', ')']

end Ruleset

end NormalAlgorithm
