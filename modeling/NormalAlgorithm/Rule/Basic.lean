/-
  NormalAlgorithm.Rule.Basic

  Substitution rules over words. A rule replaces the leftmost occurrence of its
  pattern; a terminating rule also ends the run. Sides hold no blanks and neither
  of the reserved characters `!` (the empty word in statements) and `.` (the mark
  of a terminating rule), and the type carries that.

    * `Rule.ofWords`, `Rule.ofValues`: build a rule, or say what is wrong with a
      side; the pattern is looked at first.
    * `occurs`, `replaceFirst`: occurrences of one word in another, and the
      replacement of the leftmost.
    * `Rule.occursIn`, `Rule.apply`: whether a rule applies, and its effect (`Rule.matches`,
      `Rule.apply`).
    * `Rule.render`: the rule in statement form (`str`).
-/

import NormalAlgorithm.Text.Blank
import NormalAlgorithm.Value.Literal

namespace NormalAlgorithm

open NormalAlgorithm.Text

/-- A word over the characters. -/
abbrev Word := List Char

/-- The mark that stands for the empty word (`EMPTY_WORD`). -/
def emptyMark : Char := '!'

/-- The mark after an arrow that makes a rule terminating. -/
def closingMark : Char := '.'

/-- Whether a character may stand in a side of a rule. -/
def isPlain (c : Char) : Bool := !isBlank c && c != emptyMark && c != closingMark

/-- The two sides of a rule. -/
inductive Side where
  | pattern
  | replacement
  deriving DecidableEq, Repr

/-- The name of a side in messages. -/
def Side.name : Side → String
  | .pattern => "pattern"
  | .replacement => "replacement"

/-- What is wrong with a side of a rule. -/
inductive RuleFault where
  /-- The side is a value of another kind than text. -/
  | notText (side : Side) (kind : String)
  /-- The side is nothing but two empty word marks. -/
  | twoMarks (side : Side)
  /-- The side holds a blank. -/
  | blank (side : Side) (word : Word)
  /-- The side holds a reserved character. -/
  | reserved (side : Side) (mark : Char) (word : Word)
  deriving DecidableEq, Repr

/-- The text of a fault. -/
def RuleFault.message : RuleFault → String
  | .notText side kind => "Rule " ++ side.name ++ " must be a string, got " ++ kind
  | .twoMarks side => "Rule " ++ side.name ++ " contains two empty word markers"
  | .blank side w =>
    "Rule " ++ side.name ++ " must not contain whitespace: " ++ String.ofList (quoted w)
  | .reserved side c w =>
    "Rule " ++ side.name ++ " must not contain " ++ String.ofList (quoted [c]) ++ ": " ++
      String.ofList (quoted w)

/-- A substitution rule. -/
structure Rule where
  pattern : Word
  replacement : Word
  terminating : Bool
  pattern_plain : ∀ c ∈ pattern, isPlain c = true
  replacement_plain : ∀ c ∈ replacement, isPlain c = true
  deriving DecidableEq

namespace Rule

/-! ## Building rules -/

/-- What is wrong with one character of a side. -/
def charFault? (side : Side) (w : Word) (c : Char) : Option RuleFault :=
  if isBlank c then some (.blank side w)
  else if c = emptyMark || c = closingMark then some (.reserved side c w)
  else none

/-- What is wrong with a side, the first bad character deciding (`_validate_component`). -/
def sideFault? (side : Side) (w : Word) : Option RuleFault :=
  if w = [emptyMark, emptyMark] then some (.twoMarks side) else w.findSome? (charFault? side w)

/-- A side without a fault holds plain characters only. -/
theorem isPlain_of_sideFault?_eq_none {side : Side} {w : Word} (h : sideFault? side w = none) :
    ∀ c ∈ w, isPlain c = true := by
  intro c hc
  unfold sideFault? at h
  split at h
  · simp at h
  · have hnone := List.findSome?_eq_none_iff.mp h c hc
    unfold charFault? at hnone
    split at hnone
    · simp at hnone
    · split at hnone
      · simp at hnone
      · rename_i hblank hmark
        simp only [Bool.or_eq_true, decide_eq_true_eq, not_or] at hmark
        simp [isPlain, hblank, hmark.1, hmark.2]

/-- A rule from its two sides (`Rule`). -/
def ofWords (pattern replacement : Word) (terminating : Bool) : Except RuleFault Rule :=
  match hp : sideFault? .pattern pattern with
  | some fault => .error fault
  | none =>
    match hr : sideFault? .replacement replacement with
    | some fault => .error fault
    | none =>
      .ok ⟨pattern, replacement, terminating, isPlain_of_sideFault?_eq_none hp,
        isPlain_of_sideFault?_eq_none hr⟩

/-- A side given as a value of any kind. -/
def sideOfValue (side : Side) : Value → Except RuleFault Word
  | .text w =>
    match sideFault? side w with
    | some fault => .error fault
    | none => .ok w
  | v => .error (.notText side v.kindName)

/-- A rule from values of any kind; the last is read as true or false. -/
def ofValues (pattern replacement terminating : Value) : Except RuleFault Rule := do
  let p ← sideOfValue .pattern pattern
  let r ← sideOfValue .replacement replacement
  ofWords p r terminating.isTrue

end Rule

/-! ## Applying rules -/

/-- Whether a pattern occurs in a word. The empty pattern occurs in every word. -/
def occurs (pattern : Word) : Word → Bool
  | [] => pattern.isEmpty
  | c :: rest => pattern.isPrefixOf (c :: rest) || occurs pattern rest

/-- The word with the leftmost occurrence of a pattern replaced; a word without one
    stays. -/
def replaceFirst (pattern replacement : Word) : Word → Word
  | [] => if pattern.isEmpty then replacement else []
  | c :: rest =>
    if pattern.isPrefixOf (c :: rest) then replacement ++ (c :: rest).drop pattern.length
    else c :: replaceFirst pattern replacement rest

namespace Rule

/-- Whether the pattern occurs in a word (`matches`). -/
def occursIn (r : Rule) (w : Word) : Bool := occurs r.pattern w

/-- The word with the leftmost occurrence of the pattern replaced; a word without
    one stays (`apply`). -/
def apply (r : Rule) (w : Word) : Word := replaceFirst r.pattern r.replacement w

/-! ## Text -/

/-- A side in statement form: the empty word is written as its mark. -/
def showSide (w : Word) : List Char := if w.isEmpty then [emptyMark] else w

/-- The arrow of a rule in statement form. -/
def arrow (terminating : Bool) : List Char :=
  if terminating then ['-', '>', closingMark] else ['-', '>']

/-- The rule in statement form (`str`). -/
def render (r : Rule) : List Char :=
  showSide r.pattern ++ [' '] ++ arrow r.terminating ++ [' '] ++ showSide r.replacement

/-- The rule in statement form, as a string. -/
def text (r : Rule) : String := String.ofList r.render

/-- The rule with its fields named (`repr`). -/
def literal (r : Rule) : List Char :=
  "Rule(pattern=".toList ++ quoted r.pattern ++ ", replacement=".toList ++ quoted r.replacement ++
    ", terminating=".toList ++ (Value.bool r.terminating).literal ++ [')']

end Rule

end NormalAlgorithm
