/-
  NormalAlgorithm.Statement

  Statements are rules in text: a left side, an arrow `->` or `=>`, an optional
  `.` that makes the rule terminating, and a right side, with blanks anywhere
  between the parts but not inside a side. A side may carry an empty word mark at
  either end. Sides may themselves contain arrows; then the longest left side
  that leaves a complete right side is taken.

    * `Statement.read?`: the parts of a statement (the match of `STATEMENT_REGEX`).
    * `Statement.compile`: the rule a statement stands for (`compile_rule`).
    * `Statement.compileValue`: the same for a value of any kind.
-/

import NormalAlgorithm.Rule.Basic

namespace NormalAlgorithm

open NormalAlgorithm.Text

/-- What is wrong with a statement (`MalformedStatement`). -/
inductive StatementFault where
  /-- It is not text, or text of no statement's form. -/
  | unreadable (statement : Value)
  /-- Nothing stands before the arrow. -/
  | noLeft (statement : Value)
  /-- Nothing stands after the arrow. -/
  | noRight (statement : Value)
  /-- The left side is two empty word marks. -/
  | twoMarksLeft (statement : Value)
  /-- The right side is two empty word marks. -/
  | twoMarksRight (statement : Value)
  /-- A side cannot be stored in a rule. -/
  | side (fault : RuleFault)
  deriving Repr

/-- The text of a fault. -/
def StatementFault.message : StatementFault → String
  | .unreadable v => "Invalid statement: " ++ String.ofList v.literal
  | .noLeft v => "Invalid statement, there is no LHS: " ++ String.ofList v.literal
  | .noRight v => "Invalid statement, there is no RHS: " ++ String.ofList v.literal
  | .twoMarksLeft v =>
    "Invalid statement, LHS contains two empty word markers: " ++ String.ofList v.literal
  | .twoMarksRight v =>
    "Invalid statement, RHS contains two empty word markers: " ++ String.ofList v.literal
  | .side fault => fault.message

/-- The values that the text of a fault is written with. -/
def StatementFault.values : StatementFault → List Value
  | .unreadable v | .noLeft v | .noRight v | .twoMarksLeft v | .twoMarksRight v => [v]
  | .side _ => []

namespace Statement

/-- The parts of a statement: its sides, marks included, and whether the closing
    mark stands after the arrow. -/
structure Reading where
  left : List Char
  closing : Bool
  right : List Char
  deriving DecidableEq, Repr

/-- The mark at the front of a text, if it is there. -/
def leadingMark : List Char → List Char
  | c :: _ => if c = emptyMark then [c] else []
  | [] => []

/-- The longest front of a text that can be a side: an optional mark, plain
    characters, an optional mark. -/
def sideRun (s : List Char) : List Char :=
  let lead := leadingMark s
  let rest := s.drop lead.length
  lead ++ rest.takeWhile isPlain ++ leadingMark (rest.dropWhile isPlain)

/-- Whether a text is a side as a whole. -/
def isSide (s : List Char) : Bool := sideRun s = s

/-- The text after an arrow. -/
def dropArrow? : List Char → Option (List Char)
  | '-' :: '>' :: rest => some rest
  | '=' :: '>' :: rest => some rest
  | _ => none

/-- The text after an arrow as closing mark and right side. -/
def readRight? (s : List Char) : Option (Bool × List Char) :=
  let s := dropBlanks s
  let closing := s.head? == some closingMark
  let right := trim (if closing then s.tail else s)
  if isSide right then some (closing, right) else none

/-- The reading whose left side is the first `n` characters. -/
def readAt? (s : List Char) (n : Nat) : Option Reading :=
  match dropArrow? (dropBlanks (s.drop n)) with
  | none => none
  | some rest =>
    match readRight? rest with
    | none => none
    | some (closing, right) => some ⟨s.take n, closing, right⟩

/-- The reading with the longest left side of at most `n` characters. -/
def readUpTo? (s : List Char) : Nat → Option Reading
  | 0 => readAt? s 0
  | n + 1 =>
    match readAt? s (n + 1) with
    | some reading => some reading
    | none => readUpTo? s n

/-- The parts of a statement, the left side as long as possible (`STATEMENT_REGEX`). -/
def read? (s : List Char) : Option Reading :=
  let s := dropBlanks s
  readUpTo? s (sideRun s).length

/-- A side without its marks (`_clean`). -/
def clean (side : List Char) : Word := side.filter (· != emptyMark)

/-- The rule a statement stands for (`compile_rule`). -/
def compile (s : List Char) : Except StatementFault Rule :=
  match read? s with
  | none => .error (.unreadable (.text s))
  | some ⟨left, closing, right⟩ =>
    if left.isEmpty then .error (.noLeft (.text s))
    else if right.isEmpty then .error (.noRight (.text s))
    else if left = [emptyMark, emptyMark] then .error (.twoMarksLeft (.text s))
    else if right = [emptyMark, emptyMark] then .error (.twoMarksRight (.text s))
    else
      match Rule.ofWords (clean left) (clean right) closing with
      | .ok rule => .ok rule
      | .error fault => .error (.side fault)

/-- The rule a value stands for; only text can be a statement (`compile_rule`). -/
def compileValue : Value → Except StatementFault Rule
  | .text s => compile s
  | v => .error (.unreadable v)

end Statement

end NormalAlgorithm
