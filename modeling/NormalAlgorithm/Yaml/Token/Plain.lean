/-
  NormalAlgorithm.Yaml.Token.Plain

  Plain scalars: runs of characters with gaps between them. A gap within a line
  stays as it is; a gap with one line break folds to a blank, and of more breaks
  all but the first stay.

    * `plainRun`: the longest run without a gap.
    * `plainScalar`: a whole plain scalar, the place after it, and whether the
      text after it starts on a new line.
-/

import NormalAlgorithm.Yaml.Cursor

namespace NormalAlgorithm.Yaml

/-- The characters that stand for themselves only outside flow collections. -/
def isFlowMark (c : Char) : Bool :=
  c = ',' || c = '[' || c = ']' || c = '\x7b' || c = '\x7d'

/-- Whether a character ends a plain run, given the text after it. -/
def endsPlain (inFlow : Bool) (c : Char) (after : List Char) : Bool :=
  isGap c || isBreak c || (inFlow && (isFlowMark c || c = '?')) ||
    (c = ':' && (endsWord after.head? || (inFlow && after.head?.any isFlowMark)))

/-- The longest plain run at the front of a text. -/
def plainRun (inFlow : Bool) : List Char → List Char
  | [] => []
  | c :: rest => if endsPlain inFlow c rest then [] else c :: plainRun inFlow rest

/-- What line breaks in a scalar stand for, the first of them given apart. -/
def foldBreaks (first : Char) (more : List Char) : List Char :=
  (if first ≠ '\n' then [first] else if more.isEmpty then [' '] else []) ++ more

/-- The line breaks from here on, with the blanks around them; nothing if a document
    mark follows one. -/
def plainBreaks : Nat → Cursor → List Char → Option (List Char) × Cursor
  | 0, c, breaks => (some breaks, c)
  | fuel + 1, c, breaks =>
    if c.peek = some ' ' then plainBreaks fuel c.advance breaks
    else
      match c.lineBreak? with
      | none => (some breaks, c)
      | some (b, c) => if c.atAnyMark then (none, c) else plainBreaks fuel c (breaks ++ [b])

/-- A gap in a plain scalar: what it stands for, whether it crosses a line break,
    and the place after it. The scalar ends if the gap stands for nothing. -/
def plainGap (c : Cursor) : List Char × Bool × Cursor :=
  let blanks := c.takeWhile (· == ' ')
  let c := c.skip blanks.length
  match c.lineBreak? with
  | none => (blanks, false, c)
  | some (b, c) =>
    if c.atAnyMark then ([], true, c)
    else
      match plainBreaks c.room c [] with
      | (some breaks, c) => (foldBreaks b breaks, true, c)
      | (none, c) => ([], true, c)

/-- The rest of a plain scalar from the gap on that was read last, given the text before
    it in reverse. -/
def plainRuns (inFlow : Bool) (indent : Nat) :
    Nat → Cursor → List Char → List Char → Bool → List Char × Bool × Cursor
  | 0, c, acc, _, crossed => (acc.reverse, crossed, c)
  | fuel + 1, c, acc, gap, crossed =>
    let run := plainRun inFlow c.rest
    if c.peek = some '#' || run.isEmpty then (acc.reverse, crossed, c)
    else
      let acc := (gap ++ run).reverse ++ acc
      let (gap, crossed, c) := plainGap (c.skip run.length)
      if gap.isEmpty || c.peek = some '#' || (!inFlow && decide (c.column < indent)) then
        (acc.reverse, crossed, c)
      else plainRuns inFlow indent fuel c acc gap crossed

/-- A plain scalar whose further lines are indented to a column at least. -/
def plainScalar (inFlow : Bool) (indent : Nat) (c : Cursor) : List Char × Bool × Cursor :=
  plainRuns inFlow indent c.room c [] [] false

end NormalAlgorithm.Yaml
