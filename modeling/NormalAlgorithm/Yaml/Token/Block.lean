/-
  NormalAlgorithm.Yaml.Token.Block

  Block scalars: indented lines after a header. The header may say how deep the
  lines are indented, which is found out from the first of them otherwise, and
  what becomes of the line breaks at the end: one is kept, none, or all.

    * `blockScalar`: the text of a block scalar and the place after it.
-/

import NormalAlgorithm.Text.Digit
import NormalAlgorithm.Yaml.Cursor
import NormalAlgorithm.Yaml.Token

namespace NormalAlgorithm.Yaml

open NormalAlgorithm.Text

/-- What becomes of the line breaks at the end. -/
inductive Chomp where
  | clip
  | strip
  | keep
  deriving DecidableEq, Repr

/-- What a header says. -/
structure BlockHeader where
  chomp : Chomp
  increment : Option Nat
  deriving DecidableEq, Repr

/-- The end mark of a header. -/
def readChomp? (c : Cursor) : Option (Chomp × Cursor) :=
  match c.peek with
  | some '+' => some (.keep, c.advance)
  | some '-' => some (.strip, c.advance)
  | _ => none

/-- The depth in a header, a digit; zero is refused. -/
def readIncrement (c : Cursor) : Except Fault (Option Nat × Cursor) :=
  match c.peek.bind asciiDigit? with
  | some 0 => .error .invalid
  | some n => .ok (some n, c.advance)
  | none => .ok (none, c)

/-- The two parts of a header, in either order. -/
def readHeaderMarks (c : Cursor) : Except Fault (BlockHeader × Cursor) :=
  match readChomp? c with
  | some (chomp, c) => (readIncrement c).map fun (n, c) => (⟨chomp, n⟩, c)
  | none =>
    match readIncrement c with
    | .error fault => .error fault
    | .ok (n, c) =>
      match readChomp? c with
      | some (chomp, c) => .ok (⟨chomp, n⟩, c)
      | none => .ok (⟨.clip, n⟩, c)

/-- The rest of a line that holds nothing but blanks and a comment. -/
def restOfLine (c : Cursor) : Except Fault Cursor :=
  let c := c.skipBlanks.skipComment
  match c.lineBreak? with
  | some (_, c) => .ok c
  | none => if c.peek.isNone then .ok c else .error .invalid

/-- A header and the rest of its line. -/
def readHeader (c : Cursor) : Except Fault (BlockHeader × Cursor) :=
  match readHeaderMarks c with
  | .error fault => .error fault
  | .ok (header, c) =>
    if !endsItem c.peek then .error .invalid
    else (restOfLine c).map fun c => (header, c)

/-- The line breaks in front of the first line, and the deepest column that blanks
    reach there. -/
def leadingLines : Nat → Cursor → List Char → Nat → List Char × Nat × Cursor
  | 0, c, breaks, deepest => (breaks, deepest, c)
  | fuel + 1, c, breaks, deepest =>
    if c.peek = some ' ' then leadingLines fuel c.advance breaks (max deepest c.advance.column)
    else
      match c.lineBreak? with
      | some (b, c) => leadingLines fuel c (breaks ++ [b]) deepest
      | none => (breaks, deepest, c)

/-- The place after blanks up to a column. -/
def skipIndent (indent : Nat) (c : Cursor) : Cursor :=
  c.skip (min (indent - c.column) (c.takeWhile (· == ' ')).length)

/-- The line breaks between two lines, and the place of the next line's text. -/
def blockBreaks (indent : Nat) : Nat → Cursor → List Char → List Char × Cursor
  | 0, c, breaks => (breaks, c)
  | fuel + 1, c, breaks =>
    let c := skipIndent indent c
    match c.lineBreak? with
    | some (b, c) => blockBreaks indent fuel c (breaks ++ [b])
    | none => (breaks, c)

/-- Whether a line of the scalar starts here. -/
def atLine (indent : Nat) (c : Cursor) : Bool := decide (c.column = indent) && c.peek.isSome

/-- What stands between two lines: a folded scalar joins lines by a blank unless one
    of them is indented further or there are breaks between them. -/
def lineJoin (folded : Bool) (last : List Char) (deeper : Bool) (next : Cursor)
    (breaks : List Char) : List Char :=
  if folded && last = ['\n'] && !deeper && !next.peek.any isGap then
    if breaks.isEmpty then [' '] else []
  else last

/-- The lines from here on, given the text before them in reverse. The result is the text
    without its last line break, that break, the breaks after it and the place after
    them. -/
def blockLines (folded : Bool) (indent : Nat) :
    Nat → Cursor → List Char → List Char → List Char → List Char × List Char × List Char × Cursor
  | 0, c, acc, last, breaks => (acc.reverse, last, breaks, c)
  | fuel + 1, c, acc, last, breaks =>
    if !atLine indent c then (acc.reverse, last, breaks, c)
    else
      let deeper := c.peek.any isGap
      let line := c.takeWhile (!isBreak ·)
      let acc := (breaks ++ line).reverse ++ acc
      let c := c.skip line.length
      let (last, c) := match c.lineBreak? with
        | some (b, c) => ([b], c)
        | none => ([], c)
      let (breaks, c) := blockBreaks indent c.room c []
      if atLine indent c then
        let join := lineJoin folded last deeper c breaks
        blockLines folded indent fuel c (join.reverse ++ acc) last breaks
      else (acc.reverse, last, breaks, c)

/-- The end of a scalar. -/
def Chomp.ending (last breaks : List Char) : Chomp → List Char
  | .clip => last
  | .strip => []
  | .keep => last ++ breaks

/-- A block scalar from its mark on, inside a block whose items have at least the
    column `least`. -/
def blockScalar (folded : Bool) (least : Nat) (c : Cursor) : Except Fault (List Char × Cursor) :=
  match readHeader c.advance with
  | .error fault => .error fault
  | .ok (header, c) =>
    let (indent, breaks, c) := match header.increment with
      | some n =>
        let indent := least + n - 1
        let (breaks, c) := blockBreaks indent c.room c []
        (indent, breaks, c)
      | none =>
        let (breaks, deepest, c) := leadingLines c.room c [] 0
        (max least deepest, breaks, c)
    let (text, last, breaks, c) := blockLines folded indent c.room c [] [] breaks
    .ok (text ++ header.chomp.ending last breaks, c)

end NormalAlgorithm.Yaml
