/-
  NormalAlgorithm.Yaml.Cursor

  A place in a YAML text: what is left of the text, the line, the column and the
  number of characters before it, and the length of the whole text. The next
  character is `none` at the end.

    * `Cursor.advance`, `Cursor.skip`, `Cursor.skipWhile`: move on.
    * `Cursor.lineBreak?`: move over a line break, which reads as a line feed
      unless it is one of the two separators of Unicode.
    * `endsItem`, `endsWord`: what may follow a word.
    * `isAllowed`: the characters that a text may hold.
-/

namespace NormalAlgorithm.Yaml

/-! ## Characters -/

/-- The line break characters. -/
def isBreak (c : Char) : Bool :=
  c = '\r' || c = '\n' || c = '\u0085' || c = '\u2028' || c = '\u2029'

/-- A blank or a tab. -/
def isGap (c : Char) : Bool := c = ' ' || c = '\t'

/-- Whether the next character ends a word that tabs do not end. -/
def endsItem : Option Char → Bool
  | none => true
  | some c => c = ' ' || isBreak c

/-- Whether the next character ends a word. -/
def endsWord : Option Char → Bool
  | none => true
  | some c => isGap c || isBreak c

/-- Letters, digits, hyphens and underscores, as they make up names. -/
def isNameChar (c : Char) : Bool := c.isAlphanum || c = '-' || c = '_'

/-- The characters that a text may hold. -/
def isAllowed (c : Char) : Bool :=
  let n := c.toNat
  n = 0x09 || n = 0x0A || n = 0x0D || (0x20 ≤ n && n ≤ 0x7E) || n = 0x85 ||
    (0xA0 ≤ n && n ≤ 0xFFFD) || 0x10000 ≤ n

/-! ## Places -/

/-- A place in a text. -/
structure Cursor where
  rest : List Char
  line : Nat
  column : Nat
  index : Nat
  total : Nat
  deriving Repr

namespace Cursor

/-- The start of a text. -/
def start (text : List Char) : Cursor := ⟨text, 0, 0, 0, text.length⟩

/-- More than the number of characters that are left, so enough for any loop over
    them. -/
def room (c : Cursor) : Nat := c.total + 1

/-- The next character. -/
def peek (c : Cursor) : Option Char := c.rest.head?

/-- The character some places further on. -/
def peekAt (c : Cursor) (n : Nat) : Option Char := c.rest[n]?

/-- Whether a character begins a new line, given the text after it. CR LF counts
    once, at the line feed. -/
def startsLine (ch : Char) (after : List Char) : Bool :=
  ch = '\n' || ch = '\u0085' || ch = '\u2028' || ch = '\u2029' ||
    (ch = '\r' && after.head? != some '\n')

/-- The place after the next character. A byte order mark takes no column. -/
def advance (c : Cursor) : Cursor :=
  match c.rest with
  | [] => c
  | ch :: rest =>
    let column := if startsLine ch rest then 0 else if ch = '\uFEFF' then c.column else c.column + 1
    let line := if startsLine ch rest then c.line + 1 else c.line
    { c with rest := rest, line := line, column := column, index := c.index + 1 }

/-- The place some characters further on. -/
def skip (c : Cursor) : Nat → Cursor
  | 0 => c
  | n + 1 => c.advance.skip n

/-- The characters from here on that have a property. -/
def takeWhile (c : Cursor) (p : Char → Bool) : List Char := c.rest.takeWhile p

/-- The place after the characters that have a property. -/
def skipWhile (c : Cursor) (p : Char → Bool) : Cursor := c.skip (c.takeWhile p).length

/-- The place after blanks. -/
def skipBlanks (c : Cursor) : Cursor := c.skipWhile (· == ' ')

/-- The place after a comment, if one starts here. -/
def skipComment (c : Cursor) : Cursor :=
  if c.peek = some '#' then c.skipWhile (!isBreak ·) else c

/-- A line break and the place after it. -/
def lineBreak? (c : Cursor) : Option (Char × Cursor) :=
  match c.rest with
  | '\r' :: '\n' :: _ => some ('\n', c.skip 2)
  | ch :: _ =>
    if ch = '\r' || ch = '\n' || ch = '\u0085' then some ('\n', c.advance)
    else if ch = '\u2028' || ch = '\u2029' then some (ch, c.advance)
    else none
  | [] => none

/-- Whether a document mark, three times the character, stands here as a word. -/
def atMark (c : Cursor) (mark : Char) : Bool :=
  match c.rest with
  | a :: b :: d :: rest => a = mark && b = mark && d = mark && endsWord rest.head?
  | _ => false

/-- Whether either document mark stands here. -/
def atAnyMark (c : Cursor) : Bool := c.atMark '-' || c.atMark '.'

end Cursor

end NormalAlgorithm.Yaml
