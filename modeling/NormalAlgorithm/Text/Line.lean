/-
  NormalAlgorithm.Text.Line

  Lines of a text. A line ends at any of the line boundary characters; CR LF is
  one boundary. The text after the last boundary is a line only if it is not
  empty.

    * `splitLines`: the lines of a text, without their boundaries.
    * `unifyNewlines`: CR LF and CR turned into LF, as text files are read.
-/

import NormalAlgorithm.Text.Split

namespace NormalAlgorithm.Text

/-- The characters that end a line. -/
def isLineBreak (c : Char) : Bool :=
  c = '\n' || c = '\x0B' || c = '\x0C' || c = '\r' || c = '\x1C' || c = '\x1D' || c = '\x1E' ||
    c = '\u0085' || c = '\u2028' || c = '\u2029'

/-- The lines of a text. -/
def splitLines : List Char → List (List Char)
  | [] => []
  | '\r' :: '\n' :: rest => [] :: splitLines rest
  | c :: rest => if isLineBreak c then [] :: splitLines rest else consPiece c (splitLines rest)

/-- CR LF and lone CR read as LF. -/
def unifyNewlines : List Char → List Char
  | [] => []
  | '\r' :: '\n' :: rest => '\n' :: unifyNewlines rest
  | c :: rest => (if c = '\r' then '\n' else c) :: unifyNewlines rest

end NormalAlgorithm.Text
