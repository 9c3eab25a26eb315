/-
  NormalAlgorithm.Yaml.Token.Quoted

  Quoted scalars. Between single quotes only the quote itself is escaped, by
  doubling it; between double quotes a backslash starts an escape. Line breaks
  fold as in plain scalars. An escape can name half of a surrogate pair, which is
  no character, so these texts are lists of codes.

    * `quotedScalar`: the codes of a quoted scalar and the place after it.
    * `quotedToken`: the token of a quoted scalar.
-/

import NormalAlgorithm.Text.Digit
import NormalAlgorithm.Yaml.Token
import NormalAlgorithm.Yaml.Token.Plain

namespace NormalAlgorithm.Yaml

open NormalAlgorithm.Text

/-- A text by the codes of its characters. -/
abbrev Codes := List Nat

/-- The codes of a text. -/
def codesOf (s : List Char) : Codes := s.map Char.toNat

/-- The line breaks from here on, with the gaps around them. A document mark is
    refused. -/
def quotedBreaks : Nat → Cursor → List Char → Except Fault (List Char × Cursor)
  | 0, _, _ => .error .invalid
  | fuel + 1, c, breaks =>
    if c.atAnyMark then .error .invalid
    else
      let c := c.skipWhile isGap
      match c.lineBreak? with
      | some (b, c) => quotedBreaks fuel c (breaks ++ [b])
      | none => .ok (breaks, c)

/-- A gap inside quotes and what it stands for. -/
def quotedGap (c : Cursor) : Except Fault (Codes × Cursor) :=
  let gap := c.takeWhile isGap
  let c := c.skip gap.length
  match c.lineBreak? with
  | some (b, c) =>
    match quotedBreaks c.room c [] with
    | .ok (breaks, c) => .ok (codesOf (foldBreaks b breaks), c)
    | .error fault => .error fault
  | none => if c.peek.isNone then .error .invalid else .ok (codesOf gap, c)

/-! ## Escapes -/

/-- The characters that one letter escapes stand for. -/
def letterEscapes : List (Char × Char) :=
  [('0', '\x00'), ('a', '\x07'), ('b', '\x08'), ('t', '\t'), ('\t', '\t'), ('n', '\n'),
   ('v', '\x0B'), ('f', '\x0C'), ('r', '\r'), ('e', '\x1B'), (' ', ' '), ('"', '"'),
   ('\\', '\\'), ('/', '/'), ('N', '\u0085'), ('_', '\u00A0'), ('L', '\u2028'), ('P', '\u2029')]

/-- How many hexadecimal digits follow a letter. -/
def escapeLength? : Char → Option Nat
  | 'x' => some 2
  | 'u' => some 4
  | 'U' => some 8
  | _ => none

/-- A code that an escape names. -/
def checkCode (n : Nat) : Except Fault Nat :=
  if n > 0x7FFFFFFF then .error .overflow
  else if n > 0x10FFFF then .error .badCodePoint
  else .ok n

/-- An escape by code: the digits from here on. -/
def codeEscape (length : Nat) (c : Cursor) : Except Fault (Codes × Cursor) :=
  let digits := c.rest.take length
  match digits.mapM hexDigit? with
  | none => .error .invalid
  | some ds =>
    if ds.length < length then .error .invalid
    else (checkCode (ofDigits 16 ds)).map fun n => ([n], c.skip length)

/-- An escape after its backslash: what it stands for and the place after it. -/
def escape (c : Cursor) : Except Fault (Codes × Cursor) :=
  match c.peek with
  | none => .error .invalid
  | some ch =>
    match letterEscapes.find? (·.1 == ch), escapeLength? ch with
    | some (_, meaning), _ => .ok ([meaning.toNat], c.advance)
    | none, some length => codeEscape length c.advance
    | none, none =>
      match c.lineBreak? with
      | some (_, c) => (quotedBreaks c.room c []).map fun (s, c) => (codesOf s, c)
      | none => .error .invalid

/-! ## Pieces without gaps -/

/-- The text up to a gap or the closing single quote. -/
def singlePiece : Nat → Cursor → Codes → Codes × Cursor
  | 0, c, acc => (acc.reverse, c)
  | fuel + 1, c, acc =>
    match c.rest with
    | [] => (acc.reverse, c)
    | '\'' :: '\'' :: _ => singlePiece fuel (c.skip 2) ('\''.toNat :: acc)
    | ch :: _ =>
      if ch = '\'' || isGap ch || isBreak ch then (acc.reverse, c)
      else singlePiece fuel c.advance (ch.toNat :: acc)

/-- The text up to a gap or the closing double quote. -/
def doublePiece : Nat → Cursor → Codes → Except Fault (Codes × Cursor)
  | 0, c, acc => .ok (acc.reverse, c)
  | fuel + 1, c, acc =>
    match c.rest with
    | [] => .ok (acc.reverse, c)
    | '\\' :: _ =>
      match escape c.advance with
      | .ok (codes, c) => doublePiece fuel c (codes.reverse ++ acc)
      | .error fault => .error fault
    | ch :: _ =>
      if ch = '"' || isGap ch || isBreak ch then .ok (acc.reverse, c)
      else doublePiece fuel c.advance (ch.toNat :: acc)

/-- The text up to a gap or the closing quote. -/
def quotedPiece (quote : Char) (c : Cursor) : Except Fault (Codes × Cursor) :=
  if quote = '"' then doublePiece c.room c []
  else .ok (singlePiece c.room c [])

/-- Gaps and pieces up to the closing quote, given the codes before them in reverse. -/
def quotedRest (quote : Char) : Nat → Cursor → Codes → Except Fault (Codes × Cursor)
  | 0, _, _ => .error .invalid
  | fuel + 1, c, acc =>
    if c.peek = some quote then .ok (acc.reverse, c.advance)
    else
      match quotedGap c with
      | .error fault => .error fault
      | .ok (gap, c) =>
        match quotedPiece quote c with
        | .error fault => .error fault
        | .ok (piece, c) => quotedRest quote fuel c ((gap ++ piece).reverse ++ acc)

/-- A quoted scalar from its opening quote on. -/
def quotedScalar (quote : Char) (c : Cursor) : Except Fault (Codes × Cursor) :=
  match quotedPiece quote c.advance with
  | .error fault => .error fault
  | .ok (piece, c) => quotedRest quote c.room c piece.reverse

/-- The token of a quoted scalar. -/
def quotedToken (codes : Codes) : Except Fault Token :=
  if codes.all fun n => decide n.isValidChar then .ok (.scalar (codes.map Char.ofNat) false)
  else .error .halfPair

end NormalAlgorithm.Yaml
