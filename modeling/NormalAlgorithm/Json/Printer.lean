/-
  NormalAlgorithm.Json.Printer

  JSON text in two layouts.

    * `Json.compact`: one line, with a blank after every comma and colon.
    * `Json.pretty`: one item or field a line, indented by two blanks a level;
      an empty array or object stays on its line.

  Text is written as it is but for the quote, the backslash and the characters
  below U+0020, so neither layout puts a line feed inside a string.
-/

import NormalAlgorithm.Json.Basic
import NormalAlgorithm.Number.Decimal

namespace NormalAlgorithm.Json

open NormalAlgorithm.Text

/-- One character inside a JSON string. -/
def escapeChar (c : Char) : List Char :=
  if c = '"' then ['\\', '"']
  else if c = '\\' then ['\\', '\\']
  else if c = '\n' then ['\\', 'n']
  else if c = '\r' then ['\\', 'r']
  else if c = '\t' then ['\\', 't']
  else if c = '\x08' then ['\\', 'b']
  else if c = '\x0C' then ['\\', 'f']
  else if c.toNat < 0x20 then '\\' :: 'u' :: hexDigits 4 c.toNat
  else [c]

/-- A JSON string. -/
def stringText (s : List Char) : List Char := '"' :: s.flatMap escapeChar ++ ['"']

/-- A JSON number for a double; the values JSON lacks have names. -/
def floatText : Number.Binary64 → List Char
  | .nan => "NaN".toList
  | .infinite s => (if s then ['-'] else []) ++ "Infinity".toList
  | x => x.text

/-- The text of a value that holds no others. -/
def atomText : Json → List Char
  | .null => ['n', 'u', 'l', 'l']
  | .bool true => ['t', 'r', 'u', 'e']
  | .bool false => ['f', 'a', 'l', 's', 'e']
  | .int n => decimalInt n
  | .float x => floatText x
  | .str s => stringText s
  | .brokenStr => "\"\\ud800\"".toList
  | .arr _ => ['[', ']']
  | .obj _ => ['\x7b', '\x7d']

/-! ## One line -/

mutual

/-- The value on one line. -/
def compact : Json → List Char
  | .arr (x :: xs) => '[' :: compact x ++ compactItems xs ++ [']']
  | .obj ((k, v) :: fs) =>
    '\x7b' :: stringText k ++ [':', ' '] ++ compact v ++ compactFields fs ++ ['\x7d']
  | j => atomText j

/-- The items after the first. -/
def compactItems : List Json → List Char
  | [] => []
  | x :: xs => [',', ' '] ++ compact x ++ compactItems xs

/-- The fields after the first. -/
def compactFields : List (List Char × Json) → List Char
  | [] => []
  | (k, v) :: fs => [',', ' '] ++ stringText k ++ [':', ' '] ++ compact v ++ compactFields fs

end

/-! ## Indented -/

/-- A line feed and the indentation of a level. -/
def newline (level : Nat) : List Char := '\n' :: List.replicate (2 * level) ' '

mutual

/-- The value with its items and fields on lines of their own. -/
def prettyAt (level : Nat) : Json → List Char
  | .arr (x :: xs) =>
    '[' :: newline (level + 1) ++ prettyAt (level + 1) x ++ prettyItems (level + 1) xs ++
      newline level ++ [']']
  | .obj ((k, v) :: fs) =>
    '\x7b' :: newline (level + 1) ++ stringText k ++ [':', ' '] ++ prettyAt (level + 1) v ++
      prettyFields (level + 1) fs ++ newline level ++ ['\x7d']
  | j => atomText j

/-- The items after the first. -/
def prettyItems (level : Nat) : List Json → List Char
  | [] => []
  | x :: xs => ',' :: newline level ++ prettyAt level x ++ prettyItems level xs

/-- The fields after the first. -/
def prettyFields (level : Nat) : List (List Char × Json) → List Char
  | [] => []
  | (k, v) :: fs =>
    ',' :: newline level ++ stringText k ++ [':', ' '] ++ prettyAt level v ++ prettyFields level fs

end

/-- The indented layout of a whole value. -/
def pretty (j : Json) : List Char := prettyAt 0 j

end NormalAlgorithm.Json
