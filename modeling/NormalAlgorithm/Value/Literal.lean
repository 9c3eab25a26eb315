/-
  NormalAlgorithm.Value.Literal

  Values in messages.

    * `Value.literal`, `Value.display`: a value as a quoted literal, and as it
      reads inside running text.
-/

import NormalAlgorithm.Number.Decimal
import NormalAlgorithm.Number.Integer
import NormalAlgorithm.Text.Quoted
import NormalAlgorithm.Value.Basic

namespace NormalAlgorithm

open NormalAlgorithm.Number NormalAlgorithm.Text

/-! ## Bytes -/

/-- One byte inside a literal with the given quote. Only ASCII is printable. -/
def quoteByte (quote : Char) (b : UInt8) : List Char :=
  if b < 0x7F then quoteChar quote (Char.ofNat b.toNat)
  else '\\' :: 'x' :: hexDigits 2 b.toNat

/-- The literal of bytes. -/
def quotedBytes (bytes : List UInt8) : List Char :=
  let quote := quoteFor (bytes.map fun b => Char.ofNat b.toNat)
  'b' :: quote :: bytes.flatMap (quoteByte quote) ++ [quote]

namespace Value

/-! ## Literals -/

/-- The mark of a collection that stands inside itself. -/
def againLiteral : Shape → String
  | .list => "[...]"
  | .map => "\x7b...\x7d"
  | .pair => "(...)"

/-- The literal of a value that holds no others. -/
def atomLiteral : Value → List Char
  | .null => "None".toList
  | .bool b => if b then "True".toList else "False".toList
  | .int n => decimalInt n
  | .float x => x.text
  | .nan _ => "nan".toList
  | .text s => quoted s
  | .bytes bs => quotedBytes bs
  | .list _ => ['[', ']']
  | .pair .. => ['(', ')']
  | .set _ => "set()".toList
  | .map _ => ['\x7b', '\x7d']
  | .date d => d.literal
  | .moment m => m.literal
  | .again shape => (againLiteral shape).toList

mutual

/-- A value as a literal. -/
def literal : Value → List Char
  | .list (x :: xs) => '[' :: literal x ++ literalItems xs ++ [']']
  | .pair x y => '(' :: literal x ++ [',', ' '] ++ literal y ++ [')']
  | .set (x :: xs) => '\x7b' :: literal x ++ literalItems xs ++ ['\x7d']
  | .map ((k, v) :: es) =>
    '\x7b' :: literal k ++ [':', ' '] ++ literal v ++ literalEntries es ++ ['\x7d']
  | v => atomLiteral v

/-- The items after the first. -/
def literalItems : List Value → List Char
  | [] => []
  | x :: xs => [',', ' '] ++ literal x ++ literalItems xs

/-- The entries after the first. -/
def literalEntries : List (Value × Value) → List Char
  | [] => []
  | (k, v) :: es => [',', ' '] ++ literal k ++ [':', ' '] ++ literal v ++ literalEntries es

end

/-- A value inside running text: text as it is, dates and moments in short form,
    all else as a literal. -/
def display : Value → List Char
  | .text s => s
  | .date d => d.display
  | .moment m => m.display
  | v => v.literal

end Value

end NormalAlgorithm
