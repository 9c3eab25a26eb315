/-
  NormalAlgorithm.Number.Integer

  Integers in text: a sign, digits of any script with single underscores between
  them, and blanks around it all. The mark of a base may stand before its digits.

    * `readInteger?`: the integer of a text in a base.
-/

import NormalAlgorithm.Text.Blank
import NormalAlgorithm.Text.Digit

namespace NormalAlgorithm.Number

open NormalAlgorithm.Text

/-- The most digits of a numeral in base ten. -/
def maxDecimalDigits : Nat := 4300

/-- The value of a digit: decimal digits of any script and the letters of ASCII. -/
def digitValue? (c : Char) : Option Nat := (digit? c).orElse fun _ => hexDigit? c

/-- The digits of a numeral, a single underscore allowed before each but the
    first. -/
def readDigits? (base : Nat) : Bool → List Char → Option (List Nat)
  | _, [] => some []
  | true, '_' :: rest => if rest.isEmpty then none else readDigits? base false rest
  | _, c :: rest =>
    match digitValue? c with
    | some d => if d < base then (readDigits? base true rest).map (d :: ·) else none
    | none => none

/-- The text after the mark of a base, if there is one. -/
def dropBaseMark (base : Nat) : List Char → List Char
  | '0' :: c :: rest =>
    if (base = 16 && (c = 'x' || c = 'X')) || (base = 8 && (c = 'o' || c = 'O')) ||
        (base = 2 && (c = 'b' || c = 'B')) then
      match rest with
      | '_' :: rest => rest
      | rest => rest
    else '0' :: c :: rest
  | s => s

/-- The natural number of a numeral without sign and blanks. -/
def readNatural? (base : Nat) (s : List Char) : Option Nat :=
  match readDigits? base false (dropBaseMark base s) with
  | none => none
  | some [] => none
  | some ds =>
    if base = 10 && decide (ds.length > maxDecimalDigits) then none else some (ofDigits base ds)

/-- The integer of a text. -/
def readInteger? (base : Nat) (s : List Char) : Option Int :=
  match unpad s with
  | '-' :: rest => (readNatural? base rest).map fun n => -Int.ofNat n
  | '+' :: rest => (readNatural? base rest).map Int.ofNat
  | s => (readNatural? base s).map Int.ofNat

end NormalAlgorithm.Number
