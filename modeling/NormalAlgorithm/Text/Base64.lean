/-
  NormalAlgorithm.Text.Base64

  Bytes written in base 64. Characters outside the alphabet are passed over, and the
  text ends where a group of four is filled up with pads.

    * `sextet?`: the value of a character.
    * `decodeBase64?`: the bytes of a text; a group that is neither whole nor filled
      up has none.
-/

namespace NormalAlgorithm.Text

/-- The characters for the values from 0 to 63. -/
def base64Alphabet : List Char :=
  "ABCDEFGHIJKLMNOPQRSTUVWXYZabcdefghijklmnopqrstuvwxyz0123456789+/".toList

/-- The value of a character. -/
def sextet? (c : Char) : Option Nat := base64Alphabet.findIdx? (· == c)

/-- The bytes that a group of values holds. The bits of an unfinished byte are lost. -/
def groupBytes : List Nat → List UInt8
  | [a, b, c, d] =>
    [UInt8.ofNat (a * 4 + b / 16), UInt8.ofNat (b % 16 * 16 + c / 4), UInt8.ofNat (c % 4 * 64 + d)]
  | [a, b, c] => [UInt8.ofNat (a * 4 + b / 16), UInt8.ofNat (b % 16 * 16 + c / 4)]
  | [a, b] => [UInt8.ofNat (a * 4 + b / 16)]
  | _ => []

/-- The bytes from a place on, where a group has been begun and some pads have
    followed it. -/
def decodeFrom? (group : List Nat) (pads : Nat) : List Char → Option (List UInt8)
  | [] => if group.isEmpty then some [] else none
  | '=' :: rest =>
    if group.length < 2 then decodeFrom? group pads rest
    else if group.length + pads + 1 ≥ 4 then some (groupBytes group)
    else decodeFrom? group (pads + 1) rest
  | c :: rest =>
    match sextet? c with
    | none => decodeFrom? group pads rest
    | some n =>
      if group.length = 3 then (decodeFrom? [] 0 rest).map (groupBytes (group ++ [n]) ++ ·)
      else decodeFrom? (group ++ [n]) 0 rest

/-- The bytes of a text. -/
def decodeBase64? (s : List Char) : Option (List UInt8) := decodeFrom? [] 0 s

end NormalAlgorithm.Text
