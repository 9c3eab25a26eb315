/-
  NormalAlgorithm.Json.Reader

  Reading JSON text. Blanks may stand between the parts; a number with a point
  or an exponent is a double; `NaN`, `Infinity` and `-Infinity` are read too; of
  two fields with one key the later value counts, in the place of the earlier.

    * `Json.parse?`: the value of a whole text.
    * `Json.parseWithin`: the same under limits on the digits of whole numbers and
      on the depth of arrays and objects inside each other.
-/

import NormalAlgorithm.Json.Basic
import NormalAlgorithm.Number.Decimal

namespace NormalAlgorithm.Json

open NormalAlgorithm.Text NormalAlgorithm.Number

/-- Why a text has no value. -/
inductive ReadFault where
  | malformed
  /-- Arrays and objects stand too deep inside each other. -/
  | tooDeep
  deriving DecidableEq, Repr

/-- Limits of a reader. -/
structure Limits where
  /-- The most digits of a whole number. -/
  digits : Option Nat
  /-- How many arrays and objects may stand inside each other. -/
  depth : Option Nat
  deriving DecidableEq, Repr

/-- No limits. -/
def Limits.none : Limits := ⟨.none, .none⟩

/-- Whether a number stays within a limit. -/
def within (n : Nat) : Option Nat → Bool
  | .none => true
  | some limit => decide (n ≤ limit)

/-- What was read and the text after it. -/
abbrev Read (α : Type) := Except ReadFault (α × List Char)

/-- The blanks of JSON. -/
def isSpace (c : Char) : Bool := c = ' ' || c = '\t' || c = '\n' || c = '\r'

/-- The text after leading JSON blanks. -/
def skipSpace (s : List Char) : List Char := s.dropWhile isSpace

/-- The rest of a text that starts with the given one. -/
def dropExact? : List Char → List Char → Option (List Char)
  | [], s => some s
  | _ :: _, [] => none
  | p :: ps, c :: cs => if p = c then dropExact? ps cs else none

/-- Four hexadecimal digits. -/
def readHex4? : List Char → Option (Nat × List Char)
  | a :: b :: c :: d :: rest => do
    let a ← hexDigit? a
    let b ← hexDigit? b
    let c ← hexDigit? c
    let d ← hexDigit? d
    return (ofDigits 16 [a, b, c, d], rest)
  | _ => none

/-- The low half of a surrogate pair, written as an escape. -/
def readLowHalf? : List Char → Option (Nat × List Char)
  | '\\' :: 'u' :: rest =>
    match readHex4? rest with
    | some (m, rest) => if 0xDC00 ≤ m ∧ m < 0xE000 then some (m, rest) else none
    | none => none
  | _ => none

/-- The character of a `\u` escape after its mark; two escapes make up a character
    above U+FFFF, and a half of such a pair alone is none. -/
def readCodePoint? (s : List Char) : Option (Option Char × List Char) := do
  let (n, rest) ← readHex4? s
  if 0xD800 ≤ n ∧ n < 0xDC00 then
    match readLowHalf? rest with
    | some (m, rest) =>
      return (some (Char.ofNat (0x10000 + (n - 0xD800) * 0x400 + (m - 0xDC00))), rest)
    | none => return (none, rest)
  else if 0xDC00 ≤ n ∧ n < 0xE000 then return (none, rest)
  else return (some (Char.ofNat n), rest)

/-- The character a one letter escape stands for. -/
def unescape? : Char → Option Char
  | '"' => some '"'
  | '\\' => some '\\'
  | '/' => some '/'
  | 'b' => some '\x08'
  | 'f' => some '\x0C'
  | 'n' => some '\n'
  | 'r' => some '\r'
  | 't' => some '\t'
  | _ => none

/-- The rest of a string after its opening quote; `acc` holds the characters read
    so far, last first, and nothing for half of a surrogate pair. -/
def readString? : Nat → List (Option Char) → List Char → Option (List (Option Char) × List Char)
  | 0, _, _ => none
  | _, _, [] => none
  | _ + 1, acc, '"' :: rest => some (acc.reverse, rest)
  | fuel + 1, acc, '\\' :: 'u' :: rest =>
    match readCodePoint? rest with
    | some (c, rest) => readString? fuel (c :: acc) rest
    | none => none
  | fuel + 1, acc, '\\' :: e :: rest =>
    match unescape? e with
    | some c => readString? fuel (some c :: acc) rest
    | none => none
  | fuel + 1, acc, c :: rest =>
    if c = '\\' || c.toNat < 0x20 then none else readString? fuel (some c :: acc) rest

/-- A string after its opening quote. -/
def readQuoted (s : List Char) : Read (List (Option Char)) :=
  match readString? s.length.succ [] s with
  | some read => .ok read
  | none => .error .malformed

/-- The value of a string. -/
def stringValue (chars : List (Option Char)) : Json :=
  match chars.mapM id with
  | some chars => .str chars
  | none => .brokenStr

/-- A string as a key; halves of surrogate pairs are replaced. -/
def keyOf (chars : List (Option Char)) : List Char := chars.map (·.getD '\uFFFD')

/-- The digits of a fraction after its point, if there is one. -/
def readFraction (s : List Char) : Option (List Nat × List Char) :=
  match s with
  | '.' :: rest =>
    let (ds, tail) := spanDigits rest
    if ds.isEmpty then none else some (ds, tail)
  | _ => none

/-- An exponent with its mark, if there is one. -/
def readMarkedExponent (s : List Char) : Option (Int × List Char) :=
  match s with
  | c :: rest => if c = 'e' || c = 'E' then readExponent? rest else none
  | [] => none

/-- A number: no leading zeros, a fraction and an exponent optional. -/
def readNumber? (limits : Limits) (s : List Char) : Option (Json × List Char) :=
  let (negative, s) := match s with
    | '-' :: rest => (true, rest)
    | _ => (false, s)
  let (whole, rest) := match s with
    | '0' :: rest => ([0], rest)
    | _ => spanDigits s
  if whole.isEmpty then none else
  let fraction := readFraction rest
  let afterFraction := (fraction.map Prod.snd).getD rest
  let exponent := readMarkedExponent afterFraction
  let tail := (exponent.map Prod.snd).getD afterFraction
  if fraction.isNone && exponent.isNone then
    let n := Int.ofNat (ofDigits 10 whole)
    if within whole.length limits.digits then some (.int (if negative then -n else n), tail)
    else none
  else
    let part := (fraction.map Prod.fst).getD []
    let e := (exponent.map Prod.fst).getD 0
    let digits := ofDigits 10 (whole ++ part)
    some (.float (.ofDecimal negative digits (e - Int.ofNat part.length)), tail)

/-- The words that stand for values. -/
def literals : List (List Char × Json) :=
  [("null".toList, .null), ("true".toList, .bool true), ("false".toList, .bool false),
   ("NaN".toList, .float .nan), ("Infinity".toList, .float (.infinite false)),
   ("-Infinity".toList, .float (.infinite true))]

/-- A value given by a word. -/
def readLiteral? (s : List Char) : Option (Json × List Char) :=
  literals.findSome? fun (word, value) => (dropExact? word s).map fun rest => (value, rest)

/-- A value that is neither a string nor holds others. -/
def readAtom (limits : Limits) (s : List Char) : Read Json :=
  match (readLiteral? s).orElse fun _ => readNumber? limits s with
  | some read => .ok read
  | none => .error .malformed

mutual

/-- A value after any blanks, inside `depth` others. -/
def readValue (limits : Limits) (depth : Nat) : Nat → List Char → Read Json
  | 0, _ => .error .malformed
  | fuel + 1, s =>
    match skipSpace s with
    | '"' :: rest => (readQuoted rest).map fun (t, rest) => (stringValue t, rest)
    | '[' :: rest =>
      if !within (depth + 1) limits.depth then .error .tooDeep
      else
        match skipSpace rest with
        | ']' :: rest => .ok (.arr [], rest)
        | _ => readItems limits (depth + 1) fuel [] rest
    | '\x7b' :: rest =>
      if !within (depth + 1) limits.depth then .error .tooDeep
      else
        match skipSpace rest with
        | '\x7d' :: rest => .ok (.obj [], rest)
        | _ => readFields limits (depth + 1) fuel [] rest
    | s => readAtom limits s

/-- The items of an array from a value on; `acc` holds the earlier ones, last
    first. -/
def readItems (limits : Limits) (depth : Nat) : Nat → List Json → List Char → Read Json
  | 0, _, _ => .error .malformed
  | fuel + 1, acc, s =>
    match readValue limits depth fuel s with
    | .error fault => .error fault
    | .ok (x, rest) =>
      match skipSpace rest with
      | ',' :: rest => readItems limits depth fuel (x :: acc) rest
      | ']' :: rest => .ok (.arr (x :: acc).reverse, rest)
      | _ => .error .malformed

/-- The fields of an object from a key on. -/
def readFields (limits : Limits) (depth : Nat) :
    Nat → List (List Char × Json) → List Char → Read Json
  | 0, _, _ => .error .malformed
  | fuel + 1, acc, s =>
    match skipSpace s with
    | '"' :: rest =>
      match readQuoted rest with
      | .error fault => .error fault
      | .ok (key, rest) =>
        match skipSpace rest with
        | ':' :: rest =>
          match readValue limits depth fuel rest with
          | .error fault => .error fault
          | .ok (x, rest) =>
            match skipSpace rest with
            | ',' :: rest => readFields limits depth fuel (insertField (keyOf key) x acc) rest
            | '\x7d' :: rest => .ok (.obj (insertField (keyOf key) x acc), rest)
            | _ => .error .malformed
        | _ => .error .malformed
    | _ => .error .malformed

end

/-- The value of a whole text under limits, blanks around it allowed. -/
def parseWithin (limits : Limits) (s : List Char) : Except ReadFault Json :=
  match readValue limits 0 (2 * s.length + 2) s with
  | .ok (j, rest) => if (skipSpace rest).isEmpty then .ok j else .error .malformed
  | .error fault => .error fault

/-- The value of a whole text. -/
def parse? (s : List Char) : Option Json := (parseWithin .none s).toOption

end NormalAlgorithm.Json
