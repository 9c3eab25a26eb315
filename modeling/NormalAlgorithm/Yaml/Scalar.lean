/-
  NormalAlgorithm.Yaml.Scalar

  What scalars stand for. A scalar without quotes and tag is a truth value, a
  number, nothing, a date or a time if it has the form of one, and text otherwise.

    * `Kind`: what a scalar or collection is.
    * `kindOf`: the kind a scalar's form gives it.
    * `scalarValue`: the value of a scalar of a kind.
-/

import NormalAlgorithm.Number.Decimal
import NormalAlgorithm.Number.Integer
import NormalAlgorithm.Text.Base64
import NormalAlgorithm.Text.Case
import NormalAlgorithm.Text.Split
import NormalAlgorithm.Value.Literal
import NormalAlgorithm.Yaml.Token

namespace NormalAlgorithm.Yaml

open NormalAlgorithm.Number NormalAlgorithm.Text

/-- What a node is. -/
inductive Kind where
  | null
  | flag
  | int
  | float
  | time
  | binary
  /-- The key whose value's entries are merged into the map around it. -/
  | merge
  /-- The default value of a map; as a key it is text. -/
  | default
  | text
  | sequence
  | mapping
  | set
  /-- A sequence of mappings with one entry each, of which it is the list. -/
  | pairs
  /-- Something that has no value. -/
  | other
  deriving DecidableEq, Repr

/-- The words for truth values, in lower case. -/
def flagWords : List (List Char × Bool) :=
  [("yes".toList, true), ("no".toList, false), ("true".toList, true), ("false".toList, false),
   ("on".toList, true), ("off".toList, false)]

/-- The three spellings of a word: small, with a capital, in capitals. -/
def spellings (word : List Char) : List (List Char) :=
  [word, word.take 1 |>.map upperChar |> (· ++ word.drop 1), word.map upperChar]

/-- Whether a text spells one of some words. -/
def spells (words : List (List Char)) (s : List Char) : Bool :=
  words.any fun w => (spellings w).contains s

/-! ## Forms of numbers -/

/-- A digit or an underscore. -/
def isDigitOrGap (c : Char) : Bool := c.isDigit || c = '_'

/-- The text after groups of a colon and a number below sixty, and how many groups
    there are. -/
def dropSixties : Nat → List Char → Nat × List Char
  | 0, s => (0, s)
  | fuel + 1, ':' :: a :: b :: rest =>
    if a.isDigit && b.isDigit then
      if '0' ≤ a && a ≤ '5' then
        let (n, tail) := dropSixties fuel rest
        (n + 1, tail)
      else (0, ':' :: a :: b :: rest)
    else if a.isDigit then
      let (n, tail) := dropSixties fuel (b :: rest)
      (n + 1, tail)
    else (0, ':' :: a :: b :: rest)
  | _, [':', a] => if a.isDigit then (1, []) else (0, [':', a])
  | _, s => (0, s)

/-- Whether a text has at least one character and all have a property. -/
def nonemptyAll (p : Char → Bool) (s : List Char) : Bool := !s.isEmpty && s.all p

/-- Whether a text has the form of an integer. -/
def isIntForm (s : List Char) : Bool :=
  match (readSign s).2 with
  | ['0'] => true
  | '0' :: 'b' :: rest => nonemptyAll (fun c => c = '0' || c = '1' || c = '_') rest
  | '0' :: 'x' :: rest => nonemptyAll (fun c => (hexDigit? c).isSome || c = '_') rest
  | '0' :: rest => nonemptyAll (fun c => ('0' ≤ c && c ≤ '7') || c = '_') rest
  | c :: rest =>
    c.isDigit && match rest.dropWhile isDigitOrGap with
      | [] => true
      | tail => (dropSixties tail.length tail).2.isEmpty
  | [] => false

/-- Whether a text is nothing or an exponent with a sign. -/
def isExponentForm : List Char → Bool
  | [] => true
  | c :: sign :: rest =>
    (c = 'e' || c = 'E') && (sign = '-' || sign = '+') && nonemptyAll Char.isDigit rest
  | _ => false

/-- Whether a text has the form of a double. -/
def isFloatForm (s : List Char) : Bool :=
  let unsigned := (readSign s).2
  let digits := unsigned.takeWhile isDigitOrGap
  let tail := unsigned.drop digits.length
  if digits.head?.any Char.isDigit then
    match tail with
    | '.' :: rest => isExponentForm (rest.dropWhile isDigitOrGap)
    | ':' :: _ =>
      match dropSixties tail.length tail with
      | (_ + 1, '.' :: rest) => rest.all isDigitOrGap
      | _ => false
    | _ => false
  else
    match s with
    | '.' :: c :: rest =>
      (c.isDigit && isExponentForm (rest.dropWhile isDigitOrGap)) ||
        ["inf", "Inf", "INF", "nan", "NaN", "NAN"].any fun w => w.toList == c :: rest
    | _ :: '.' :: rest =>
      unsigned.length < s.length && ["inf", "Inf", "INF"].any (·.toList == rest)
    | _ => false

/-! ## Dates and times -/

/-- One or two digits, as many as there are. -/
def oneOrTwo? : List Char → Option (Nat × List Char)
  | a :: b :: rest =>
    match asciiDigit? a, asciiDigit? b with
    | some x, some y => some (10 * x + y, rest)
    | some x, none => some (x, b :: rest)
    | none, _ => none
  | [a] => (asciiDigit? a).map fun x => (x, [])
  | [] => none

/-- Exactly two digits. -/
def two? : List Char → Option (Nat × List Char)
  | a :: b :: rest =>
    match asciiDigit? a, asciiDigit? b with
    | some x, some y => some (10 * x + y, rest)
    | _, _ => none
  | _ => none

/-- The text after a character. -/
def after? (c : Char) : List Char → Option (List Char)
  | d :: rest => if c = d then some rest else none
  | [] => none

/-- The fields of a date, and the text after them. -/
def dateFields? (s : List Char) : Option ((Nat × Nat × Nat) × List Char) := do
  let (century, s) ← two? s
  let (year, s) ← two? s
  let s ← after? '-' s
  let (month, s) ← oneOrTwo? s
  let s ← after? '-' s
  let (day, s) ← oneOrTwo? s
  return ((100 * century + year, month, day), s)

/-- The text after what stands between date and time: a letter or gaps. -/
def afterSeparator? : List Char → Option (List Char)
  | 'T' :: rest => some rest
  | 't' :: rest => some rest
  | c :: rest =>
    if c = ' ' || c = '\t' then some (rest.dropWhile fun c => c = ' ' || c = '\t') else none
  | [] => none

/-- The digits of a fraction of a second, as microseconds. -/
def microseconds (digits : List Nat) : Nat :=
  ofDigits 10 ((digits ++ List.replicate 6 0).take 6)

/-- An offset in minutes, at the end of a text; no text is no offset. -/
def offset? (s : List Char) : Option (Option Int) :=
  if s.isEmpty then some none
  else
    match s.dropWhile fun c => c = ' ' || c = '\t' with
    | ['Z'] => some (some 0)
    | sign :: rest =>
      if sign ≠ '-' && sign ≠ '+' then none
      else do
        let (hours, rest) ← oneOrTwo? rest
        let minutes ← match rest with
          | [] => some 0
          | ':' :: rest => match two? rest with
            | some (m, []) => some m
            | _ => none
          | _ => none
        let total := Int.ofNat (60 * hours + minutes)
        return some (if sign = '-' then -total else total)
    | [] => none

/-- The digits of a fraction at the front of a text, if there is one. -/
def fractionDigits : List Char → List Nat × List Char
  | '.' :: rest =>
    let ds := rest.takeWhile Char.isDigit
    (ds.filterMap asciiDigit?, rest.drop ds.length)
  | s => ([], s)

/-- The fields of a time of day with an offset, up to the end of a text. -/
def timeFields? (s : List Char) : Option (Nat × Nat × Nat × Nat × Option Int) := do
  let s ← afterSeparator? s
  let (hour, s) ← oneOrTwo? s
  let s ← after? ':' s
  let (minute, s) ← two? s
  let s ← after? ':' s
  let (second, s) ← two? s
  let (digits, s) := fractionDigits s
  let offset ← offset? s
  return (hour, minute, second, microseconds digits, offset)

/-- Whether a text has the form of a date with all its digits, or of a date with a
    time. -/
def isTimeForm (s : List Char) : Bool :=
  match dateFields? s with
  | some (_, []) => s.length = 10
  | some (_, rest) => (timeFields? rest).isSome
  | none => false

/-- A text without one line feed at its end. A line feed alone stays. -/
def dropNewline (s : List Char) : List Char :=
  if s.length > 1 && s.getLast? == some '\n' then s.dropLast else s

/-- The date or moment of a text; a line feed may end it. -/
def timeValue (s : List Char) : Except Fault Value :=
  match dateFields? (dropNewline s) with
  | none => .error .badTime
  | some ((year, month, day), rest) =>
    if rest.isEmpty then
      match Date.ofFields? year month day with
      | some d => .ok (.date d)
      | none => .error .badNumber
    else
      match timeFields? rest with
      | none => .error .badTime
      | some (hour, minute, second, micro, offset) =>
        match (Date.ofFields? year month day).bind
            fun d => Moment.ofFields? d hour minute second micro offset with
        | some m => .ok (.moment m)
        | none => .error .badNumber

/-! ## Kinds -/

/-- The kind a scalar's form gives it; a line feed may end the form. -/
def kindOf (text : List Char) : Kind :=
  let s := dropNewline text
  if spells (flagWords.map Prod.fst) s then .flag
  else if isFloatForm s then .float
  else if isIntForm s then .int
  else if s = ['<', '<'] then .merge
  else if s.isEmpty || s = ['~'] || spells ["null".toList] s then .null
  else if isTimeForm s then .time
  else if s = ['='] then .default
  else if s = ['!'] || s = ['&'] || s = ['*'] then .other
  else .text

/-- The front of the names of the standard tags. -/
def standardTag : List Char := "tag:yaml.org,2002:".toList

/-- The kinds with a tag of their own. -/
def kindNames : List (List Char × Kind) :=
  [("null".toList, .null), ("bool".toList, .flag), ("int".toList, .int), ("float".toList, .float),
   ("timestamp".toList, .time), ("binary".toList, .binary), ("merge".toList, .merge),
   ("value".toList, .default), ("str".toList, .text), ("seq".toList, .sequence),
   ("map".toList, .mapping), ("set".toList, .set), ("omap".toList, .pairs),
   ("pairs".toList, .pairs)]

/-- The kind a tag gives. -/
def kindOfTag (tag : List Char) : Kind :=
  match kindNames.find? fun e => standardTag ++ e.1 == tag with
  | some (_, kind) => kind
  | none => .other

/-! ## Values -/

/-- The integer of a text without its sign and underscores. -/
def unsignedInt? (s : List Char) : Option Int :=
  match s with
  | ['0'] => some 0
  | '0' :: 'b' :: rest => readInteger? 2 rest
  | '0' :: 'x' :: rest => readInteger? 16 rest
  | '0' :: _ => readInteger? 8 s
  | _ =>
    if s.contains ':' then
      (splitOn ':' s).foldl (fun total piece => do
        let total ← total
        let n ← readInteger? 10 piece
        return 60 * total + n) (some 0)
    else readInteger? 10 s

/-- The integer of a text. -/
def intValue (s : List Char) : Except Fault Value :=
  let s := s.filter (· != '_')
  if s.isEmpty then .error .emptyNumber
  else
    let (negative, digits) := readSign s
    if digits.isEmpty then .error .emptyNumber
    else
      match unsignedInt? digits with
      | some n => .ok (.int (if negative then -n else n))
      | none => .error .badNumber

/-- The double of a numeral with blanks around it. -/
def readFloat? (s : List Char) : Option Binary64 :=
  let (negative, s) := readSign (unpad (plainDigits s))
  if s = "inf".toList || s = "infinity".toList then some (.infinite negative)
  else if s = "nan".toList then some .nan
  else readDecimal? negative s

/-- The sum of parts, the last first, each sixty times as much worth as the one before.
    A power of sixty that is no double cannot be reckoned with. -/
def sixtySum (total : Binary64) (power : Nat) : List Binary64 → Except Fault Binary64
  | [] => .ok total
  | x :: rest =>
    match Binary64.ofInt (Int.ofNat power) with
    | .infinite _ => .error .overflow
    | worth => sixtySum (total.add (x.mul worth)) (60 * power) rest

/-- The double of a text without its sign and underscores, in lower case. -/
def unsignedFloat (s : List Char) : Except Fault Binary64 :=
  if s = ".inf".toList then .ok (.infinite false)
  else
    match (splitOn ':' s).mapM readFloat? with
    | none => .error .badNumber
    | some [x] => .ok x
    | some parts => sixtySum (.zero false) 1 parts.reverse

/-- The double of a text. What is not a number has the identity of its scalar, unless
    it is written by the word for it. -/
def floatValue (identity : Nat) (s : List Char) : Except Fault Value :=
  let s := lower (s.filter (· != '_'))
  if s.isEmpty then .error .emptyNumber
  else
    let (negative, digits) := readSign s
    if digits = ".nan".toList then .ok (.nan 0)
    else
      match unsignedFloat digits with
      | .ok .nan => .ok (.nan (identity + 1))
      | .ok x => .ok (.float (if negative then x.neg else x))
      | .error fault => .error fault

/-- The truth value of a word, in any case. -/
def flagValue (s : List Char) : Except Fault Value :=
  match flagWords.find? fun w => w.1 == lower s with
  | some (_, b) => .ok (.bool b)
  | none => .error .badFlag

/-- The bytes of a text in base 64. -/
def binaryValue (s : List Char) : Except Fault Value :=
  if s.all fun c => decide (c.toNat < 128) then
    match decodeBase64? s with
    | some bytes => .ok (.bytes bytes)
    | none => .error .invalid
  else .error .invalid

/-- The value of a scalar of a kind, given what tells it from other scalars. A
    collection's kind and a key's kind have no scalars. -/
def scalarValue (identity : Nat) (kind : Kind) (text : List Char) : Except Fault Value :=
  match kind with
  | .null => .ok .null
  | .flag => flagValue text
  | .int => intValue text
  | .float => floatValue identity text
  | .time => timeValue text
  | .binary => binaryValue text
  | .text => .ok (.text text)
  | _ => .error .invalid

end NormalAlgorithm.Yaml
