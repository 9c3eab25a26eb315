/-
  NormalAlgorithm.Field.Basic

  Typed fields from JSON values and from text. Numbers and booleans are read
  leniently, from text too. What cannot be read is reported as an issue: where it
  was found and of which kind it is.

    * `Issue`: a place and a kind.
    * `readInt`, `readBool`, `readText`: a value of one type, or the kind of the
      issue.
    * `Checked`: a value built from several fields, or the issues of them all.
-/

import NormalAlgorithm.Json.Basic
import NormalAlgorithm.Number.Decimal
import NormalAlgorithm.Text.Blank
import NormalAlgorithm.Text.Case

namespace NormalAlgorithm.Field

open NormalAlgorithm.Number NormalAlgorithm.Text

/-- A step of a place: the name of a field or an index in a list. -/
inductive Step where
  | name (field : List Char)
  | index (n : Nat)
  deriving DecidableEq, Repr

/-- Kinds of issues. -/
inductive Kind where
  | missing
  | extra
  | intType
  | intText
  | intSize
  | intFraction
  | intFinite
  | tooSmall
  | boolType
  | boolText
  | textType
  | textUnicode
  | listType
  | modelType
  | notInEnum
  deriving DecidableEq, Repr

/-- The name of a kind. -/
def Kind.name : Kind → String
  | .missing => "missing"
  | .extra => "extra_forbidden"
  | .intType => "int_type"
  | .intText => "int_parsing"
  | .intSize => "int_parsing_size"
  | .intFraction => "int_from_float"
  | .intFinite => "finite_number"
  | .tooSmall => "greater_than_equal"
  | .boolType => "bool_type"
  | .boolText => "bool_parsing"
  | .textType => "string_type"
  | .textUnicode => "string_unicode"
  | .listType => "list_type"
  | .modelType => "model_type"
  | .notInEnum => "enum"

/-- What is wrong with a field, and where. -/
structure Issue where
  place : List Step
  kind : Kind
  deriving DecidableEq, Repr

/-- The issue seen from outside the field or item it was found in. -/
def Issue.under (step : Step) (i : Issue) : Issue := { i with place := step :: i.place }

/-- An issue of the field with a name. -/
def Issue.ofField (field : List Char) (kind : Kind) : Issue := ⟨[.name field], kind⟩

/-! ## Integers -/

/-- The most digits of an integer in text. -/
def maxNumberLength : Nat := 4300

/-- A numeral without the zeros in front, after a first zero. Underscores among the
    zeros go too, a minus sign may follow them, and a point keeps the zero before
    it. -/
def dropMoreZeros (last : Char) : List Char → Option (List Char)
  | [] => some [last]
  | c :: rest =>
    if c = '0' || c = '_' then dropMoreZeros c rest
    else if ('1' ≤ c && c ≤ '9') || c = '-' then some (c :: rest)
    else if c = '.' then some (last :: c :: rest)
    else none

/-- A numeral without the zeros in front; it has to start with a digit or a minus
    sign. -/
def dropLeadingZeros : List Char → Option (List Char)
  | '0' :: rest => dropMoreZeros '0' rest
  | c :: rest => if ('1' ≤ c && c ≤ '9') || c = '-' then some (c :: rest) else none
  | [] => none

/-- A numeral without a fraction of zeros; a point alone is no fraction. -/
def dropZeroFraction (s : List Char) : List Char :=
  let whole := s.takeWhile (· != '.')
  match s.drop whole.length with
  | '.' :: part => if !part.isEmpty && part.all (· == '0') then whole else s
  | _ => s

/-- Whether every underscore stands alone between other characters. -/
def underscoresFit : List Char → Bool
  | [] => true
  | ['_'] => false
  | '_' :: '_' :: _ => false
  | _ :: rest => underscoresFit rest

/-- A numeral without its underscores, if they stand alone and inside. -/
def dropUnderscores (s : List Char) : List Char :=
  if s.head? != some '_' && underscoresFit s then s.filter (· != '_') else s

/-- The value of a numeral of ASCII digits. -/
def digitsValue? (s : List Char) : Option Nat :=
  if s.isEmpty then none else (s.mapM asciiDigit?).map (ofDigits 10)

/-- The value of a numeral without its sign. From 19 characters of the whole numeral
    on, underscores are passed over wherever they stand but at the front. -/
def magnitude? (length : Nat) (s : List Char) : Option Nat :=
  if length < 19 || s.head? = some '_' then digitsValue? s
  else digitsValue? (s.filter (· != '_'))

/-- The value of a numeral with its sign, and how long the numeral is. -/
def signedValue? (s : List Char) : Option Int :=
  match s with
  | '-' :: rest => (magnitude? s.length rest).map fun n => -Int.ofNat n
  | _ => (magnitude? s.length s).map Int.ofNat

/-- A numeral in plain form: without padding, a plus sign, zeros in front, a fraction
    of zeros and single underscores. -/
def plainNumeral? (s : List Char) : Option (List Char) :=
  let unsigned? := match unpad s with
    | '+' :: '-' :: _ => none
    | '+' :: rest => some rest
    | rest => some rest
  (unsigned?.bind dropLeadingZeros).map fun s => dropUnderscores (dropZeroFraction s)

/-- The integer a text stands for. -/
def textInt (s : List Char) : Except Kind Int :=
  match plainNumeral? s with
  | none => .error .intText
  | some s =>
    if s.length > maxNumberLength then .error .intSize
    else match signedValue? s with
      | some n => .ok n
      | none => .error .intText

/-- Integers of 64 bits lie between this bound and its negative. -/
def wordBound : Int := Int.ofNat (Nat.pow 2 63)

/-- The integer a double stands for: it has to be finite, whole and in the range
    of 64 bits. -/
def floatInt (x : Binary64) : Except Kind Int :=
  match x.trunc? with
  | none => .error .intFinite
  | some n =>
    if !x.isIntegral then .error .intFraction
    else if -wordBound < n ∧ n < wordBound then .ok n
    else .error .intSize

/-- An integer, leniently. -/
def readInt : Json → Except Kind Int
  | .int n => .ok n
  | .bool b => .ok (if b then 1 else 0)
  | .float x => floatInt x
  | .str s => textInt s
  | .brokenStr => .error .textUnicode
  | _ => .error .intType

/-! ## Booleans and text -/

/-- The words for true and false. -/
def boolWords : List (List Char × Bool) :=
  [(['0'], false), (['f'], false), (['n'], false), ("no".toList, false), ("off".toList, false),
   ("false".toList, false), (['1'], true), (['t'], true), (['y'], true), ("on".toList, true),
   ("yes".toList, true), ("true".toList, true)]

/-- A boolean, leniently. -/
def readBool : Json → Except Kind Bool
  | .bool b => .ok b
  | .int n =>
    if n = 0 then .ok false else if n = 1 then .ok true
    else if -wordBound ≤ n ∧ n < wordBound then .error .boolText else .error .boolType
  | .float x =>
    match floatInt x with
    | .ok n => if n = 0 then .ok false else if n = 1 then .ok true else .error .boolText
    | .error _ => .error .boolType
  | .str s =>
    match boolWords.find? fun w => w.1 == lower s with
    | some (_, b) => .ok b
    | none => .error .boolText
  | .brokenStr => .error .textUnicode
  | _ => .error .boolType

/-- A text; nothing else is read as one. -/
def readText : Json → Except Kind (List Char)
  | .str s => .ok s
  | .brokenStr => .error .textUnicode
  | _ => .error .textType

/-- A value or `null`. -/
def nullable {α : Type} (read : Json → Except Kind α) : Json → Except Kind (Option α)
  | .null => .ok none
  | j => (read j).map some

/-! ## Several fields -/

/-- A value, or all issues that stand in its way. -/
abbrev Checked (α : Type) := Except (List Issue) α

/-- The value of a field. -/
def readField {α : Type} (read : Json → Except Kind α) (name : String) (j : Json) : Checked α :=
  (read j).mapError fun kind => [.ofField name.toList kind]

/-- A field that has to be there. -/
def required {α : Type} (read : Json → Except Kind α) (name : String) : Option Json → Checked α
  | none => .error [.ofField name.toList .missing]
  | some j => readField read name j

/-- A field that has a default. -/
def optional {α : Type} (read : Json → Except Kind α) (name : String) (default : α) :
    Option Json → Checked α
  | none => .ok default
  | some j => readField read name j

namespace Checked

/-- Two values, with the issues of both in order. -/
def both {α β γ : Type} (f : α → β → γ) : Checked α → Checked β → Checked γ
  | .ok a, .ok b => .ok (f a b)
  | .error issues, .ok _ => .error issues
  | .ok _, .error issues => .error issues
  | .error issues, .error more => .error (issues ++ more)

/-- The next field of a value that is built field by field. -/
def andThen {α β : Type} (f : Checked (α → β)) (a : Checked α) : Checked β := both (· ·) f a

/-- A value that further issues stand in the way of. -/
def withIssues {α : Type} (more : List Issue) : Checked α → Checked α
  | .ok a => if more.isEmpty then .ok a else .error more
  | .error issues => .error (issues ++ more)

/-- A value found in a field or item. -/
def under {α : Type} (step : Step) (a : Checked α) : Checked α :=
  a.mapError (·.map (Issue.under step))

end Checked

end NormalAlgorithm.Field
