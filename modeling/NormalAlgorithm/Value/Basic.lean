/-
  NormalAlgorithm.Value.Basic

  Values of any kind, as algorithm documents and session arguments hold them.

    * `Value`: the kinds of values.
    * `Value.kindName`: the name of a value's kind in messages.
    * `Value.isTrue`: whether a value counts as true.
    * `Value.isKey`: whether a value can stand as a key.
    * `Entries`: the entries of a map.
-/

import NormalAlgorithm.Number.Binary64
import NormalAlgorithm.Value.Calendar

namespace NormalAlgorithm

open NormalAlgorithm.Number

/-- The shapes of collections that can hold themselves. -/
inductive Shape where
  | list
  | map
  | pair
  deriving DecidableEq, Repr, Inhabited

/-- A value of any kind. The keys of a map and the members of a set are never
    collections. -/
inductive Value where
  | null
  | bool (value : Bool)
  | int (value : Int)
  | float (value : Binary64)
  /-- A double that is not a number. It equals only itself, so it has an identity. -/
  | nan (identity : Nat)
  | text (value : List Char)
  | bytes (value : List UInt8)
  | list (items : List Value)
  | pair (first second : Value)
  | set (members : List Value)
  | map (entries : List (Value × Value))
  | date (value : Date)
  | moment (value : Moment)
  /-- A collection that stands inside itself. -/
  | again (shape : Shape)
  deriving Repr, Inhabited

/-- The entries of a map. -/
abbrev Entries := List (Value × Value)

namespace Value

/-- The name of a value's kind. -/
def kindName : Value → String
  | .null => "NoneType"
  | .bool _ => "bool"
  | .int _ => "int"
  | .float _ | .nan _ => "float"
  | .text _ => "str"
  | .bytes _ => "bytes"
  | .list _ | .again .list => "list"
  | .pair .. | .again .pair => "tuple"
  | .set _ => "set"
  | .map _ | .again .map => "dict"
  | .date _ => "date"
  | .moment _ => "datetime"

/-- Whether a value counts as true: absent, zero and empty values do not. -/
def isTrue : Value → Bool
  | .null => false
  | .bool b => b
  | .int n => n ≠ 0
  | .float x => !x.isZero
  | .text s => !s.isEmpty
  | .bytes bs => !bs.isEmpty
  | .list xs => !xs.isEmpty
  | .set xs => !xs.isEmpty
  | .map es => !es.isEmpty
  | _ => true

/-- Whether a value can be a key. -/
def isKey : Value → Bool
  | .list _ | .pair .. | .set _ | .map _ | .again _ => false
  | _ => true

/-- The text that a value is. -/
def text? : Value → Option (List Char)
  | .text s => some s
  | _ => none

/-- The integer a value counts as: itself, or 0 and 1 for the booleans. -/
def asInt? : Value → Option Int
  | .bool b => some (if b then 1 else 0)
  | .int n => some n
  | _ => none

end Value

end NormalAlgorithm
