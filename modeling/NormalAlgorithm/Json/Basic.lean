/-
  NormalAlgorithm.Json.Basic

  JSON values. Whole numbers and doubles are apart, and the fields of an object
  keep the order in which they were first given.

    * `Json.field?`: the value under a key.
    * `Json.isTrue`: whether a value counts as true.
    * `insertField`: a later value replaces an earlier one of the same key.
-/

import NormalAlgorithm.Number.Binary64

namespace NormalAlgorithm

open NormalAlgorithm.Number

/-- A JSON value. -/
inductive Json where
  | null
  | bool (value : Bool)
  | int (value : Int)
  | float (value : Binary64)
  | str (value : List Char)
  /-- A string that holds half of a surrogate pair, and so is no text. -/
  | brokenStr
  | arr (items : List Json)
  | obj (fields : List (List Char × Json))
  deriving Repr, Inhabited

namespace Json

/-- The value of the first pair with a key. -/
def lookup (key : List Char) : List (List Char × Json) → Option Json
  | [] => none
  | (k, v) :: rest => if k = key then some v else lookup key rest

/-- Give a key a value: in the place it has already, or else at the end. -/
def insertField (key : List Char) (value : Json) :
    List (List Char × Json) → List (List Char × Json)
  | [] => [(key, value)]
  | (k, v) :: rest => if k = key then (k, value) :: rest else (k, v) :: insertField key value rest

/-- Whether a value counts as true: absent, zero and empty values do not. -/
def isTrue : Json → Bool
  | .null => false
  | .bool b => b
  | .int n => n ≠ 0
  | .float x => !x.isZero
  | .str s => !s.isEmpty
  | .brokenStr => true
  | .arr items => !items.isEmpty
  | .obj fields => !fields.isEmpty

/-- The value under a key of an object. -/
def field? (j : Json) (key : String) : Option Json :=
  match j with
  | .obj fields => lookup key.toList fields
  | _ => none

end Json

end NormalAlgorithm
