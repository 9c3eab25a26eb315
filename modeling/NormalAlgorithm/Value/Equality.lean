/-
  NormalAlgorithm.Value.Equality

  Equality of values, where booleans are the numbers 0 and 1 and a whole double
  equals the integer, and maps by their keys.

    * `Value.keyEq`: equality of values that hold no others.
    * `Value.lookup`, `Value.insertEntry`: the entries of maps.
    * `Value.beq`: equality of all values.
-/

import NormalAlgorithm.Value.Basic

namespace NormalAlgorithm.Value

/-- Equality of values that hold no others. Moments are equal if they are the same
    instant, or the same time of day in places unknown. -/
def keyEq : Value → Value → Bool
  | .null, .null => true
  | .text s, .text t => s = t
  | .bytes s, .bytes t => s = t
  | .date d, .date e => d = e
  | .moment m, .moment n => m.same n
  | .nan i, .nan j => i = j
  | .float x, .float y => x.beq y
  | .float x, v => match v.asInt? with
    | some n => x.beqInt n
    | none => false
  | v, .float x => match v.asInt? with
    | some n => x.beqInt n
    | none => false
  | v, w => match v.asInt?, w.asInt? with
    | some m, some n => m = n
    | _, _ => false

/-! ## Maps -/

/-- The value under a key. -/
def lookup (key : Value) : List (Value × Value) → Option Value
  | [] => none
  | (k, v) :: es => if k.keyEq key then some v else lookup key es

/-- The value under a text key. -/
def lookupText (key : String) (entries : List (Value × Value)) : Option Value :=
  lookup (.text key.toList) entries

/-- Give a key a value: in the place of an equal key, which stays, or at the end. -/
def insertEntry (key value : Value) : List (Value × Value) → List (Value × Value)
  | [] => [(key, value)]
  | (k, v) :: es => if k.keyEq key then (k, value) :: es else (k, v) :: insertEntry key value es

/-! ## All values -/

mutual

/-- Equality of values. Maps are equal when they hold equal values under equal keys,
    and sets when they hold equal members, in any order. -/
def beq : Value → Value → Bool
  | .list xs, .list ys => beqItems xs ys
  | .pair x y, .pair z w => beq x z && beq y w
  | .set xs, .set ys => xs.length == ys.length && xs.all fun x => ys.any (keyEq x)
  | .map es, .map fs => es.length == fs.length && beqEntries es fs
  | v, w => v.keyEq w

/-- Equality item by item. -/
def beqItems : List Value → List Value → Bool
  | [], [] => true
  | x :: xs, y :: ys => beq x y && beqItems xs ys
  | _, _ => false

/-- Whether every entry has an equal one in another map. -/
def beqEntries : List (Value × Value) → List (Value × Value) → Bool
  | [], _ => true
  | (k, v) :: es, fs =>
    (match lookup k fs with
      | some w => beq v w
      | none => false) && beqEntries es fs

end

end NormalAlgorithm.Value
