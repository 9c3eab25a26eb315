/-
  NormalAlgorithm.Machine

  What can give out under a program while it runs. Calls inside calls need room, and an
  integer of very many digits is not written out. How much of either there is depends on
  the machine and on where the program is called from, and not on the program. So a machine
  is an argument of whatever can run into such an end, and it says itself when it does.

    * `Shortage`: what has given out.
    * `Machine`: when something gives out.
    * `Machine.unlimited`: nothing ever does.
    * `Machine.usual`: the machine that the program is run on.
-/

import NormalAlgorithm.Number.Integer
import NormalAlgorithm.Value.Equality

namespace NormalAlgorithm

open NormalAlgorithm.Number

/-- What has given out. -/
inductive Shortage where
  /-- The room for calls inside calls (`RecursionError`). -/
  | calls
  /-- The digits of an integer to be written (`ValueError`). -/
  | digits
  deriving DecidableEq, Repr

/-- The text of a shortage. -/
def Shortage.message : Shortage → String
  | .calls => "Calls are nested too deep"
  | .digits => "An integer has too many digits to be written"

/-- When something gives out. -/
structure Machine where
  /-- What gives out while a chain of algorithms is followed, one call inside the other, and
      then, if the chain is complete, while their statements are compiled. Each algorithm is
      given by its name and its fields, the first one called first. -/
  resolving : List (Value × Entries) → Bool → Option Shortage
  /-- What gives out while a value is written into a message. -/
  writing : Value → Option Shortage
  /-- Text can always be written. -/
  writing_text : ∀ s, writing (.text s) = none

namespace Machine

/-- What gives out while values are written, one after the other. -/
def writingAll (m : Machine) (values : List Value) : Option Shortage := values.findSome? m.writing

/-- A machine on which nothing gives out. -/
def unlimited : Machine where
  resolving _ _ := none
  writing _ := none
  writing_text _ := rfl

/-! ## The usual machine -/

mutual

/-- Whether every integer in a value has few enough digits to be written. -/
def hasShortIntegers : Value → Bool
  | .int n => decide (n.natAbs < Nat.pow 10 maxDecimalDigits)
  | .list xs => haveShortIntegers xs
  | .pair x y => hasShortIntegers x && hasShortIntegers y
  | .set xs => haveShortIntegers xs
  | .map es => entriesHaveShortIntegers es
  | _ => true

/-- Whether every integer in some values can be written. -/
def haveShortIntegers : List Value → Bool
  | [] => true
  | x :: xs => hasShortIntegers x && haveShortIntegers xs

/-- Whether every integer in some entries can be written. -/
def entriesHaveShortIntegers : Entries → Bool
  | [] => true
  | (k, v) :: es => hasShortIntegers k && hasShortIntegers v && entriesHaveShortIntegers es

end

mutual

/-- How deep collections stand inside each other in a value. -/
def nesting : Value → Nat
  | .list xs => nestingOf xs + 1
  | .pair x y => max (nesting x) (nesting y) + 1
  | .set xs => nestingOf xs + 1
  | .map es => nestingOfEntries es + 1
  | _ => 0

/-- How deep collections stand inside some values. -/
def nestingOf : List Value → Nat
  | [] => 0
  | x :: xs => max (nesting x) (nestingOf xs)

/-- How deep collections stand inside the values of some entries. -/
def nestingOfEntries : Entries → Nat
  | [] => 0
  | (_, v) :: es => max (nesting v) (nestingOfEntries es)

end

/-- How many calls can stand inside each other from where the program is entered. -/
def callRoom : Nat := 986

/-- How many calls are needed inside the one for an algorithm: a few to compile its
    statements, if that is done and there are any. -/
def callsInside (complete : Bool) (fields : Entries) : Nat :=
  if complete && ((Value.lookupText "rules" fields).map Value.isTrue).getD false then 7 else 1

/-- The machine that the program is run on. -/
def usual : Machine where
  resolving links complete :=
    if links.zipIdx.all fun (link, n) => n + 1 + callsInside complete link.2 ≤ callRoom then none
    else some .calls
  writing value :=
    if !hasShortIntegers value then some .digits
    else if callRoom < nesting value + 9 then some .calls
    else none
  writing_text _ := rfl

end Machine

end NormalAlgorithm
