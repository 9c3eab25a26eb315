/-
  NormalAlgorithm.Value.Member

  The order in which the members of a set are shown. Numbers stand in a table of
  slots, at the remainder of a residue that equal numbers share; a slot that is
  taken sends a number to the slots behind it and then elsewhere. Sets with other
  members keep the order in which they were given.

    * `Value.residue?`: the residue of a number.
    * `Slots.place`: a table with one more member.
    * `Value.setOf`: the set of some members.
-/

import NormalAlgorithm.Value.Equality

namespace NormalAlgorithm

open NormalAlgorithm.Number

namespace Value

/-- The prime by which residues are taken. -/
def residuePrime : Nat := Nat.pow 2 61 - 1

/-- The residue with the sign of its number; -1 stands for itself nowhere. -/
def signedResidue (negative : Bool) (r : Nat) : Int :=
  let n := if negative then -Int.ofNat r else Int.ofNat r
  if n = -1 then -2 else n

/-- The residue of a double. Two to the power of 61 leaves one, so a power of two
    counts by the remainder of its exponent. -/
def floatResidue? : Binary64 → Option Int
  | .nan => none
  | .infinite negative => some (signedResidue negative 314159)
  | .finite negative m e =>
    some (signedResidue negative (m % residuePrime * Nat.pow 2 (e.emod 61).toNat % residuePrime))

/-- The residue of a number. -/
def residue? : Value → Option Int
  | .bool b => some (if b then 1 else 0)
  | .int n => some (signedResidue (n < 0) (n.natAbs % residuePrime))
  | .float x => floatResidue? x
  | _ => none

end Value

/-! ## Slots -/

/-- A table of slots. Its size is a power of two. -/
abbrev Slots := List (Option Value)

namespace Slots

/-- The least power of two above a number, eight at least. -/
def sizeAbove (n : Nat) : Nat := max 8 (Nat.pow 2 (n.log2 + 1))

/-- A table with room for some members. -/
def withRoom (members : Nat) : Slots :=
  List.replicate (if members * 5 ≥ 7 * 3 then sizeAbove (2 * members) else 8) none

/-- The first free slot at a place or shortly behind it. Near the end of the table
    only the place itself counts. -/
def freeNear? (slots : Slots) (place : Nat) : Option Nat :=
  let reach := if place + 9 < slots.length then 10 else 1
  (List.range reach).findSome? fun n =>
    match slots[place + n]? with
    | some none => some (place + n)
    | _ => none

/-- The free slot for a member that belongs to a place. The rest of its residue, five
    bits at a time, decides where to look next. -/
def freeFrom (slots : Slots) : Nat → Nat → Nat → Nat
  | 0, _, place => place
  | fuel + 1, rest, place =>
    match slots.freeNear? place with
    | some n => n
    | none =>
      let rest := rest / 32
      freeFrom slots fuel rest ((place * 5 + 1 + rest) % slots.length)

/-- Put a member with a residue into its slot. A table that is not full has one. -/
def place (slots : Slots) (member : Value) (residue : Int) : Slots :=
  let rest := (residue.emod (Int.ofNat (Nat.pow 2 64))).toNat
  slots.set (slots.freeFrom (slots.length + 16) rest (rest % slots.length)) (some member)

end Slots

/-! ## Sets -/

/-- The set of members that differ from each other. -/
def Value.setOf (members : List Value) : Value :=
  match members.mapM fun m => m.residue?.map fun r => (m, r) with
  | some placed =>
    let slots := placed.foldl (fun slots (m, r) => slots.place m r) (Slots.withRoom members.length)
    .set (slots.filterMap id)
  | none => .set members

end NormalAlgorithm
