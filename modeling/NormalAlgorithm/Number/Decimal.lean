/-
  NormalAlgorithm.Number.Decimal

  Doubles in decimal.

    * `readDecimal?`: the double nearest to a decimal numeral.
    * `shortest`: the fewest digits that read back as the same double, and of
      those the nearest to it, with the place of the point.
    * `Binary64.text`: the digits with a point for values from `10 ^ -4` up to
      `10 ^ 16`, with an exponent of at least two digits outside; a whole number
      keeps `.0`.
-/

import NormalAlgorithm.Number.Binary64
import NormalAlgorithm.Text.Digit

namespace NormalAlgorithm.Number

open NormalAlgorithm.Text

/-! ## Reading -/

/-- The leading ASCII digits of a text, as values, and the rest. -/
def spanDigits : List Char → List Nat × List Char
  | [] => ([], [])
  | c :: rest =>
    match asciiDigit? c with
    | some d => let (ds, tail) := spanDigits rest; (d :: ds, tail)
    | none => ([], c :: rest)

/-- An optional sign: whether it was a minus, and the rest. -/
def readSign : List Char → Bool × List Char
  | '-' :: rest => (true, rest)
  | '+' :: rest => (false, rest)
  | s => (false, s)

/-- A decimal exponent after its mark: sign, then one or more digits. -/
def readExponent? (s : List Char) : Option (Int × List Char) :=
  let (negative, s) := readSign s
  let (ds, rest) := spanDigits s
  if ds.isEmpty then none
  else
    let n := Int.ofNat (ofDigits 10 ds)
    some (if negative then -n else n, rest)

/-- An unsigned numeral: digits with an optional point and an optional exponent,
    at least one digit before or after the point. -/
def readDecimal? (negative : Bool) (s : List Char) : Option Binary64 :=
  let (whole, s) := spanDigits s
  let (part, s) := match s with
    | '.' :: rest => spanDigits rest
    | _ => ([], s)
  if whole.isEmpty && part.isEmpty then none else
  let digits := ofDigits 10 (whole ++ part)
  let shift := -Int.ofNat part.length
  match s with
  | [] => some (.ofDecimal negative digits shift)
  | c :: rest =>
    if c = 'e' || c = 'E' then
      match readExponent? rest with
      | some (e, []) => some (.ofDecimal negative digits (shift + e))
      | _ => none
    else none

/-! ## Writing -/

/-- The place of the point: the least `k` with `num / den < 10 ^ k`, for a
    positive fraction not below `10 ^ -400`. -/
def pointPlace (num den : Nat) : Int :=
  if den ≤ num then Int.ofNat (Nat.toDigits 10 (num / den)).length
  else
    match (List.range 400).find? fun j => decide (den ≤ num * Nat.pow 10 (j + 1)) with
    | some j => -Int.ofNat j
    | none => -400

/-- The two sides of the comparison of `c * 10 ^ g` with `x / den`. -/
def gridCompare (c : Nat) (g : Int) (x den : Nat) : Nat × Nat :=
  match g with
  | .ofNat k => (c * Nat.pow 10 k * den, x)
  | .negSucc k => (c * den, x * Nat.pow 10 (k + 1))

/-- The multiple of `10 ^ g` next to `x / den` from below. -/
def gridFloor (g : Int) (x den : Nat) : Nat :=
  match g with
  | .ofNat k => x / (den * Nat.pow 10 k)
  | .negSucc k => x * Nat.pow 10 (k + 1) / den

/-- Whether `c * 10 ^ g` reads back as the double whose rounding interval runs
    from `lo / den` to `hi / den`. -/
def inInterval (closed : Bool) (lo hi den c : Nat) (g : Int) : Bool :=
  let (a, l) := gridCompare c g lo den
  let (b, h) := gridCompare c g hi den
  if closed then decide (l ≤ a) && decide (b ≤ h) else decide (l < a) && decide (b < h)

/-- The better of the two grid neighbours of a double that read back as it: the
    nearer one, and on a tie the even one. -/
def nearestHit? (closed : Bool) (lo x hi den : Nat) (g : Int) : Option Nat :=
  let c := gridFloor g x den
  match inInterval closed lo hi den c g && decide (c ≠ 0),
    inInterval closed lo hi den (c + 1) g with
  | false, false => none
  | true, false => some c
  | false, true => some (c + 1)
  | true, true =>
    let (a, v) := gridCompare c g x den
    let (b, _) := gridCompare (c + 1) g x den
    if v - a < b - v then some c
    else if b - v < v - a then some (c + 1)
    else if c % 2 = 0 then some c else some (c + 1)

/-- The least number of digits, tried upwards from `n`, for which a grid
    neighbour reads back: that neighbour and the number of digits. -/
def searchDigits (closed : Bool) (lo x hi den : Nat) (point : Int) : Nat → Nat → Nat × Nat
  | 0, n => (gridFloor (point - Int.ofNat n) x den, n)
  | fuel + 1, n =>
    match nearestHit? closed lo x hi den (point - Int.ofNat n) with
    | some c => (c, n)
    | none => searchDigits closed lo x hi den point fuel (n + 1)

/-- Digits without trailing zeros. -/
def dropTrailingZeros (ds : List Char) : List Char :=
  (ds.reverse.dropWhile (· == '0')).reverse

/-- The shortest digits of a positive double `m * 2 ^ e`, and the place of the
    point before the first of them. -/
def shortest (m : Nat) (e : Int) : List Char × Int :=
  -- In quarters of the last place the rounding interval has whole ends.
  let lowGap := if m = Nat.pow 2 52 && e > Binary64.minExponent then 1 else 2
  let (x, den) := Binary64.scale (4 * m) 1 (e - 2)
  let (lo, _) := Binary64.scale (4 * m - lowGap) 1 (e - 2)
  let (hi, _) := Binary64.scale (4 * m + 2) 1 (e - 2)
  let point := pointPlace x den
  let (c, n) := searchDigits (m % 2 == 0) lo x hi den point 17 1
  let ds := decimal c
  -- A neighbour that reaches the next power of ten has one digit more.
  (dropTrailingZeros ds, point - Int.ofNat n + Int.ofNat ds.length)

/-- An exponent: its sign and at least two digits. -/
def exponentText (e : Int) : List Char :=
  let ds := decimal e.natAbs
  (if e < 0 then '-' else '+') :: (if ds.length < 2 then '0' :: ds else ds)

/-- Digits with the point at the given place, the format's choice between
    positional and exponent form included. -/
def placePoint (ds : List Char) (place : Int) : List Char :=
  if -4 < place ∧ place ≤ 16 then
    if place ≤ 0 then ['0', '.'] ++ List.replicate (-place).toNat '0' ++ ds
    else
      let k := place.toNat
      if ds.length ≤ k then ds ++ List.replicate (k - ds.length) '0' ++ ['.', '0']
      else ds.take k ++ ['.'] ++ ds.drop k
  else
    match ds with
    | [] => []
    | [d] => d :: 'e' :: exponentText (place - 1)
    | d :: rest => d :: '.' :: rest ++ 'e' :: exponentText (place - 1)

/-- A double in decimal. -/
def Binary64.text : Binary64 → List Char
  | .nan => ['n', 'a', 'n']
  | .infinite s => (if s then ['-'] else []) ++ ['i', 'n', 'f']
  | .finite s m e =>
    (if s then ['-'] else []) ++
      if m = 0 then ['0', '.', '0'] else let (ds, place) := shortest m e; placePoint ds place

end NormalAlgorithm.Number
