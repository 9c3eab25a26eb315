/-
  NormalAlgorithm.Number.Binary64

  Double precision numbers as exact data: not a number, a signed infinity, or a
  signed significand times a power of two. Arithmetic is exact followed by one
  rounding to nearest, ties to the even significand.

    * `round`: the double nearest to a quotient of natural numbers.
    * `add`, `mul`: correctly rounded sum and product.
    * `ltInt`, `geInt`, `beqInt`, `beq`: exact comparison.
    * `trunc?`, `isIntegral`: the integer part.
-/

namespace NormalAlgorithm.Number

/-- A double precision number; `finite negative m e` is `± m * 2 ^ e`. -/
inductive Binary64 where
  | nan
  | infinite (negative : Bool)
  | finite (negative : Bool) (significand : Nat) (exponent : Int)
  deriving DecidableEq, Repr, Inhabited

namespace Binary64

/-- The least exponent of a significand's last bit. -/
def minExponent : Int := -1074

/-- The greatest exponent of a significand's last bit. -/
def maxExponent : Int := 971

/-- Zero of either sign. -/
def zero (negative : Bool) : Binary64 := .finite negative 0 minExponent

/-- Multiply by two to the given power, as a fraction. -/
def scale (num den : Nat) : Int → Nat × Nat
  | .ofNat k => (num * Nat.pow 2 k, den)
  | .negSucc k => (num, den * Nat.pow 2 (k + 1))

/-- The nearest natural number to a quotient, ties to even. -/
def divNearest (num den : Nat) : Nat :=
  let q := num / den
  let r := num % den
  if 2 * r > den || (2 * r == den && q % 2 == 1) then q + 1 else q

/-- The double nearest to `± num / den`. -/
def round (negative : Bool) (num den : Nat) : Binary64 :=
  if num = 0 then zero negative else
  -- The quotient lies between `2 ^ (top - 1)` and `2 ^ (top + 1)`.
  let top : Int := Int.ofNat num.log2 - Int.ofNat den.log2
  let (n₀, d₀) := scale num den (53 - top)
  let natural := if n₀ / d₀ ≥ Nat.pow 2 53 then top - 52 else top - 53
  let e := max natural minExponent
  let (n, d) := scale num den (-e)
  let q := divNearest n d
  let (q, e) := if q = Nat.pow 2 53 then (Nat.pow 2 52, e + 1) else (q, e)
  if e > maxExponent then .infinite negative else .finite negative q e

/-- The signed fraction a finite double stands for. -/
def toFraction (negative : Bool) (m : Nat) (e : Int) : Int × Nat :=
  let (n, d) := scale m 1 e
  (if negative then -Int.ofNat n else Int.ofNat n, d)

/-- The double nearest to a signed fraction; a zero gets the given sign. -/
def ofFraction (zeroNegative : Bool) (num : Int) (den : Nat) : Binary64 :=
  if num = 0 then zero zeroNegative else round (num < 0) num.natAbs den

/-- The double nearest to an integer. -/
def ofInt (n : Int) : Binary64 := ofFraction false n 1

/-- The opposite number. -/
def neg : Binary64 → Binary64
  | .nan => .nan
  | .infinite s => .infinite (!s)
  | .finite s m e => .finite (!s) m e

/-- The rounded sum. -/
def add : Binary64 → Binary64 → Binary64
  | .nan, _ => .nan
  | _, .nan => .nan
  | .infinite a, .infinite b => if a = b then .infinite a else .nan
  | .infinite a, .finite .. => .infinite a
  | .finite .., .infinite b => .infinite b
  | .finite a m e, .finite b n f =>
    let (x, dx) := toFraction a m e
    let (y, dy) := toFraction b n f
    ofFraction (a && b) (x * dy + y * dx) (dx * dy)

/-- The rounded product. -/
def mul : Binary64 → Binary64 → Binary64
  | .nan, _ => .nan
  | _, .nan => .nan
  | .infinite a, .infinite b => .infinite (a != b)
  | .infinite a, .finite b n _ => if n = 0 then .nan else .infinite (a != b)
  | .finite a m _, .infinite b => if m = 0 then .nan else .infinite (a != b)
  | .finite a m e, .finite b n f =>
    let (x, dx) := toFraction a m e
    let (y, dy) := toFraction b n f
    ofFraction (a != b) (x * y) (dx * dy)

/-- Whether the number is below an integer; never for not-a-number. -/
def ltInt (x : Binary64) (n : Int) : Bool :=
  match x with
  | .nan => false
  | .infinite s => s
  | .finite s m e => let (a, d) := toFraction s m e; decide (a < n * d)

/-- Whether the number is an integer or above it; never for not-a-number. -/
def geInt (x : Binary64) (n : Int) : Bool :=
  match x with
  | .nan => false
  | .infinite s => !s
  | .finite s m e => let (a, d) := toFraction s m e; decide (n * d ≤ a)

/-- Whether the number equals an integer. -/
def beqInt (x : Binary64) (n : Int) : Bool :=
  match x with
  | .finite s m e => let (a, d) := toFraction s m e; decide (a = n * d)
  | _ => false

/-- Numeric equality: the two zeros are equal, not-a-number equals nothing. -/
def beq : Binary64 → Binary64 → Bool
  | .infinite a, .infinite b => a = b
  | .finite a m e, .finite b n f =>
    let (x, dx) := toFraction a m e
    let (y, dy) := toFraction b n f
    decide (x * dy = y * dx)
  | _, _ => false

/-- Whether the number is finite and has no fractional part. -/
def isIntegral : Binary64 → Bool
  | .finite s m e => let (a, d) := toFraction s m e; decide (a % d = 0)
  | _ => false

/-- The integer part, towards zero, of a finite number. -/
def trunc? : Binary64 → Option Int
  | .finite s m e => let (a, d) := toFraction s m e; some (a.tdiv d)
  | _ => none

/-- Whether the number is zero. -/
def isZero : Binary64 → Bool
  | .finite _ m _ => m = 0
  | _ => false

/-- The double nearest to `± digits * 10 ^ exponent`. Exponents far outside the
    range of doubles are settled without computing the power. -/
def ofDecimal (negative : Bool) (digits : Nat) (exponent : Int) : Binary64 :=
  if digits = 0 then zero negative else
  let size := exponent + Int.ofNat (Nat.toDigits 10 digits).length
  if size > 400 then .infinite negative
  else if size < -400 then zero negative
  else match exponent with
    | .ofNat k => round negative (digits * Nat.pow 10 k) 1
    | .negSucc k => round negative digits (Nat.pow 10 (k + 1))

end Binary64

end NormalAlgorithm.Number
