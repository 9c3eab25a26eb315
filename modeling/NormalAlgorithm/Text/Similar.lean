/-
  NormalAlgorithm.Text.Similar

  Words that resemble another one. Of two words the longest common stretch is taken,
  then the longest common stretches on either side of it, and so on; the words
  resemble each other as far as they are made of these.

    * `Stretch`, `longestStretch`: a stretch that stands in two words.
    * `sharedLength`: how many characters the stretches of two words have.
    * `resembling`: the words that are closest to a word, at most three.
-/

namespace NormalAlgorithm.Text

/-! ## Common stretches -/

/-- How long two words are the same from the start. -/
def commonLength : List Char → List Char → Nat
  | a :: as, b :: bs => if a = b then commonLength as bs + 1 else 0
  | _, _ => 0

/-- A stretch that stands in two words: where it starts in each, and its length. -/
structure Stretch where
  left : Nat
  right : Nat
  length : Nat
  deriving DecidableEq, Repr

/-- The longest common stretch of two words; of several, the first in the first word,
    and then in the second. -/
def longestStretch (a b : List Char) : Stretch :=
  let starts := (List.range a.length).flatMap fun i => (List.range b.length).map fun j => (i, j)
  starts.foldl (fun best (i, j) =>
    let n := commonLength (a.drop i) (b.drop j)
    if best.length < n then ⟨i, j, n⟩ else best) ⟨0, 0, 0⟩

/-- How many characters are in common stretches. -/
def sharedLength (a b : List Char) : Nat :=
  match longestStretch a b with
  | ⟨left, right, length⟩ =>
    if _h : 0 < length ∧ left < a.length then
      sharedLength (a.take left) (b.take right) + length +
        sharedLength (a.drop (left + length)) (b.drop (right + length))
    else 0
termination_by a.length
decreasing_by
  · simp only [List.length_take]
    omega
  · simp only [List.length_drop]
    omega

/-! ## Resemblance -/

/-- A candidate with the share that it has in common with a word, as a fraction. -/
structure Candidate where
  name : String
  shared : Nat
  total : Nat
  deriving DecidableEq, Repr

namespace Candidate

/-- A candidate for a word. -/
def of (word : List Char) (name : String) : Candidate :=
  ⟨name, sharedLength name.toList word, name.length + word.length⟩

/-- Whether three fifths of both words are shared. -/
def isClose (c : Candidate) : Bool := 3 * c.total ≤ 10 * c.shared

/-- Whether a candidate comes before another one: the closer first, and of two that
    are as close, the later in the alphabet. -/
def precedes (c d : Candidate) : Bool :=
  let left := c.shared * d.total
  let right := d.shared * c.total
  right < left || (left == right && d.name ≤ c.name)

end Candidate

/-- The closest names to a word, at most three, in alphabetical order. -/
def resembling (word : List Char) (names : List String) : List String :=
  let close := (names.map (Candidate.of word)).filter Candidate.isClose
  ((close.mergeSort Candidate.precedes).take 3).map Candidate.name |>.mergeSort (· ≤ ·)

end NormalAlgorithm.Text
