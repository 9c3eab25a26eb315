/-
  NormalAlgorithm.Text.Sequence

  Control sequences of terminals: an escape character, an opening bracket, any
  number of digits, semicolons and question marks, and a letter.

    * `afterSequence?`: what follows a sequence at the start of a text.
    * `withoutSequences`: a text without its sequences.
-/

namespace NormalAlgorithm.Text

/-- Whether a character may stand between the bracket and the letter. -/
def isParameter (c : Char) : Bool := c.isDigit || c = ';' || c = '?'

/-- What follows a control sequence at the start of a text. -/
def afterSequence? : List Char → Option (List Char)
  | '\x1b' :: '[' :: rest =>
    match rest.dropWhile isParameter with
    | c :: after => if c.isAlpha then some after else none
    | [] => none
  | _ => none

/-- A text without control sequences, within so many characters. -/
def withoutSequencesWithin : Nat → List Char → List Char
  | fuel + 1, c :: rest =>
    match afterSequence? (c :: rest) with
    | some after => withoutSequencesWithin fuel after
    | none => c :: withoutSequencesWithin fuel rest
  | _, _ => []

/-- A text without control sequences. -/
def withoutSequences (s : List Char) : List Char := withoutSequencesWithin s.length s

end NormalAlgorithm.Text
