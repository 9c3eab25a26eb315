/-
  NormalAlgorithm.Text.Split

  Pieces of a text between the occurrences of a character.

    * `splitOn`: the pieces, empty ones included; always at least one.
    * `joinWith`: pieces with a text between them.
-/

namespace NormalAlgorithm.Text

/-- Put a character in front of the first piece. -/
def consPiece (c : Char) : List (List Char) → List (List Char)
  | [] => [[c]]
  | piece :: rest => (c :: piece) :: rest

/-- The pieces of a text between the occurrences of a character. -/
def splitOn (separator : Char) : List Char → List (List Char)
  | [] => [[]]
  | c :: rest =>
    if c = separator then [] :: splitOn separator rest else consPiece c (splitOn separator rest)

/-- Pieces with a text between them. -/
def joinWith (between : List Char) : List (List Char) → List Char
  | [] => []
  | [piece] => piece
  | piece :: rest => piece ++ between ++ joinWith between rest

end NormalAlgorithm.Text
