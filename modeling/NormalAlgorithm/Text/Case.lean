/-
  NormalAlgorithm.Text.Case

  Letters without regard to case, as far as the outcome is ASCII. All other
  characters stay as they are, so a text equals an ASCII word in small letters
  exactly if its lower case does.

    * `lower`: a text in small letters.
    * `fold`: a text for comparison, in which ligatures and rare forms of letters
      count as the letters that they stand for.
    * `upperChar`: a letter as a capital.
-/

namespace NormalAlgorithm.Text

/-- A letter in lower case. The Kelvin sign is a capital K. -/
def lowerChar (c : Char) : Char :=
  if 'A' ≤ c && c ≤ 'Z' then Char.ofNat (c.toNat + 32)
  else if c = '\u212A' then 'k'
  else c

/-- A letter in upper case. -/
def upperChar (c : Char) : Char := if 'a' ≤ c && c ≤ 'z' then Char.ofNat (c.toNat - 32) else c

/-- A text in lower case. -/
def lower (s : List Char) : List Char := s.map lowerChar

/-- The characters that fold to several letters of ASCII, or to another one than
    their lower case. -/
def foldings : List (Char × List Char) :=
  [('\u00DF', ['s', 's']), ('\u017F', ['s']), ('\u1E9E', ['s', 's']), ('\uFB00', ['f', 'f']),
   ('\uFB01', ['f', 'i']), ('\uFB02', ['f', 'l']), ('\uFB03', ['f', 'f', 'i']),
   ('\uFB04', ['f', 'f', 'l']), ('\uFB05', ['s', 't']), ('\uFB06', ['s', 't'])]

/-- What a character counts as in comparison. -/
def foldChar (c : Char) : List Char := (foldings.lookup c).getD [lowerChar c]

/-- A text for comparison without regard to case. -/
def fold (s : List Char) : List Char := s.flatMap foldChar

end NormalAlgorithm.Text
