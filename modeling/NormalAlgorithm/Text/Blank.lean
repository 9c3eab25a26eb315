/-
  NormalAlgorithm.Text.Blank

  Blank characters: the code points with the White_Space property and the four
  information separators U+001C to U+001F. Statements are laid out with blanks,
  and no side of a rule may hold one.

    * `isBlank`: the class.
    * `dropBlanks`, `trim`: text without its leading blanks, or without the
      blanks at both ends.
    * `unpad`: a number's text without the blanks that may stand around it.
-/

import NormalAlgorithm.Text.Ranges

namespace NormalAlgorithm.Text

/-- The blank code points. -/
def blankRanges : Ranges :=
  { entries :=
    [(0x09, 0x0D), (0x1C, 0x20), (0x85, 0x85), (0xA0, 0xA0), (0x1680, 0x1680),
     (0x2000, 0x200A), (0x2028, 0x2029), (0x202F, 0x202F), (0x205F, 0x205F),
     (0x3000, 0x3000)] }

/-- Whether a character is blank. -/
def isBlank (c : Char) : Bool := blankRanges.mem c.toNat

/-- The text after its leading blanks. -/
def dropBlanks (s : List Char) : List Char := s.dropWhile isBlank

/-- The text without the blanks at its end. -/
def dropBlanksEnd (s : List Char) : List Char := (s.reverse.dropWhile isBlank).reverse

/-- The text without the blanks at its two ends. -/
def trim (s : List Char) : List Char := dropBlanksEnd (dropBlanks s)

/-- Blanks that may stand around a number; the information separators may not. -/
def isPadding (c : Char) : Bool :=
  isBlank c && !(decide (0x1C ≤ c.toNat) && decide (c.toNat ≤ 0x1F))

/-- The text without the padding at its two ends. -/
def unpad (s : List Char) : List Char :=
  ((s.dropWhile isPadding).reverse.dropWhile isPadding).reverse

end NormalAlgorithm.Text
