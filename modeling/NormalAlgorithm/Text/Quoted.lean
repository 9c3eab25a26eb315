/-
  NormalAlgorithm.Text.Quoted

  Text as a quoted literal. The quote is `'`, or `"` when the text holds `'` and
  no `"`. The quote in use and the backslash are escaped; tab, line feed and
  carriage return are written `\t`, `\n`, `\r`; any other unprintable character
  is written `\x`, `\u` or `\U` with two, four or eight hexadecimal digits.
-/

import NormalAlgorithm.Text.Digit
import NormalAlgorithm.Text.Printable

namespace NormalAlgorithm.Text

/-- The quote that needs the fewest escapes, `'` preferred. -/
def quoteFor (s : List Char) : Char :=
  if s.contains '\'' && !s.contains '"' then '"' else '\''

/-- One character inside a literal with the given quote. -/
def quoteChar (quote c : Char) : List Char :=
  if c = quote || c = '\\' then ['\\', c]
  else if c = '\t' then ['\\', 't']
  else if c = '\n' then ['\\', 'n']
  else if c = '\r' then ['\\', 'r']
  else if isPrintable c then [c]
  else if c.toNat < 0x100 then '\\' :: 'x' :: hexDigits 2 c.toNat
  else if c.toNat < 0x10000 then '\\' :: 'u' :: hexDigits 4 c.toNat
  else '\\' :: 'U' :: hexDigits 8 c.toNat

/-- The quoted literal of a text. -/
def quoted (s : List Char) : List Char :=
  let quote := quoteFor s
  quote :: s.flatMap (quoteChar quote) ++ [quote]

end NormalAlgorithm.Text
