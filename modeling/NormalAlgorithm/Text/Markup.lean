/-
  NormalAlgorithm.Text.Markup

  Text with style tags in brackets. A tag starts with a small letter or one of
  `#`, `/`, `@` and runs to the first closing bracket, without an opening bracket
  inside. Backslashes in front of a tag escape it: two stand for one, and an odd
  one makes the tag plain text.

    * `Markup.escape`: text whose tags are taken as text.
    * `Markup.plain`: what marked up text shows, styles left out.
-/

namespace NormalAlgorithm.Text.Markup

/-- The characters that may start a tag. -/
def startsTag (c : Char) : Bool := ('a' ≤ c && c ≤ 'z') || c = '#' || c = '/' || c = '@'

/-- The length of the tag's name that follows an opening bracket, if a tag does. -/
def tagLength? (s : List Char) : Option Nat :=
  match s with
  | [] => none
  | c :: rest =>
    let name := rest.takeWhile fun d => d != '[' && d != ']'
    if startsTag c && rest[name.length]? == some ']' then some (name.length + 1) else none

/-- Backslashes. -/
def slashes (n : Nat) : List Char := List.replicate n '\\'

/-- Text with its tags escaped, after `n` backslashes that have not been written
    yet. -/
def escapeAfter (n : Nat) (s : List Char) : List Char :=
  match s with
  | [] => slashes n
  | c :: rest =>
    if c = '\\' then escapeAfter (n + 1) rest
    else if c = '[' then
      match tagLength? rest with
      | some k =>
        slashes (2 * n + 1) ++ '[' :: rest.take (k + 1) ++ escapeAfter 0 (rest.drop (k + 1))
      | none => slashes n ++ '[' :: escapeAfter 0 rest
    else slashes n ++ c :: escapeAfter 0 rest
termination_by s.length

/-- Whether a text ends in exactly one backslash. -/
def endsInOneSlash (s : List Char) : Bool :=
  match s.reverse with
  | ['\\'] => true
  | '\\' :: c :: _ => c != '\\'
  | _ => false

/-- Text whose tags are taken as text. A single backslash at the end is doubled, so
    that it does not escape a tag put after it. -/
def escape (s : List Char) : List Char :=
  let escaped := escapeAfter 0 s
  if endsInOneSlash escaped then escaped ++ ['\\'] else escaped

/-- What marked up text shows, after `n` backslashes that have not been shown yet. A
    bracket that opens no tag takes away one backslash in front of it. -/
def plainAfter (n : Nat) (s : List Char) : List Char :=
  match s with
  | [] => slashes n
  | c :: rest =>
    if c = '\\' then plainAfter (n + 1) rest
    else if c = '[' then
      match tagLength? rest with
      | some k =>
        let tag := if n % 2 = 1 then '[' :: rest.take (k + 1) else []
        slashes (n / 2) ++ tag ++ plainAfter 0 (rest.drop (k + 1))
      | none => slashes (n - 1) ++ '[' :: plainAfter 0 rest
    else slashes n ++ c :: plainAfter 0 rest
termination_by s.length

/-- What marked up text shows. -/
def plain (s : List Char) : List Char := plainAfter 0 s

/-- Text between a style's tags. -/
def styled (style : String) (s : List Char) : List Char :=
  '[' :: style.toList ++ [']'] ++ s ++ ['[', '/'] ++ style.toList ++ [']']

end NormalAlgorithm.Text.Markup
