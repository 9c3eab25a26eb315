/-
  NormalAlgorithm.Yaml.Token.Property

  Names and tags of nodes, and directives in front of documents.

    * `anchorName`: the name after an anchor or alias mark.
    * `tagOf`: a tag.
    * `directiveOf`: a directive with the rest of its line.
-/

import NormalAlgorithm.Number.Integer
import NormalAlgorithm.Text.Digit
import NormalAlgorithm.Yaml.Token.Block

namespace NormalAlgorithm.Yaml

open NormalAlgorithm.Number NormalAlgorithm.Text

/-- A name of letters, digits, hyphens and underscores, at least one. -/
def name? (c : Cursor) : Option (List Char × Cursor) :=
  let name := c.takeWhile isNameChar
  if name.isEmpty then none else some (name, c.skip name.length)

/-- What may follow an anchor or alias. -/
def endsAnchor (next : Option Char) : Bool :=
  endsWord next || next.any fun c => "?:,]\x7d%@\x60".toList.contains c

/-- The name after an anchor or alias mark. -/
def anchorName (c : Cursor) : Except Fault (List Char × Cursor) :=
  match name? c.advance with
  | some (name, c) => if endsAnchor c.peek then .ok (name, c) else .error .invalid
  | none => .error .invalid

/-! ## Tags -/

/-- The characters of a tag, percent signs included. -/
def isTagChar (c : Char) : Bool := isNameChar c || ";/?:@&=+$,.!~*'()[]%".toList.contains c

/-- The bytes of percent escapes from here on. -/
def percentBytes : Nat → Cursor → List UInt8 → Except Fault (List UInt8 × Cursor)
  | 0, c, acc => .ok (acc, c)
  | fuel + 1, c, acc =>
    match c.rest with
    | '%' :: a :: b :: _ =>
      match hexDigit? a, hexDigit? b with
      | some x, some y => percentBytes fuel (c.skip 3) (acc ++ [UInt8.ofNat (16 * x + y)])
      | _, _ => .error .invalid
    | '%' :: _ => .error .invalid
    | _ => .ok (acc, c)

/-- The text of percent escapes from here on. -/
def percentText (c : Cursor) : Except Fault (List Char × Cursor) :=
  match percentBytes c.room c [] with
  | .error fault => .error fault
  | .ok (bytes, c) =>
    match String.fromUTF8? ⟨bytes.toArray⟩ with
    | some s => .ok (s.toList, c)
    | none => .error .invalid

/-- The characters of a tag from here on. -/
def tagText : Nat → Cursor → List Char → Except Fault (List Char × Cursor)
  | 0, c, acc => .ok (acc, c)
  | fuel + 1, c, acc =>
    if c.peek = some '%' then
      match percentText c with
      | .ok (text, c) => tagText fuel c (acc ++ text)
      | .error fault => .error fault
    else
      match c.peek with
      | some ch => if isTagChar ch then tagText fuel c.advance (acc ++ [ch]) else .ok (acc, c)
      | none => .ok (acc, c)

/-- The characters of a tag from here on, at least one. -/
def someTagText (c : Cursor) : Except Fault (List Char × Cursor) :=
  match tagText c.room c [] with
  | .ok (text, after) => if after.index = c.index then .error .invalid else .ok (text, after)
  | .error fault => .error fault

/-- A tag handle: a mark alone, or a name between two marks. -/
def tagHandle (c : Cursor) : Except Fault (List Char × Cursor) :=
  if c.peek ≠ some '!' then .error .invalid
  else if c.peekAt 1 = some ' ' then .ok (['!'], c.advance)
  else
    let name := c.advance.takeWhile isNameChar
    let after := c.advance.skip name.length
    if after.peek = some '!' then .ok ('!' :: name ++ ['!'], after.advance) else .error .invalid

/-- A tag before the check of what follows it. -/
def tagParts (c : Cursor) : Except Fault (Tag × Cursor) :=
  if c.peekAt 1 = some '<' then
    match someTagText (c.skip 2) with
    | .error fault => .error fault
    | .ok (text, c) => if c.peek = some '>' then .ok (⟨none, text⟩, c.advance) else .error .invalid
  else if endsWord (c.peekAt 1) then .ok (⟨none, ['!']⟩, c.advance)
  else
    let word := c.advance.takeWhile fun ch => !(ch == ' ' || isBreak ch)
    let handle := if word.contains '!' then tagHandle c else .ok (['!'], c.advance)
    match handle with
    | .error fault => .error fault
    | .ok (handle, c) => (someTagText c).map fun (suffix, c) => (⟨some handle, suffix⟩, c)

/-- A tag. -/
def tagOf (c : Cursor) : Except Fault (Tag × Cursor) :=
  match tagParts c with
  | .error fault => .error fault
  | .ok (tag, c) => if endsItem c.peek then .ok (tag, c) else .error .invalid

/-! ## Directives -/

/-- A number of one or more digits, but not too many. -/
def versionNumber (c : Cursor) : Except Fault (Nat × Cursor) :=
  match (c.takeWhile Char.isDigit).mapM asciiDigit? with
  | some (d :: ds) =>
    if maxDecimalDigits ≤ ds.length then .error .badNumber
    else .ok (ofDigits 10 (d :: ds), c.skip (ds.length + 1))
  | _ => .error .invalid

/-- The value of a version directive. -/
def versionOf (c : Cursor) : Except Fault (Directive × Cursor) :=
  match versionNumber c.skipBlanks with
  | .error fault => .error fault
  | .ok (major, c) =>
    if c.peek ≠ some '.' then .error .invalid
    else
      match versionNumber c.advance with
      | .error fault => .error fault
      | .ok (minor, c) =>
        if endsItem c.peek then .ok (.version major minor, c) else .error .invalid

/-- The value of a tag directive. -/
def tagDirectiveOf (c : Cursor) : Except Fault (Directive × Cursor) :=
  match tagHandle c.skipBlanks with
  | .error fault => .error fault
  | .ok (handle, c) =>
    if c.peek ≠ some ' ' then .error .invalid
    else
      match someTagText c.skipBlanks with
      | .error fault => .error fault
      | .ok (text, c) => if endsItem c.peek then .ok (.tag handle text, c) else .error .invalid

/-- A directive with the rest of its line. -/
def directiveOf (c : Cursor) : Except Fault (Directive × Cursor) :=
  match name? c.advance with
  | none => .error .invalid
  | some (name, c) =>
    if !endsItem c.peek then .error .invalid
    else
      let value := if name = "YAML".toList then versionOf c
        else if name = "TAG".toList then tagDirectiveOf c
        else .ok (.other, c.skipWhile (!isBreak ·))
      match value with
      | .error fault => .error fault
      | .ok (directive, c) => (restOfLine c).map fun c => (directive, c)

end NormalAlgorithm.Yaml
