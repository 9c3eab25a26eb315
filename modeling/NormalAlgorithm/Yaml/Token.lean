/-
  NormalAlgorithm.Yaml.Token

  The tokens of a YAML text. Indentation and keys are made explicit: a block
  collection starts and ends with tokens of its own, and every key has a mark in
  front of it, also where the text marks only the value.

    * `Token`: the kinds of tokens.
    * `Fault`: why a text has no value. All defects of form are `invalid`; the
      others are scalars of good form that stand for nothing.
-/

namespace NormalAlgorithm.Yaml

/-- Why a text has no value. -/
inductive Fault where
  /-- The text is not of the right form. -/
  | invalid
  /-- An escape names a code point past the last one. -/
  | badCodePoint
  /-- Escapes name half of a surrogate pair, which is no character. -/
  | halfPair
  /-- A code or a power is out of the range in which it can be reckoned with. -/
  | overflow
  /-- A number, date or time has no value. -/
  | badNumber
  /-- A scalar marked as a truth value is no word for one. -/
  | badFlag
  /-- A scalar marked as a time has another form. -/
  | badTime
  /-- A map stands where the text of a time is needed. -/
  | mapAsTime
  /-- A scalar marked as a number is empty. -/
  | emptyNumber
  /-- Nodes are nested too deep. -/
  | tooDeep
  deriving DecidableEq, Repr

/-- The tag of a node as written: the part that a directive can define, and the
    rest. -/
structure Tag where
  handle : Option (List Char)
  suffix : List Char
  deriving DecidableEq, Repr

/-- A directive in front of a document. -/
inductive Directive where
  | version (major minor : Nat)
  | tag (handle tagPrefix : List Char)
  | other
  deriving DecidableEq, Repr

/-- A token. -/
inductive Token where
  | directive (value : Directive)
  | documentStart
  | documentEnd
  | blockSequenceStart
  | blockMappingStart
  | blockEnd
  | flowSequenceStart
  | flowSequenceEnd
  | flowMappingStart
  | flowMappingEnd
  | flowEntry
  | blockEntry
  | key
  | value
  | alias (name : List Char)
  | anchor (name : List Char)
  | tag (value : Tag)
  /-- A scalar, and whether it stands plainly, without quotes or block marks. -/
  | scalar (text : List Char) (plain : Bool)
  deriving DecidableEq, Repr

/-- The tokens of a text. -/
structure Tokens where
  items : List Token
  /-- Why there are no more, if it is not the end of the text. -/
  fault : Option Fault

end NormalAlgorithm.Yaml
