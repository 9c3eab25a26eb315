/-
  NormalAlgorithm.Yaml.Token.Layout

  The tokens of a whole text. Indentation opens and closes block collections. A
  scalar, a property or a flow collection may turn out to be a key when a value
  mark follows on the same line: its place among the tokens is remembered, and the
  tokens of the key are put there afterwards.

    * `Layout`: the tokens so far and what decides about the next.
    * `scan`: all tokens of a text, and the fault that ended them, if any.
-/

import NormalAlgorithm.Yaml.Token.Property
import NormalAlgorithm.Yaml.Token.Quoted

namespace NormalAlgorithm.Yaml

/-- A place among the tokens where a key may start. -/
structure PossibleKey where
  /-- The number of tokens before it. -/
  place : Nat
  /-- Whether nothing but a key can stand there. -/
  required : Bool
  line : Nat
  column : Nat
  index : Nat
  deriving Repr

/-- The state of the layout. -/
structure Layout where
  cursor : Cursor
  tokens : Array Token
  /-- The column of the innermost block, or -1 outside all blocks. -/
  indent : Int
  /-- The columns of the blocks around it. -/
  outer : List Int
  /-- How many flow collections are open. -/
  flow : Nat
  /-- Whether a key may start here. -/
  keyAllowed : Bool
  /-- The possible keys, at most one for each number of open flow collections. -/
  keys : List (Nat × PossibleKey)

namespace Layout

/-- The layout before the first token. -/
def start (text : List Char) : Layout := ⟨.start text, #[], -1, [], 0, true, []⟩

/-- Whether a flow collection is open. -/
def inFlow (l : Layout) : Bool := l.flow != 0

/-- Add a token. -/
def push (l : Layout) (t : Token) : Layout := { l with tokens := l.tokens.push t }

/-- Add a token that is one character of the text. -/
def pushMark (l : Layout) (t : Token) : Layout := { l.push t with cursor := l.cursor.advance }

/-! ## Possible keys -/

/-- The possible key of the innermost open collection. -/
def currentKey? (l : Layout) : Option PossibleKey :=
  (l.keys.find? (·.1 == l.flow)).map Prod.snd

/-- Forget the possible key of the innermost open collection, without a look at it. -/
def forgetKey (l : Layout) : Layout := { l with keys := l.keys.filter (·.1 != l.flow) }

/-- Give up the possible key of the innermost open collection; one that has to be a
    key is a fault. -/
def dropKey (l : Layout) : Except Fault Layout :=
  match l.currentKey? with
  | some key => if key.required then .error .invalid else .ok l.forgetKey
  | none => .ok l

/-- A key ends on its line and is not longer than 1024 characters. -/
def isStale (l : Layout) (key : PossibleKey) : Bool :=
  key.line != l.cursor.line || decide (l.cursor.index > key.index + 1024)

/-- Give up the possible keys that have become too old. -/
def dropStaleKeys (l : Layout) : Except Fault Layout :=
  if l.keys.any fun e => l.isStale e.2 && e.2.required then .error .invalid
  else .ok { l with keys := l.keys.filter fun e => !l.isStale e.2 }

/-- How many tokens are certain: those before the first place where a key may still
    start. -/
def certain (l : Layout) : Nat :=
  let live := l.keys.filter fun e => e.2.required || !l.isStale e.2
  live.foldl (fun n e => min n e.2.place) l.tokens.size

/-- Remember that a key may start here. -/
def noteKey (l : Layout) : Except Fault Layout :=
  if !l.keyAllowed then .ok l
  else
    match l.dropKey with
    | .error fault => .error fault
    | .ok l =>
      let required := !l.inFlow && l.indent == Int.ofNat l.cursor.column
      let key : PossibleKey :=
        ⟨l.tokens.size, required, l.cursor.line, l.cursor.column, l.cursor.index⟩
      .ok { l with keys := (l.flow, key) :: l.keys }

/-! ## Indentation -/

/-- Close blocks until the innermost is not indented past a column. -/
def closeBlocks (column : Int) : List Int → Layout → Layout
  | [], l => l
  | enclosing :: more, l =>
    if l.indent > column then
      closeBlocks column more ({ l with indent := enclosing, outer := more }.push .blockEnd)
    else l

/-- Close the blocks indented past a column; inside flow collections columns mean
    nothing. -/
def unindent (l : Layout) (column : Int) : Layout :=
  if l.inFlow then l else closeBlocks column l.outer l

/-- Open a block at a column, if it is indented further than the innermost one: its
    token goes to a place among the tokens. -/
def openBlock (l : Layout) (column place : Nat) (t : Token) : Layout :=
  if l.indent < Int.ofNat column then
    { l with indent := Int.ofNat column, outer := l.indent :: l.outer,
             tokens := l.tokens.insertIdxIfInBounds place t }
  else l

/-! ## Tokens -/

/-- The place of the next token: blanks, comments and line breaks are passed over,
    and after a line break a key may start unless a flow collection is open. -/
def skipToToken : Nat → Layout → Layout
  | 0, l => l
  | fuel + 1, l =>
    let c := l.cursor.skipBlanks.skipComment
    match c.lineBreak? with
    | some (_, c) =>
      skipToToken fuel { l with cursor := c, keyAllowed := l.keyAllowed || !l.inFlow }
    | none => { l with cursor := c }

/-- Pass over a byte order mark at the start of the text. -/
def skipOrderMark (l : Layout) : Layout :=
  if l.cursor.index = 0 && l.cursor.peek = some '\uFEFF' then { l with cursor := l.cursor.advance }
  else l

/-- The end of the text closes all blocks. -/
def finish (l : Layout) : Except Fault Layout := (l.unindent (-1)).dropKey

/-- A directive. -/
def addDirective (l : Layout) : Except Fault Layout := do
  let l ← (l.unindent (-1)).dropKey
  let (directive, c) ← directiveOf l.cursor
  return { l.push (.directive directive) with keyAllowed := false, cursor := c }

/-- A document mark. -/
def addDocumentMark (l : Layout) (t : Token) : Except Fault Layout := do
  let l ← (l.unindent (-1)).dropKey
  return { l.push t with keyAllowed := false, cursor := l.cursor.skip 3 }

/-- The start of a flow collection. -/
def openFlow (l : Layout) (t : Token) : Except Fault Layout := do
  let l ← l.noteKey
  return { l.pushMark t with flow := l.flow + 1, keyAllowed := true }

/-- The end of a flow collection, of which one has to be open. -/
def closeFlow (l : Layout) (t : Token) : Except Fault Layout := do
  let l ← l.dropKey
  if l.flow = 0 then .error .invalid
  else return { l.pushMark t with flow := l.flow - 1, keyAllowed := false }

/-- A comma in a flow collection. -/
def addFlowEntry (l : Layout) : Except Fault Layout := do
  let l ← l.dropKey
  return { l.pushMark .flowEntry with keyAllowed := true }

/-- Open a block at the next token; outside flow collections that is allowed only
    where a key is. -/
def openBlockHere (l : Layout) (t : Token) : Except Fault Layout :=
  if l.inFlow then .ok l
  else if !l.keyAllowed then .error .invalid
  else .ok (l.openBlock l.cursor.column l.tokens.size t)

/-- An item of a block sequence. -/
def addBlockEntry (l : Layout) : Except Fault Layout := do
  let l ← l.openBlockHere .blockSequenceStart
  let l ← l.dropKey
  return { l.pushMark .blockEntry with keyAllowed := true }

/-- A key with its mark. -/
def addKey (l : Layout) : Except Fault Layout := do
  let l ← l.openBlockHere .blockMappingStart
  let l ← l.dropKey
  return { l.pushMark .key with keyAllowed := !l.inFlow }

/-- The value of the key that starts at a remembered place. -/
def addValueOf (l : Layout) (key : PossibleKey) : Layout :=
  let l := l.forgetKey
  let l := { l with tokens := l.tokens.insertIdxIfInBounds key.place .key, keyAllowed := false }
  let l := if l.inFlow then l else l.openBlock key.column key.place .blockMappingStart
  l.pushMark .value

/-- A value with its mark. -/
def addValue (l : Layout) : Except Fault Layout :=
  match l.currentKey? with
  | some key => .ok (l.addValueOf key)
  | none => do
    let l ← l.openBlockHere .blockMappingStart
    return { l.pushMark .value with keyAllowed := !l.inFlow }

/-- A token that may be a key, read from the text. -/
def addWord (l : Layout) (read : Layout → Except Fault (Token × Cursor)) : Except Fault Layout := do
  let l ← l.noteKey
  let (t, c) ← read l
  return { l.push t with cursor := c, keyAllowed := false }

/-- A plain scalar. -/
def addPlain (l : Layout) : Except Fault Layout := do
  let l ← l.noteKey
  let (text, crossed, c) := plainScalar l.inFlow (l.indent + 1).toNat l.cursor
  return { l.push (.scalar text true) with cursor := c, keyAllowed := crossed }

/-- A block scalar. -/
def addBlockScalar (l : Layout) (folded : Bool) : Except Fault Layout := do
  let l ← l.dropKey
  let (text, c) ← blockScalar folded (max 1 (l.indent + 1).toNat) l.cursor
  return { l.push (.scalar text false) with cursor := c, keyAllowed := true }

/-- A quoted scalar. -/
def addQuoted (l : Layout) (quote : Char) : Except Fault Layout :=
  l.addWord fun l => do
    let (codes, c) ← quotedScalar quote l.cursor
    return (← quotedToken codes, c)

/-- The characters that start no plain scalar by themselves. -/
def isIndicator (c : Char) : Bool := "-?:,[]\x7b\x7d#&*!|>'\"%@\x60".toList.contains c

/-- Whether a plain scalar starts with a character. -/
def startsPlain (l : Layout) (ch : Char) : Bool :=
  !(isIndicator ch || endsWord (some ch)) ||
    (!endsWord (l.cursor.peekAt 1) && (ch = '-' || (!l.inFlow && (ch = '?' || ch = ':'))))

/-- The next token, which starts with the given character. -/
def addToken (l : Layout) (ch : Char) : Except Fault Layout :=
  let c := l.cursor
  let atStart := c.column = 0
  let wordEnds := endsWord (c.peekAt 1)
  if ch = '%' && atStart then l.addDirective
  else if atStart && c.atMark '-' then l.addDocumentMark .documentStart
  else if atStart && c.atMark '.' then l.addDocumentMark .documentEnd
  else if ch = '[' then l.openFlow .flowSequenceStart
  else if ch = '\x7b' then l.openFlow .flowMappingStart
  else if ch = ']' then l.closeFlow .flowSequenceEnd
  else if ch = '\x7d' then l.closeFlow .flowMappingEnd
  else if ch = ',' then l.addFlowEntry
  else if ch = '-' && wordEnds then l.addBlockEntry
  else if ch = '?' && (l.inFlow || wordEnds) then l.addKey
  else if ch = ':' && (l.inFlow || wordEnds) then l.addValue
  else if ch = '*' then l.addWord fun l => (anchorName l.cursor).map fun (n, c) => (.alias n, c)
  else if ch = '&' then l.addWord fun l => (anchorName l.cursor).map fun (n, c) => (.anchor n, c)
  else if ch = '!' then l.addWord fun l => (tagOf l.cursor).map fun (t, c) => (.tag t, c)
  else if ch = '|' && !l.inFlow then l.addBlockScalar false
  else if ch = '>' && !l.inFlow then l.addBlockScalar true
  else if ch = '\'' || ch = '"' then l.addQuoted ch
  else if l.startsPlain ch then l.addPlain
  else .error .invalid

/-- The layout after the next token, and whether the text has ended. -/
def next (l : Layout) : Except Fault (Bool × Layout) := do
  let l := skipToToken l.cursor.room l.skipOrderMark
  let l ← l.dropStaleKeys
  let l := l.unindent (Int.ofNat l.cursor.column)
  match l.cursor.peek with
  | none => return (true, ← l.finish)
  | some ch => return (false, ← l.addToken ch)

end Layout

/-- The tokens from a layout on. In front of a fault only those count that are certain
    already. -/
def scanFrom : Nat → Layout → Tokens
  | 0, l => ⟨l.tokens.toList, some .invalid⟩
  | fuel + 1, l =>
    match l.next with
    | .error fault => ⟨l.tokens.toList.take l.certain, some fault⟩
    | .ok (true, l) => ⟨l.tokens.toList, none⟩
    | .ok (false, l) => scanFrom fuel l

/-- The tokens of a text. Every token takes at least one character. -/
def scan (text : List Char) : Tokens :=
  if text.all isAllowed then scanFrom (text.length + 2) (.start text) else ⟨[], some .invalid⟩

end NormalAlgorithm.Yaml
