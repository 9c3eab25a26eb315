/-
  NormalAlgorithm.Yaml.Reading

  Nodes from tokens. Every node has a kind, given by its tag or by its form; an alias
  stands for the node with the anchor, which has to come before it. A collection has
  its anchor before its items are read, so it can stand inside itself.

    * `Reading`: the tokens that are left, and the nodes so far.
    * `Reading.node`: the next node.
    * `Tree.ofTokens`: the nodes of a text's only document; a text without a
      document has none.
-/

import NormalAlgorithm.Yaml.Node

namespace NormalAlgorithm.Yaml

/-- The tokens that are left, and what the nodes before them defined. -/
structure Reading where
  tokens : List Token
  /-- Why there are no more tokens, if it is not the end of the text. -/
  fault : Option Fault
  /-- What the handles of tags stand for. -/
  handles : List (List Char × List Char)
  /-- The nodes with anchors. -/
  anchors : List (List Char × NodeId)
  nodes : Nodes
  /-- How many collections are open. -/
  depth : Nat

namespace Reading

/-- The handles that are always defined. -/
def standardHandles : List (List Char × List Char) :=
  [(['!'], ['!']), (['!', '!'], standardTag)]

/-- The start of a text. -/
def start (tokens : Tokens) : Reading := ⟨tokens.items, tokens.fault, standardHandles, [], #[], 0⟩

/-- How many collections can be open. -/
def maxDepth : Nat := 487

/-! ## Tokens -/

/-- The fault of a token in the wrong place, or of the tokens' end. -/
def unexpected (r : Reading) : Fault :=
  match r.tokens with
  | [] => r.fault.getD .invalid
  | _ => .invalid

/-- Look at the next token, which is there unless a fault stands in its place. -/
def look (r : Reading) : Except Fault Unit :=
  match r.tokens, r.fault with
  | [], some fault => .error fault
  | _, _ => .ok ()

/-- Pass over a token. -/
def next (r : Reading) : Reading := { r with tokens := r.tokens.tail }

/-- Whether the next token is one of some. -/
def isAt (r : Reading) (choices : List Token) : Bool :=
  r.tokens.head?.any fun t => choices.contains t

/-! ## Properties -/

/-- The properties of a node as written. -/
structure Properties where
  anchor : Option (List Char)
  tag : Option Tag

/-- The properties in front of a node, in either order. After one of them the next
    token is looked at, since it may be the other. -/
def properties (r : Reading) : Except Fault (Properties × Reading) :=
  match r.tokens with
  | .anchor a :: .tag t :: rest => .ok (⟨some a, some t⟩, { r with tokens := rest })
  | .tag t :: .anchor a :: rest => .ok (⟨some a, some t⟩, { r with tokens := rest })
  | .anchor a :: _ => r.next.look.map fun _ => (⟨some a, none⟩, r.next)
  | .tag t :: _ => r.next.look.map fun _ => (⟨none, some t⟩, r.next)
  | _ => .ok (⟨none, none⟩, r)

/-- The full name of a tag. -/
def tagName (r : Reading) (tag : Tag) : Except Fault (List Char) :=
  match tag.handle with
  | none => .ok tag.suffix
  | some handle =>
    match r.handles.find? (·.1 == handle) with
    | some (_, meaning) => .ok (meaning ++ tag.suffix)
    | none => .error .invalid

/-- The kind that a node's tag gives it, if it gives any; the tag `!` gives none. -/
def tagKind (r : Reading) : Option Tag → Except Fault (Option Kind)
  | none => .ok none
  | some tag => (r.tagName tag).map fun name => if name = ['!'] then none else some (kindOfTag name)

/-- Check that an anchor is new. -/
def checkAnchor (r : Reading) : Option (List Char) → Except Fault Unit
  | none => .ok ()
  | some a => if r.anchors.any (·.1 == a) then .error .invalid else .ok ()

/-- Let an anchor stand for a node. -/
def setAnchor (r : Reading) (anchor : Option (List Char)) (id : NodeId) : Reading :=
  match anchor with
  | none => r
  | some a => { r with anchors := (a, id) :: r.anchors }

/-- The node of an alias. -/
def aliased (r : Reading) (name : List Char) : Except Fault NodeId :=
  match r.anchors.find? (·.1 == name) with
  | some (_, id) => .ok id
  | none => .error .invalid

/-- The kind of a scalar: its tag's, or else its form's if it stands plainly or has
    the tag `!`. -/
def scalarKind (kind : Option Kind) (tagged plain : Bool) (text : List Char) : Kind :=
  match kind with
  | some kind => kind
  | none => if plain || tagged then kindOf text else .text

/-! ## New nodes -/

/-- Add a node. -/
def add (r : Reading) (anchor : Option (List Char)) (node : Node) : NodeId × Reading :=
  let id := r.nodes.size
  (id, { r with nodes := r.nodes.push node }.setAnchor anchor id)

/-- Add the node of nothing. -/
def addEmpty (r : Reading) : NodeId × Reading := r.add none .empty

/-- Add a scalar. -/
def addScalar (r : Reading) (props : Properties) (kind : Option Kind) (plain : Bool)
    (text : List Char) : NodeId × Reading :=
  r.add props.anchor ⟨scalarKind kind props.tag.isSome plain text, .scalar text⟩

/-- Add a collection, and then read its content. -/
def addCollection (r : Reading) (anchor : Option (List Char)) (kind : Kind)
    (read : Reading → Except Fault (Content × Reading)) : Except Fault (NodeId × Reading) :=
  if maxDepth ≤ r.depth then .error .tooDeep
  else do
    let (id, inner) := r.add anchor ⟨kind, .sequence []⟩
    let (content, inner) ← read { inner with depth := r.depth + 1 }
    return (id, { inner with depth := r.depth, nodes := inner.nodes.setContent id content })

/-- A result of reading items. -/
abbrev Items := Except Fault (List NodeId × Reading)

/-- A result of reading entries. -/
abbrev Entries := Except Fault (List (NodeId × NodeId) × Reading)

/-- Items as the content of a sequence. -/
def asSequence (items : Items) : Except Fault (Content × Reading) :=
  items.map fun (items, r) => (.sequence items, r)

/-- Entries as the content of a mapping. -/
def asMapping (entries : Entries) : Except Fault (Content × Reading) :=
  entries.map fun (entries, r) => (.mapping entries, r)

/-! ## Nodes -/

mutual

/-- A node. Block collections are allowed in blocks, and sequences without
    indentation where a mapping's key or value stands. -/
def node (block indentless : Bool) : Nat → Reading → Except Fault (NodeId × Reading)
  | 0, _ => .error .invalid
  | fuel + 1, r =>
    match r.tokens with
    | .alias name :: _ => (r.aliased name).map fun id => (id, r.next)
    | _ => do
      let (props, r) ← r.properties
      let kind ← r.tagKind props.tag
      r.look
      r.checkAnchor props.anchor
      content block indentless props kind fuel r

/-- A node after its properties. -/
def content (block indentless : Bool) (props : Properties) (kind : Option Kind) :
    Nat → Reading → Except Fault (NodeId × Reading)
  | 0, _ => .error .invalid
  | fuel + 1, r =>
    match r.tokens, block, indentless with
    | .blockEntry :: _, _, true =>
      r.addCollection props.anchor (kind.getD .sequence) fun r =>
        asSequence (indentlessItems fuel r [])
    | .scalar text plain :: _, _, _ => .ok (r.next.addScalar props kind plain text)
    | .flowSequenceStart :: _, _, _ =>
      r.addCollection props.anchor (kind.getD .sequence) fun r =>
        asSequence (flowItems true fuel r.next [])
    | .flowMappingStart :: _, _, _ =>
      r.addCollection props.anchor (kind.getD .mapping) fun r =>
        asMapping (flowEntries true fuel r.next [])
    | .blockSequenceStart :: _, true, _ =>
      r.addCollection props.anchor (kind.getD .sequence) fun r =>
        asSequence (blockItems fuel r.next [])
    | .blockMappingStart :: _, true, _ =>
      r.addCollection props.anchor (kind.getD .mapping) fun r =>
        asMapping (blockEntries fuel r.next [])
    | _, _, _ =>
      if props.anchor.isSome || props.tag.isSome then
        .ok (r.addScalar props kind true [])
      else .error r.unexpected

/-- The items of a block sequence. -/
def blockItems : Nat → Reading → List NodeId → Items
  | 0, _, _ => .error .invalid
  | fuel + 1, r, acc =>
    match r.tokens with
    | .blockEntry :: _ => do
      let (n, r) ← optional [.blockEntry, .blockEnd] true false fuel r.next
      blockItems fuel r (n :: acc)
    | .blockEnd :: _ => .ok (acc.reverse, r.next)
    | _ => .error r.unexpected

/-- The items of a sequence that is not indented further than the mapping around
    it. -/
def indentlessItems : Nat → Reading → List NodeId → Items
  | 0, _, _ => .error .invalid
  | fuel + 1, r, acc =>
    match r.tokens with
    | .blockEntry :: _ => do
      let (n, r) ← optional [.blockEntry, .key, .value, .blockEnd] true false fuel r.next
      indentlessItems fuel r (n :: acc)
    | _ => .ok (acc.reverse, r)

/-- The entries of a block mapping. -/
def blockEntries : Nat → Reading → List (NodeId × NodeId) → Entries
  | 0, _, _ => .error .invalid
  | fuel + 1, r, acc =>
    match r.tokens with
    | .key :: _ => do
      let (k, r) ← optional [.key, .value, .blockEnd] true true fuel r.next
      let (v, r) ← valueAfter [.key, .value, .blockEnd] true fuel r
      blockEntries fuel r ((k, v) :: acc)
    | .blockEnd :: _ => .ok (acc.reverse, r.next)
    | _ => .error r.unexpected

/-- A node, or nothing in front of certain tokens. -/
def optional (stops : List Token) (block indentless : Bool) :
    Nat → Reading → Except Fault (NodeId × Reading)
  | 0, _ => .error .invalid
  | fuel + 1, r => if r.isAt stops then .ok r.addEmpty else node block indentless fuel r

/-- The value of an entry after its key; without a value mark it is nothing. -/
def valueAfter (stops : List Token) (block : Bool) :
    Nat → Reading → Except Fault (NodeId × Reading)
  | 0, _ => .error .invalid
  | fuel + 1, r =>
    match r.tokens with
    | .value :: _ => optional stops block block fuel r.next
    | _ => .ok r.addEmpty

/-- The items of a flow sequence; an item with a key is a mapping of one entry. -/
def flowItems (first : Bool) : Nat → Reading → List NodeId → Items
  | 0, _, _ => .error .invalid
  | fuel + 1, r, acc =>
    match r.tokens, first with
    | .flowSequenceEnd :: _, _ => .ok (acc.reverse, r.next)
    | .flowEntry :: _, false => flowItem fuel r.next acc
    | _, true => flowItem fuel r acc
    | _, false => .error r.unexpected

/-- An item of a flow sequence and the items after it; a comma may stand before the
    end. -/
def flowItem : Nat → Reading → List NodeId → Items
  | 0, _, _ => .error .invalid
  | fuel + 1, r, acc =>
    match r.tokens with
    | .flowSequenceEnd :: _ => .ok (acc.reverse, r.next)
    | .key :: _ => do
      let (n, r) ← r.addCollection none .mapping fun r => singleEntry fuel r.next
      flowItems false fuel r (n :: acc)
    | _ => do
      let (n, r) ← node false false fuel r
      flowItems false fuel r (n :: acc)

/-- The entry of a mapping that is an item of a flow sequence. -/
def singleEntry : Nat → Reading → Except Fault (Content × Reading)
  | 0, _ => .error .invalid
  | fuel + 1, r => do
    let (k, r) ← optional [.value, .flowEntry, .flowSequenceEnd] false false fuel r
    let (v, r) ← valueAfter [.flowEntry, .flowSequenceEnd] false fuel r
    return (.mapping [(k, v)], r)

/-- The entries of a flow mapping. -/
def flowEntries (first : Bool) : Nat → Reading → List (NodeId × NodeId) → Entries
  | 0, _, _ => .error .invalid
  | fuel + 1, r, acc =>
    match r.tokens, first with
    | .flowMappingEnd :: _, _ => .ok (acc.reverse, r.next)
    | .flowEntry :: _, false => flowPair fuel r.next acc
    | _, true => flowPair fuel r acc
    | _, false => .error r.unexpected

/-- An entry of a flow mapping and the entries after it; a node without a key mark
    is a key without a value. -/
def flowPair : Nat → Reading → List (NodeId × NodeId) → Entries
  | 0, _, _ => .error .invalid
  | fuel + 1, r, acc =>
    match r.tokens with
    | .flowMappingEnd :: _ => .ok (acc.reverse, r.next)
    | .key :: _ => do
      let (k, r) ← optional [.value, .flowEntry, .flowMappingEnd] false false fuel r.next
      let (v, r) ← valueAfter [.flowEntry, .flowMappingEnd] false fuel r
      flowEntries false fuel r ((k, v) :: acc)
    | _ => do
      let (k, r) ← node false false fuel r
      let (v, r) := r.addEmpty
      flowEntries false fuel r ((k, v) :: acc)

end

/-! ## Documents -/

/-- The directives in front of a document: at most one version, which has to be
    1.x, and at most one meaning for a handle. -/
def directives : Nat → Reading → Bool → List (List Char × List Char) → Except Fault Reading
  | 0, _, _, _ => .error .invalid
  | fuel + 1, r, versioned, handles =>
    match r.tokens with
    | .directive (.version major _) :: _ =>
      if versioned || major ≠ 1 then .error .invalid else directives fuel r.next true handles
    | .directive (.tag handle meaning) :: _ =>
      if handles.any (·.1 == handle) then .error .invalid
      else directives fuel r.next versioned (handles ++ [(handle, meaning)])
    | .directive .other :: _ => directives fuel r.next versioned handles
    | _ => .ok { r with handles := handles ++ standardHandles }

/-- Enough for any nesting of the tokens that are left. -/
def enough (r : Reading) : Nat := 4 * r.tokens.length + 8

/-- The content of a document after its mark. -/
def documentContent (r : Reading) : Except Fault (NodeId × Reading) :=
  match r.tokens, r.fault with
  | [], none => .ok r.addEmpty
  | .directive _ :: _, _ => .ok r.addEmpty
  | .documentStart :: _, _ => .ok r.addEmpty
  | .documentEnd :: _, _ => .ok r.addEmpty
  | _, _ => node true false r.enough r

/-- The place after the directives and the mark of a document. -/
def documentMark (r : Reading) : Except Fault Reading := do
  let r ← directives r.enough r false []
  match r.tokens with
  | .documentStart :: _ => return r.next
  | _ => .error r.unexpected

/-- A document with its mark, after its directives. -/
def explicitDocument (r : Reading) : Except Fault (NodeId × Reading) := do
  let r ← r.documentMark
  documentContent r

/-- The first document. -/
def document (r : Reading) : Except Fault (NodeId × Reading) :=
  match r.tokens with
  | .directive _ :: _ => r.explicitDocument
  | .documentStart :: _ => r.explicitDocument
  | _ => node true false r.enough r

/-- What follows the only document: nothing but end marks. Another document is read up
    to its mark. -/
def atEnd (r : Reading) : Except Fault Unit :=
  let r := { r with tokens := r.tokens.dropWhile (· == Token.documentEnd) }
  match r.tokens, r.fault with
  | [], none => .ok ()
  | _, _ => do
    let _ ← r.documentMark
    .error .invalid

end Reading

/-- The nodes of a document and its root. -/
structure Tree where
  nodes : Nodes
  root : NodeId

/-- The nodes of the only document. -/
def Tree.ofTokens (tokens : Tokens) : Except Fault (Option Tree) :=
  match tokens.items, tokens.fault with
  | [], none => .ok none
  | _, _ => do
    let (root, r) ← (Reading.start tokens).document
    r.atEnd
    return some ⟨r.nodes, root⟩

end NormalAlgorithm.Yaml
