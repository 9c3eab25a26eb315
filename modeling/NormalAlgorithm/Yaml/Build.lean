/-
  NormalAlgorithm.Yaml.Build

  Collections from nodes. A collection is first made empty, and filled after all those
  made before it; so of several faults in a document the one nearest to the root
  counts, and among those the first in the text.

    * `Build`: the nodes, what has been made of them, and the nodes that wait.
    * `Build.item`: what a node stands for.
    * `Build.fill`: fill the collection of a node.
    * `Graph.ofTree`: the graph of a document.
-/

import NormalAlgorithm.Yaml.Graph
import NormalAlgorithm.Yaml.Merge
import NormalAlgorithm.Yaml.Reading

namespace NormalAlgorithm.Yaml

/-- The state of building. -/
structure Build where
  nodes : Nodes
  /-- How many merge keys there are at most. -/
  merges : Nat
  /-- What has been made of the nodes. -/
  made : Array (Option Item)
  collections : Array Collection
  /-- The nodes whose collections are to be filled, the last first. -/
  waiting : List (NodeId × Nat)

namespace Build

/-- The state before anything is made. -/
def start (nodes : Nodes) : Build :=
  ⟨nodes, nodes.mergeCount, Array.replicate nodes.size none, #[], []⟩

/-- Note what has been made of a node. -/
def note (b : Build) (id : NodeId) (item : Item) : Build :=
  { b with made := b.made.setIfInBounds id (some item) }

/-- Add a collection. -/
def add (b : Build) (c : Collection) : Item × Build :=
  (.collection b.collections.size, { b with collections := b.collections.push c })

/-- Put a collection in the place of another one. -/
def put (b : Build) (index : Nat) (c : Collection) : Build :=
  { b with collections := b.collections.setIfInBounds index c }

/-! ## Items -/

/-- Make an empty collection for a node, which is filled later. -/
def later (b : Build) (id : NodeId) (c : Collection) : Item × Build :=
  let index := b.collections.size
  let (item, b) := b.add c
  (item, { b.note id item with waiting := (id, index) :: b.waiting })

/-- The value of a scalar, or of a mapping in the place of one. A time has to be a
    scalar itself. -/
def scalar (b : Build) (id : NodeId) (kind : Kind) : Except Fault Value := do
  let text ← b.nodes.scalarText (b.nodes.size + 1) id
  match kind, b.nodes.contentAt id with
  | .time, .mapping _ => .error .mapAsTime
  | _, _ => scalarValue id kind text

/-- What a node stands for. -/
def item (b : Build) (id : NodeId) : Except Fault (Item × Build) :=
  match b.made.getD id none with
  | some item => .ok (item, b)
  | none =>
    match b.nodes.kindAt id with
    | .sequence | .pairs => .ok (b.later id (.list []))
    | .mapping => .ok (b.later id (.map []))
    | .set => .ok (b.later id (.set []))
    | .merge | .default | .other => .error .invalid
    | kind => (b.scalar id kind).map fun v => (.value v, b.note id (.value v))

/-- What nodes stand for. -/
def items (b : Build) : List NodeId → Except Fault (List Item × Build)
  | [] => .ok ([], b)
  | id :: rest => do
    let (item, b) ← b.item id
    let (items, b) ← b.items rest
    return (item :: items, b)

/-- What a key stands for, which is no collection. -/
def key (b : Build) (id : NodeId) : Except Fault (Value × Build) := do
  match ← b.item id with
  | (.value v, b) => return (v, b)
  | (.collection _, _) => .error .invalid

/-- What entries stand for, added to those before them. -/
def entries (b : Build) (acc : List (Value × Item)) :
    List (NodeId × NodeId) → Except Fault (List (Value × Item) × Build)
  | [] => .ok (acc, b)
  | (k, v) :: rest => do
    let (key, b) ← b.key k
    let (item, b) ← b.item v
    b.entries (Collection.insertEntry key item acc) rest

/-- The pairs of mappings with one entry each. -/
def pairs (b : Build) : List NodeId → Except Fault (List Item × Build)
  | [] => .ok ([], b)
  | id :: rest =>
    match b.nodes.contentAt id with
    | .mapping [(k, v)] => do
      let (first, b) ← b.item k
      let (second, b) ← b.item v
      let (pair, b) := b.add (.pair first second)
      let (items, b) ← b.pairs rest
      return (pair :: items, b)
    | _ => .error .invalid

/-! ## Collections -/

/-- The entries of a mapping after its merge keys are resolved. -/
def mapping (b : Build) (id : NodeId) : Except Fault (List (Value × Item) × Build) :=
  match b.nodes.contentAt id with
  | .mapping _ => do
    let nodes ← b.nodes.resolveMerges b.merges id
    { b with nodes := nodes }.entries [] (nodes.entriesAt id)
  | _ => .error .invalid

/-- Fill the collection of a node. A tag that does not fit the node is a fault. -/
def fill (b : Build) (id : NodeId) (index : Nat) : Except Fault Build := do
  match b.nodes.kindAt id, b.nodes.contentAt id with
  | .sequence, .sequence ids =>
    let (items, b) ← b.items ids
    return b.put index (.list items)
  | .pairs, .sequence ids =>
    let (items, b) ← b.pairs ids
    return b.put index (.list items)
  | .mapping, _ =>
    let (entries, b) ← b.mapping id
    return b.put index (.map entries)
  | .set, _ =>
    let (entries, b) ← b.mapping id
    return b.put index (.set (entries.map Prod.fst))
  | _, _ => .error .invalid

/-- Fill the collections of some nodes. -/
def fillAll (b : Build) : List (NodeId × Nat) → Except Fault Build
  | [] => .ok b
  | (id, index) :: rest => do
    let b ← b.fill id index
    b.fillAll rest

/-- Fill all collections that wait, then those that wait after that, and so on. Every
    node waits at most once. -/
def finish : Nat → Build → Except Fault Build
  | 0, b => .ok b
  | fuel + 1, b =>
    if b.waiting.isEmpty then .ok b
    else do
      let b ← { b with waiting := [] }.fillAll b.waiting.reverse
      finish fuel b

end Build

/-- The graph of a document. -/
def Graph.ofTree (tree : Tree) : Except Fault Graph := do
  let (root, b) ← (Build.start tree.nodes).item tree.root
  let b ← b.finish (tree.nodes.size + 1)
  return ⟨b.collections, root⟩

end NormalAlgorithm.Yaml
