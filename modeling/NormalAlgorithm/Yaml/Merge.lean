/-
  NormalAlgorithm.Yaml.Merge

  Merge keys. The value of a merge key is a mapping or a sequence of mappings, whose
  entries the mapping around it takes over. They come first, so the mapping's own
  win, and of a sequence the last mapping's come first.

    * `Nodes.takeMerge?`: the first merge key of a mapping, taken out of it.
    * `Nodes.resolveMerges`: a mapping without merge keys.
-/

import NormalAlgorithm.Yaml.Node

namespace NormalAlgorithm.Yaml.Nodes

/-- Whether an entry has a merge key. -/
def isMerge (nodes : Nodes) (entry : NodeId × NodeId) : Bool := nodes.kindAt entry.1 == .merge

/-- The value of the first merge key of a mapping, and the nodes with its entry taken
    out. -/
def takeMerge? (nodes : Nodes) (id : NodeId) : Option (NodeId × Nodes) :=
  let entries := nodes.entriesAt id
  match entries.dropWhile fun e => !nodes.isMerge e with
  | [] => none
  | (_, value) :: rest =>
    let before := entries.takeWhile fun e => !nodes.isMerge e
    some (value, nodes.setContent id (.mapping (before ++ rest)))

/-- Let the default keys of a mapping be text. -/
def textKeys (nodes : Nodes) (id : NodeId) : Nodes :=
  (nodes.entriesAt id).foldl
    (fun nodes e => if nodes.kindAt e.1 == .default then nodes.setKind e.1 .text else nodes) nodes

/-- Put entries in front of those of a mapping. -/
def addInFront (nodes : Nodes) (id : NodeId) (entries : List (NodeId × NodeId)) : Nodes :=
  if entries.isEmpty then nodes
  else nodes.setContent id (.mapping (entries ++ nodes.entriesAt id))

/-- Resolve the mappings in a sequence: their entries, those of the last mapping
    first. -/
def mergeItems (resolve : Nodes → NodeId → Except Fault Nodes) (nodes : Nodes) :
    List NodeId → Except Fault (List (NodeId × NodeId) × Nodes)
  | [] => .ok ([], nodes)
  | item :: rest =>
    match nodes.contentAt item with
    | .mapping _ => do
      let nodes ← resolve nodes item
      let entries := nodes.entriesAt item
      let (more, nodes) ← mergeItems resolve nodes rest
      return (more ++ entries, nodes)
    | _ => .error .invalid

/-- Resolve the value of a merge key: the entries that are taken over. -/
def mergeValue (resolve : Nodes → NodeId → Except Fault Nodes) (nodes : Nodes) (value : NodeId) :
    Except Fault (List (NodeId × NodeId) × Nodes) :=
  match nodes.contentAt value with
  | .mapping _ => (resolve nodes value).map fun nodes => (nodes.entriesAt value, nodes)
  | .sequence items => mergeItems resolve nodes items
  | .scalar _ => .error .invalid

/-- Resolve the merge keys of a mapping, given the entries taken over so far. Every key
    is taken out before its value is looked at, so mappings that merge each other
    come to an end. -/
def resolveFrom : Nat → List (NodeId × NodeId) → Nodes → NodeId → Except Fault Nodes
  | 0, _, _, _ => .error .tooDeep
  | fuel + 1, merged, nodes, id =>
    match nodes.takeMerge? id with
    | none => .ok ((nodes.textKeys id).addInFront id merged)
    | some (value, nodes) => do
      let (more, nodes) ← mergeValue (resolveFrom fuel []) nodes value
      resolveFrom fuel (merged ++ more) nodes id

/-- How many merge keys there are. -/
def mergeCount (nodes : Nodes) : Nat :=
  nodes.foldl (fun n node =>
    match node.content with
    | .mapping entries => n + entries.countP nodes.isMerge
    | _ => n) 0

/-- Resolve the merge keys of a mapping. There are at most so many in all nodes. -/
def resolveMerges (nodes : Nodes) (merges : Nat) (id : NodeId) : Except Fault Nodes :=
  resolveFrom (merges + 1) [] nodes id

end NormalAlgorithm.Yaml.Nodes
