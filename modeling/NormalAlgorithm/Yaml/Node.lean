/-
  NormalAlgorithm.Yaml.Node

  The nodes of a document. They stand in an array and refer to each other by their
  places there, so an alias is the node itself, also inside of it.

    * `Node`: a kind, and a scalar, a sequence or a mapping.
    * `Nodes`: all nodes.
    * `Nodes.scalarText`: the text that a node has or stands for.
-/

import NormalAlgorithm.Yaml.Scalar

namespace NormalAlgorithm.Yaml

/-- The place of a node among all nodes. -/
abbrev NodeId := Nat

/-- What a node holds. -/
inductive Content where
  | scalar (text : List Char)
  | sequence (items : List NodeId)
  | mapping (entries : List (NodeId × NodeId))
  deriving DecidableEq, Repr

/-- A node. -/
structure Node where
  kind : Kind
  content : Content
  deriving DecidableEq, Repr

/-- The node of nothing. -/
def Node.empty : Node := ⟨.null, .scalar []⟩

instance : Inhabited Node := ⟨.empty⟩

/-- All nodes of a document. -/
abbrev Nodes := Array Node

namespace Nodes

/-- The kind of a node. -/
def kindAt (nodes : Nodes) (id : NodeId) : Kind := (nodes.getD id .empty).kind

/-- The content of a node. -/
def contentAt (nodes : Nodes) (id : NodeId) : Content := (nodes.getD id .empty).content

/-- The entries of a mapping; other nodes have none. -/
def entriesAt (nodes : Nodes) (id : NodeId) : List (NodeId × NodeId) :=
  match nodes.contentAt id with
  | .mapping entries => entries
  | _ => []

/-- Give a node another kind. -/
def setKind (nodes : Nodes) (id : NodeId) (kind : Kind) : Nodes :=
  nodes.modify id fun node => { node with kind := kind }

/-- Give a node another content. -/
def setContent (nodes : Nodes) (id : NodeId) (content : Content) : Nodes :=
  nodes.modify id fun node => { node with content := content }

/-- The text of a node: a scalar's own, or that of a mapping's default value. A default
    value may lead to another one, but not for ever. -/
def scalarText (nodes : Nodes) : Nat → NodeId → Except Fault (List Char)
  | 0, _ => .error .tooDeep
  | fuel + 1, id =>
    match nodes.contentAt id with
    | .scalar text => .ok text
    | .sequence _ => .error .invalid
    | .mapping entries =>
      match entries.find? fun e => nodes.kindAt e.1 == .default with
      | some (_, value) => scalarText nodes fuel value
      | none => .error .invalid

end Nodes

end NormalAlgorithm.Yaml
