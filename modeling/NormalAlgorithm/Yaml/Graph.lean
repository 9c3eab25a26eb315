/-
  NormalAlgorithm.Yaml.Graph

  The collections of a document. They refer to each other by index, so a collection
  can stand in several places, and also inside itself.

    * `Item`: a value, or a collection by its index.
    * `Graph`: all collections, and the root.
    * `Graph.unfold`: the root as a value. What stands in several places is worked out
      once; a collection inside itself is left out there.
-/

import NormalAlgorithm.Value.Member

namespace NormalAlgorithm.Yaml

/-- A value that is no collection, or a collection by its index. -/
inductive Item where
  | value (value : Value)
  | collection (index : Nat)
  deriving Repr

/-- A collection. -/
inductive Collection where
  | list (items : List Item)
  | pair (first second : Item)
  | set (members : List Value)
  | map (entries : List (Value × Item))
  deriving Repr

namespace Collection

/-- What a collection holds. -/
def items : Collection → List Item
  | .list items => items
  | .pair first second => [first, second]
  | .set _ => []
  | .map entries => entries.map Prod.snd

/-- The collection as a value, given the values of its items. -/
def fill (values : List Value) : Collection → Value
  | .list _ => .list values
  | .pair .. => .pair (values.getD 0 .null) (values.getD 1 .null)
  | .set members => .setOf members
  | .map entries => .map ((entries.map Prod.fst).zip values)

/-- The shape of a collection that stands inside itself, which a set never does. -/
def shape : Collection → Shape
  | .list _ => .list
  | .pair .. => .pair
  | .set _ => .list
  | .map _ => .map

/-- Give a key an item: in the place of an equal key, which stays, or at the end. -/
def insertEntry (key : Value) (item : Item) : List (Value × Item) → List (Value × Item)
  | [] => [(key, item)]
  | (k, i) :: es => if k.keyEq key then (k, item) :: es else (k, i) :: insertEntry key item es

end Collection

/-- The collections of a document, and its root. -/
structure Graph where
  collections : Array Collection
  root : Item

namespace Graph

/-- The collection with an index. -/
def collectionAt (g : Graph) (i : Nat) : Collection := g.collections.getD i (.list [])

/-! ## Collections without cycles -/

/-- What is known of collections: nothing, that it is being worked out or leads to a
    cycle, or its value. -/
abbrev Known := Array (Option (Option Value))

/-- The values of items, if none of them leads to a cycle. -/
def settleItems (settle : Known → Nat → Option Value × Known) :
    Known → List Item → Option (List Value) × Known
  | known, [] => (some [], known)
  | known, .value v :: rest =>
    let (values, known) := settleItems settle known rest
    (values.map (v :: ·), known)
  | known, .collection i :: rest =>
    let (value, known) := settle known i
    let (values, known) := settleItems settle known rest
    (do return (← value) :: (← values), known)

/-- The value of a collection, unless it leads to a cycle. -/
def settle (g : Graph) : Nat → Known → Nat → Option Value × Known
  | 0, known, _ => (none, known)
  | fuel + 1, known, i =>
    match known.getD i none with
    | some result => (result, known)
    | none =>
      let (values, known) := settleItems (g.settle fuel) (known.setIfInBounds i (some none))
        (g.collectionAt i).items
      let result := values.map fun values => (g.collectionAt i).fill values
      (result, known.setIfInBounds i (some result))

/-- All that can be worked out from the root. -/
def settled (g : Graph) : Known :=
  let unknown := Array.replicate g.collections.size none
  match g.root with
  | .value _ => unknown
  | .collection i => (g.settle (g.collections.size + 1) unknown i).2

/-! ## Unfolding -/

/-- The value of an item. A collection that is not worked out is unfolded; on the way
    the collections are noted, except for the first levels, and one that has been
    noted is left out. -/
def unfoldFrom (g : Graph) (known : Known) : Nat → Nat → List Nat → Item → Value
  | _, _, _, .value v => v
  | 0, _, _, .collection i => .again (g.collectionAt i).shape
  | fuel + 1, levels, noted, .collection i =>
    match known.getD i none with
    | some (some v) => v
    | _ =>
      if noted.contains i then .again (g.collectionAt i).shape
      else
        let noted := if levels = 0 then i :: noted else noted
        (g.collectionAt i).fill ((g.collectionAt i).items.map fun item =>
          g.unfoldFrom known fuel (levels - 1) noted item)

/-- The root as a value, in which every collection from a level on is seen as it is
    from there: it is left out only where it stands inside itself. -/
def unfold (g : Graph) (levels : Nat) : Value :=
  g.unfoldFrom g.settled (g.collections.size + levels + 1) levels [] g.root

end Graph

end NormalAlgorithm.Yaml
