/-
  NormalAlgorithm.Yaml.Load

  The value of a YAML text: its tokens, its nodes, its collections, and their value.

    * `load`: the value of a text, seen from a level on.
-/

import NormalAlgorithm.Yaml.Build
import NormalAlgorithm.Yaml.Token.Layout

namespace NormalAlgorithm.Yaml

/-- The value of a text; a text without a document is nothing. Collections from a level
    on are left out where they stand inside themselves. -/
def load (levels : Nat) (text : List Char) : Except Fault Value := do
  match ← Tree.ofTokens (scan text) with
  | none => return .null
  | some tree =>
    let graph ← Graph.ofTree tree
    return graph.unfold levels

end NormalAlgorithm.Yaml
