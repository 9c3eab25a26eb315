/-
  NormalAlgorithm.Listing

  Listings hold one statement a line. Lines are trimmed; empty lines and lines
  that start with `#` carry no statement. A fault is reported with the number of
  its line, all lines counted from one.

    * `Listing.parse`: the rules of a listing (`parse_rules`).
    * `Listing.render`: rules as a listing, one statement a line.
-/

import NormalAlgorithm.Statement
import NormalAlgorithm.Text.Line

namespace NormalAlgorithm

open NormalAlgorithm.Text

/-- A faulty statement and the line it stands on. -/
structure ListingFault where
  line : Nat
  cause : StatementFault
  deriving Repr

/-- The text of a fault. -/
def ListingFault.message (f : ListingFault) : String :=
  "Error on line " ++ String.ofList (decimal f.line) ++ ": " ++ f.cause.message

namespace Listing

/-- Whether a trimmed line carries no statement (`_is_skipped_line`). -/
def isSkipped (line : List Char) : Bool := line.isEmpty || line.head? == some '#'

/-- The rules of trimmed or untrimmed lines, the first of which has number `n`. -/
def parseLines (n : Nat) : List (List Char) → Except ListingFault (List Rule)
  | [] => .ok []
  | line :: rest =>
    let line := trim line
    if isSkipped line then parseLines (n + 1) rest
    else
      match Statement.compile line with
      | .error cause => .error ⟨n, cause⟩
      | .ok rule =>
        match parseLines (n + 1) rest with
        | .error fault => .error fault
        | .ok rules => .ok (rule :: rules)

/-- The rules of a listing (`parse_rules`). -/
def parse (text : List Char) : Except ListingFault (List Rule) := parseLines 1 (splitLines text)

/-- Statements joined by line feeds. -/
def render : List Rule → List Char
  | [] => []
  | [r] => r.render
  | r :: rest => r.render ++ '\n' :: render rest

end Listing

end NormalAlgorithm
