/-
  NormalAlgorithm.Document

  Algorithm documents. A document is a map whose `algorithms` are a map from names
  to algorithms. An algorithm has `rules`, a list of statements, and may extend
  another one, whose rules come first; it may have a `description`.

    * `Document.chain`: an algorithm and those it extends, one after the other.
    * `Document.resolve`: the rules of an algorithm, the inherited ones first
      (`_resolve_extends`), as far as the machine does not give out.
    * `Document.rules`: the same for a whole document.
    * `Document.descriptions`: all names with their descriptions.
-/

import NormalAlgorithm.Machine
import NormalAlgorithm.Statement
import NormalAlgorithm.Text.Split
import NormalAlgorithm.Value.Equality

namespace NormalAlgorithm

open NormalAlgorithm.Text

/-- What is wrong with a document. -/
inductive DocumentFault where
  | notMap
  | noAlgorithms
  | algorithmsNotMap
  /-- The algorithm asked for is not there; these are. -/
  | unknown (name : Value) (available : List (List Char))
  /-- An algorithm extends one that is not there. -/
  | unknownParent (name : Value)
  /-- An algorithm extends itself, directly or through others. -/
  | circular (name : Value)
  | bodyNotMap (name : Value)
  | rulesNotList (name : Value)
  | badStatement (name : Value) (number : Nat) (cause : StatementFault)
  /-- A name is of a kind that cannot be used. -/
  | badName
  /-- The machine gave out. -/
  | gaveOut (shortage : Shortage)
  deriving Repr

/-- A name inside a message. -/
def nameInQuotes (name : Value) : String := "'" ++ String.ofList name.display ++ "'"

namespace DocumentFault

/-- The text of a fault. -/
def message : DocumentFault → String
  | .notMap => "YAML file must contain a dictionary"
  | .noAlgorithms => "YAML file missing 'algorithms' key"
  | .algorithmsNotMap => "'algorithms' must be a dictionary"
  | .unknown name available =>
    "Algorithm " ++ nameInQuotes name ++ " not found. Available algorithms: " ++
      String.ofList (joinWith [',', ' '] available)
  | .unknownParent name =>
    "Algorithm " ++ nameInQuotes name ++ " not found (referenced by 'extends')"
  | .circular name => "Circular dependency detected in algorithm " ++ nameInQuotes name
  | .bodyNotMap name => "Algorithm " ++ nameInQuotes name ++ " must be a dictionary"
  | .rulesNotList name => "Algorithm " ++ nameInQuotes name ++ ": 'rules' must be a list"
  | .badStatement name number cause =>
    "Error in algorithm " ++ nameInQuotes name ++ ", rule " ++
      String.ofList (decimal number) ++ ": " ++
      cause.message
  | .badName => "Unsupported algorithm name"
  | .gaveOut shortage => shortage.message

/-- Whether a fault is one of those that a user is told of (`MalformedStatement`). -/
def isReported : DocumentFault → Bool
  | .badName | .gaveOut _ => false
  | _ => true

/-- The values that the text of a fault is written with. -/
def values : DocumentFault → List Value
  | .unknown name _ | .unknownParent name | .circular name | .bodyNotMap name
  | .rulesNotList name => [name]
  | .badStatement name _ cause => cause.values ++ [name]
  | _ => []

/-- The fault that is raised for a fault: its text has to be written first. -/
def raised (m : Machine) (f : DocumentFault) : DocumentFault :=
  match m.writingAll f.values with
  | some shortage => .gaveOut shortage
  | none => f

end DocumentFault

namespace Document

/-- The algorithms of a document (`_validate_algorithms_structure`). -/
def algorithms : Value → Except DocumentFault Entries
  | .map entries =>
    match Value.lookupText "algorithms" entries with
    | none => .error .noAlgorithms
    | some (.map algorithms) => .ok algorithms
    | some _ => .error .algorithmsNotMap
  | _ => .error .notMap

/-- Check that an algorithm is there (`_validate_algorithms_structure`). If it is not, all
    names are listed, which have to be text. -/
def require (algorithms : Entries) (name : Value) : Except DocumentFault Unit :=
  if !name.isKey then .error .badName
  else
    match Value.lookup name algorithms with
    | some _ => .ok ()
    | none =>
      match algorithms.mapM fun e => e.1.text? with
      | some names => .error (.unknown name names)
      | none => .error .badName

/-- The fields of an algorithm; a value that counts as false has none. -/
def fieldsOf (name body : Value) : Except DocumentFault Entries :=
  if !body.isTrue then .ok []
  else
    match body with
    | .map fields => .ok fields
    | _ => .error (.bodyNotMap name)

/-! ## Inheritance -/

/-- An algorithm and those it extends, the nearest first, and why there are no more,
    if it is not that the last one extends nothing. -/
structure Chain where
  links : List (Value × Entries)
  fault : Option DocumentFault

/-- The chain from a name on, which must not reach a name that it has passed. So it is
    never longer than there are algorithms. -/
def chainFrom (algorithms : Entries) : Nat → List Value → Value → Chain
  | 0, _, name => ⟨[], some (.circular name)⟩
  | fuel + 1, passed, name =>
    if !name.isKey then ⟨[], some .badName⟩
    else if passed.any (·.keyEq name) then ⟨[], some (.circular name)⟩
    else
      match Value.lookup name algorithms with
      | none => ⟨[], some (.unknownParent name)⟩
      | some body =>
        match fieldsOf name body with
        | .error fault => ⟨[], some fault⟩
        | .ok fields =>
          match Value.lookupText "extends" fields with
          | none => ⟨[(name, fields)], none⟩
          | some parent =>
            let rest := chainFrom algorithms fuel (name :: passed) parent
            ⟨(name, fields) :: rest.links, rest.fault⟩

/-- An algorithm and those it extends, the nearest first. -/
def chain (algorithms : Entries) (name : Value) : Chain :=
  chainFrom algorithms (algorithms.length + 1) [] name

/-- The rules of statements, the first of which has number `n`. -/
def compileAll (name : Value) (n : Nat) : List Value → Except DocumentFault (List Rule)
  | [] => .ok []
  | statement :: rest =>
    match Statement.compileValue statement with
    | .error cause => .error (.badStatement name n cause)
    | .ok rule =>
      match compileAll name (n + 1) rest with
      | .error fault => .error fault
      | .ok rules => .ok (rule :: rules)

/-- The rules that an algorithm has of its own; a value that counts as false holds
    none (`_parse_yaml_statements`). -/
def ownRules (name : Value) (fields : Entries) : Except DocumentFault (List Rule) :=
  match Value.lookupText "rules" fields with
  | none => .ok []
  | some statements =>
    if !statements.isTrue then .ok []
    else
      match statements with
      | .list items => compileAll name 1 items
      | _ => .error (.rulesNotList name)

/-- The rules of several algorithms, one after the other. -/
def allRules : List (Value × Entries) → Except DocumentFault (List Rule)
  | [] => .ok []
  | (name, fields) :: rest =>
    match ownRules name fields with
    | .error fault => .error fault
    | .ok rules =>
      match allRules rest with
      | .error fault => .error fault
      | .ok more => .ok (rules ++ more)

/-- The rules of a chain, those of its far end first. -/
def Chain.rules (c : Chain) : Except DocumentFault (List Rule) :=
  match c.fault with
  | some fault => .error fault
  | none => allRules c.links.reverse

/-- What comes of an answer that a chain leads to: the machine may give out on the way, or
    when it writes the fault. -/
def Chain.answered (m : Machine) (c : Chain) (answer : Except DocumentFault (List Rule)) :
    Except DocumentFault (List Rule) :=
  match m.resolving c.links c.fault.isNone with
  | some shortage => .error (.gaveOut shortage)
  | none => answer.mapError (·.raised m)

/-- The rules of an algorithm, the inherited ones first (`_resolve_extends`). -/
def resolve (m : Machine) (algorithms : Entries) (name : Value) :
    Except DocumentFault (List Rule) :=
  (chain algorithms name).answered m (chain algorithms name).rules

/-! ## Documents -/

/-- The rules of a document's algorithm (`parse_yaml_algorithms_file`). -/
def rules (m : Machine) (document name : Value) : Except DocumentFault (List Rule) :=
  match algorithms document with
  | .error fault => .error fault
  | .ok algorithms =>
    match require algorithms name with
    | .error fault => .error (fault.raised m)
    | .ok _ => resolve m algorithms name

/-- The description of an algorithm; without one it is empty text. -/
def description : Value → Value
  | .map fields => (Value.lookupText "description" fields).getD (.text [])
  | _ => .text []

/-- The names of all algorithms with their descriptions (`list_yaml_algorithms`). -/
def descriptions : Value → Except DocumentFault (List (Value × Value))
  | .map entries =>
    match Value.lookupText "algorithms" entries with
    | some (.map algorithms) => .ok (algorithms.map fun e => (e.1, description e.2))
    | _ => .error .noAlgorithms
  | _ => .error .noAlgorithms

end Document

end NormalAlgorithm
