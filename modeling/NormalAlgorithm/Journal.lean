/-
  NormalAlgorithm.Journal

  Log records: what happened, as data, with a severity and a text each.

    * `Level`: severities, in order.
    * `Record`: the events that are logged.
    * `atLeast`: the records from a severity on, as level names and texts.
-/

import NormalAlgorithm.Rule.Basic

namespace NormalAlgorithm

open NormalAlgorithm.Text

/-- How a run came to its end (`Termination`). -/
inductive Termination where
  /-- No rule applied. -/
  | natural
  /-- A terminating rule applied. -/
  | explicit
  /-- It was halted from outside. -/
  | stopped
  deriving DecidableEq, Repr

/-- The name of a way to end. -/
def Termination.name : Termination → String
  | .natural => "natural"
  | .explicit => "explicit"
  | .stopped => "stopped"

/-- The way to end with a name. -/
def Termination.ofName? (s : List Char) : Option Termination :=
  [Termination.natural, .explicit, .stopped].find? fun t => t.name.toList == s

namespace Journal

/-- Severities of log records. -/
inductive Level where
  | debug
  | info
  | warning
  | error
  | critical
  deriving DecidableEq, Repr

/-- All severities, the least first. -/
def Level.all : List Level := [.debug, .info, .warning, .error, .critical]

/-- The name of a severity. -/
def Level.name : Level → String
  | .debug => "DEBUG"
  | .info => "INFO"
  | .warning => "WARNING"
  | .error => "ERROR"
  | .critical => "CRITICAL"

/-- The rank of a severity. -/
def Level.rank : Level → Nat
  | .debug => 0
  | .info => 1
  | .warning => 2
  | .error => 3
  | .critical => 4

/-- The severity with a name, in capitals. -/
def Level.ofName? (s : List Char) : Option Level := Level.all.find? fun l => l.name.toList == s

/-- An event worth a log record. -/
inductive Record where
  /-- Rules were read from a listing file. -/
  | loadedFile (count : Nat) (path : List Char)
  /-- Rules were read for an algorithm of a document. -/
  | loadedAlgorithm (count : Nat) (name : List Char)
  /-- A rule was applied as step `count` and left `context`. -/
  | stepped (count : Nat) (rule : Rule) (context : Word)
  /-- A step left the context as it was. -/
  | stalled (rule : Rule) (context : Word)
  /-- The run ended after `count` steps. -/
  | halted (how : Termination) (count : Nat) (context : Word)
  /-- A rule still applied when the step budget was spent. -/
  | budgetSpent (limit : Int)
  deriving DecidableEq

namespace Record

/-- The severity of a record. -/
def level : Record → Level
  | .loadedFile .. => .debug
  | .loadedAlgorithm .. => .debug
  | .stepped .. => .debug
  | .stalled .. => .warning
  | .halted .. => .info
  | .budgetSpent .. => .warning

/-- The text of a record. -/
def message : Record → String
  | .loadedFile n path =>
    "Loaded " ++ String.ofList (decimal n) ++ " rule(s) from " ++ String.ofList path
  | .loadedAlgorithm n name =>
    "Loaded " ++ String.ofList (decimal n) ++ " rule(s) for algorithm '" ++
      String.ofList name ++ "'"
  | .stepped n rule context =>
    "Step " ++ String.ofList (decimal n) ++ ": " ++ rule.text ++ " => " ++
      String.ofList (quoted context)
  | .stalled rule context =>
    "No progress: '" ++ rule.text ++ "' leaves " ++ String.ofList (quoted context) ++ " unchanged"
  | .halted how n context =>
    "Halted (" ++ how.name ++ ") after " ++ String.ofList (decimal n) ++ " step(s): " ++
      String.ofList (quoted context)
  | .budgetSpent limit =>
    "Step budget of " ++ String.ofList (decimalInt limit) ++ " exhausted, stopping"

end Record

/-- The records of a severity or above. -/
def atLeast (level : Level) (records : List Record) : List Record :=
  records.filter fun r => decide (level.rank ≤ r.level.rank)

end Journal

end NormalAlgorithm
