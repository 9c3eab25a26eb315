/-
  NormalAlgorithm.CommandLine.Action

  What a command line can ask for.

    * `RunOptions`: how to run an algorithm.
    * `Action`: the commands `run`, `show` and `check` with their arguments.
    * `Request`: what to do, and which log records to keep.
-/

import NormalAlgorithm.Journal

namespace NormalAlgorithm.CommandLine

/-- An argument. -/
abbrev Arg := List Char

/-- How to run an algorithm. What is not given comes from the settings. -/
structure RunOptions where
  algorithm : Option (List Char)
  maxSteps : Option { n : Nat // 1 ≤ n }
  stopOnStall : Option Bool
  unbounded : Bool
  trace : Bool
  json : Bool
  deriving DecidableEq, Repr

/-- What to do. -/
inductive Action where
  | run (path context : List Char) (options : RunOptions)
  | showRules (path : List Char) (algorithm : Option (List Char))
  | listAlgorithms (path : List Char)
  | check (statements : List (List Char))
  /-- Show a help text. -/
  | help (text : List Char)
  deriving DecidableEq, Repr

/-- A request. -/
structure Request where
  logLevel : Journal.Level
  action : Action
  deriving DecidableEq, Repr

/-- Why a command line is no request. -/
inductive Unread where
  /-- It is refused with this text. -/
  | refused (text : List Char)
  /-- A path in it holds a NUL character, which no file can have. -/
  | impossiblePath
  deriving DecidableEq, Repr

end NormalAlgorithm.CommandLine
