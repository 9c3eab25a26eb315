/-
  NormalAlgorithm.Report.Outcome

  What is printed of runs, rules, algorithms and checked statements, on any console.

    * `outcomeText`: how a run ended, and its result (`display_result`).
    * `traceText`: all steps of a run as a table (`display_trace`).
    * `rulesText`: numbered rules (`show`).
    * `algorithmsText`: algorithms with their descriptions, up to a name or description that
      is no text (`_print_algorithms`).
    * `checkText`: the canonical form or the fault of each statement (`check`).
-/

import NormalAlgorithm.Report.Console
import NormalAlgorithm.Runner.Result
import NormalAlgorithm.Text.Digit

namespace NormalAlgorithm.Report

open NormalAlgorithm.Text

variable (console : Console)

/-- A word as markup; the empty word shows as its mark (`_display_word`). -/
def wordMarkup (w : Word) : List Char :=
  if w.isEmpty then Markup.styled "dim" [emptyMark] else console.escape w

/-! ## Runs -/

/-- How a run ended, as markup (`TERMINATION_LABELS`). -/
def endingMarkup : Option Termination → List Char
  | some .natural => Markup.styled "green" "no rule applies".toList
  | some .explicit => Markup.styled "green" "terminating rule applied".toList
  | some .stopped => Markup.styled "yellow" "stopped".toList
  | none => Markup.styled "yellow" "running".toList

/-- How a run ended, and its result (`display_result`). -/
def outcomeText (r : RunResult) : List Char :=
  console.print ("\nHalted: ".toList ++ endingMarkup r.termination ++ " after ".toList ++
    Markup.styled "bold" (decimal r.stepCount) ++ " step(s)".toList) ++
  (if r.stalled then
    console.print (Markup.styled "yellow" "The last step made no progress.".toList)
   else []) ++
  console.print ("Result: ".toList ++ wordMarkup console r.context)

/-- The rule of a step, as markup. -/
def ruleMarkup : Option (List Char) → List Char
  | some (c :: rest) => console.escape (c :: rest)
  | _ => Markup.styled "dim" "initial".toList

/-- The row of a step. -/
def stepRow (n : Nat) (s : StepRecord) : List (List Char) :=
  [decimal n, ruleMarkup console s.rule, wordMarkup console s.context]

/-- The table of a run's steps. -/
def traceTable (r : RunResult) : Table where
  title := '\n' :: Markup.styled "bold cyan" "Steps".toList
  columns := [⟨['#'], .right⟩, ⟨"Rule".toList, .left⟩, ⟨"Context".toList, .left⟩]
  rows := r.steps.zipIdx.map fun (s, n) => stepRow console n s

/-- All steps of a run as a table (`display_trace`). -/
def traceText (r : RunResult) : List Char := console.printTable (traceTable console r)

/-! ## Rules and algorithms -/

/-- A numbered rule. -/
def ruleLine (n : Nat) (rule : Rule) : List Char :=
  console.print ([' ', ' '] ++ padLeft 3 (decimal n) ++ ['.', ' '] ++ console.escape rule.render)

/-- Rules with their numbers (`show`). -/
def rulesText (rules : List Rule) : List Char :=
  if rules.isEmpty then console.print (Markup.styled "dim" "No rules".toList)
  else
    console.print (Markup.styled "dim" (decimal rules.length ++ " rule(s):".toList)) ++
      rules.zipIdx.flatMap fun (rule, n) => ruleLine console (n + 1) rule

/-- The name of an algorithm. -/
def nameLine (name : List Char) : List Char :=
  console.print ([' ', ' '] ++ Markup.styled "cyan" ['•'] ++ [' '] ++ console.escape name)

/-- The description of an algorithm. -/
def descriptionLine (description : List Char) : List Char :=
  console.print ("    ".toList ++ Markup.styled "dim" (console.escape description))

/-- An algorithm with its description, and the value at which printing stopped, if so: only
    text can be escaped. A description that counts as false is left out. -/
def algorithmText (name description : Value) : List Char × Option Value :=
  match name.text? with
  | none => ([], some name)
  | some title =>
    if !description.isTrue then (nameLine console title, none)
    else
      match description.text? with
      | some d => (nameLine console title ++ descriptionLine console d, none)
      | none => (nameLine console title, some description)

/-- Algorithms one after the other, and the value at which printing stopped, if so. -/
def algorithmLines : List (Value × Value) → List Char × Option Value
  | [] => ([], none)
  | (name, description) :: rest =>
    match algorithmText console name description with
    | (text, some stop) => (text, some stop)
    | (text, none) =>
      let (more, stop) := algorithmLines rest
      (text ++ more, stop)

/-- What is printed in front of the algorithms of a file. -/
def listingHead (path : List Char) : List Char :=
  console.print (['\n'] ++
    Markup.styled "bold blue" ("Algorithms in ".toList ++ console.escape path) ++ ['\n'])

/-- The algorithms of a file, and the value at which printing stopped, if so
    (`_print_algorithms`). -/
def algorithmsText (path : List Char) (algorithms : List (Value × Value)) :
    List Char × Option Value :=
  let (text, stop) := algorithmLines console algorithms
  (listingHead console path ++ text, stop)

/-! ## Statements and faults -/

/-- The canonical form or the fault of a statement. -/
def statementLine (statement : List Char) : List Char :=
  match Statement.compile statement with
  | .ok rule =>
    console.print (Markup.styled "green" ['✓'] ++ [' '] ++ console.escape rule.render)
  | .error fault =>
    console.print (Markup.styled "red" ['✗'] ++ [' '] ++ console.escape fault.message.toList)

/-- The canonical form or the fault of each statement (`check`). -/
def checkText (statements : List (List Char)) : List Char :=
  statements.flatMap (statementLine console)

/-- Whether a statement has a rule. -/
def isSound (statement : List Char) : Bool := (Statement.compile statement).toOption.isSome

/-- A fault (`_fail`). -/
def faultText (message : List Char) : List Char :=
  console.print (Markup.styled "bold red" "Error:".toList ++ [' '] ++ console.escape message)

end NormalAlgorithm.Report
