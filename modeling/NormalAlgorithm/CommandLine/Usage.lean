/-
  NormalAlgorithm.CommandLine.Usage

  What can be wrong with a command line, and how it is said.

    * `Level`: the program itself or one of its commands.
    * `UsageFault`: the faults.
    * `UsageFault.report`: the text of a fault, with the usage of its level in front.
-/

import NormalAlgorithm.CommandLine.Options
import NormalAlgorithm.Text.Quoted
import NormalAlgorithm.Text.Sequence
import NormalAlgorithm.Text.Split

namespace NormalAlgorithm.CommandLine

open NormalAlgorithm.Text

/-- The program itself or one of its commands. -/
inductive Level where
  | program
  | run
  | showRules
  | check
  deriving DecidableEq, Repr

/-- The words that lead to a level. -/
def Level.path : Level → String
  | .program => "main"
  | .run => "main run"
  | .showRules => "main show"
  | .check => "main check"

/-- What a level takes. -/
def Level.pattern : Level → String
  | .program => "[OPTIONS] COMMAND [ARGS]..."
  | .run => "[OPTIONS] RULES CONTEXT"
  | .showRules => "[OPTIONS] RULES"
  | .check => "[OPTIONS] STATEMENTS..."

/-- The usage of a level. -/
def Level.usage (l : Level) : String := "Usage: " ++ l.path ++ " " ++ l.pattern

/-- What is wrong with a command line. -/
inductive UsageFault where
  | option (fault : OptionFault)
  | missingArgument (name : String)
  | noFile (path : List Char)
  | isDirectory (path : List Char)
  | notInteger (option : String) (value : List Char)
  | outOfRange (option : String) (value : Int)
  | notAChoice (option : String) (value : List Char) (choices : List String)
  | extraArguments (first : Arg) (rest : List Arg)
  /-- An unknown command, with the commands that resemble it. -/
  | unknownCommand (name : List Char) (close : List String)
  /-- A path with a NUL character, which no file can have. -/
  | impossiblePath
  | noCommand
  deriving DecidableEq, Repr

/-- A text as a quoted literal, as a string. -/
def inQuotes (s : List Char) : String := String.ofList (quoted s)

/-- Names in quotes. -/
def choicesText (choices : List String) : String :=
  String.ofList (joinWith [',', ' '] (choices.map fun c => '\'' :: c.toList ++ ['\'']))

/-- What is said of names that may have been meant. -/
def closeText : List String → String
  | [] => ""
  | [name] => " Did you mean " ++ choicesText [name] ++ "?"
  | names => " (Did you mean one of: " ++ choicesText names ++ "?)"

/-- The text of a fault with a parameter's value. -/
def invalidValue (parameter why : String) : String :=
  "Invalid value for '" ++ parameter ++ "': " ++ why

/-- The text of a fault. -/
def UsageFault.message : UsageFault → String
  | .option (.unknown name close) => "No such option " ++ inQuotes name ++ "." ++ closeText close
  | .option (.needsValue name) => "Option '" ++ name ++ "' requires an argument."
  | .option (.takesNoValue name) => "Option '" ++ name ++ "' does not take a value."
  | .missingArgument name => "Missing argument '" ++ name ++ "'."
  | .noFile path => invalidValue "RULES" ("File " ++ inQuotes path ++ " does not exist.")
  | .isDirectory path => invalidValue "RULES" ("File " ++ inQuotes path ++ " is a directory.")
  | .notInteger parameter value =>
    invalidValue parameter (inQuotes value ++ " is not a valid integer range.")
  | .outOfRange parameter value =>
    invalidValue parameter (String.ofList (decimalInt value) ++ " is not in the range x>=1.")
  | .notAChoice parameter value choices =>
    invalidValue parameter (inQuotes value ++ " is not one of " ++ choicesText choices ++ ".")
  | .extraArguments first [] =>
    "Got unexpected extra argument (" ++ String.ofList first ++ ")"
  | .extraArguments first rest =>
    "Got unexpected extra arguments (" ++ String.ofList (joinWith [' '] (first :: rest)) ++ ")"
  | .unknownCommand name close => "No such command " ++ inQuotes name ++ "." ++ closeText close
  | .impossiblePath => "A path cannot hold a NUL character"
  | .noCommand => "Missing command."

/-- Whether the usage stands in front of a fault. An option with too little or too
    much of a value is known, so the usage adds nothing. -/
def UsageFault.showsUsage : UsageFault → Bool
  | .option (.needsValue _) => false
  | .option (.takesNoValue _) => false
  | _ => true

/-- A fault as the program reports it, without control sequences. -/
def UsageFault.report (level : Level) (fault : UsageFault) : List Char :=
  (if fault.showsUsage then
    (level.usage ++ "\nTry '" ++ level.path ++ " --help' for help.\n\n").toList
   else []) ++ withoutSequences ("Error: " ++ fault.message ++ "\n").toList

end NormalAlgorithm.CommandLine
