/-
  NormalAlgorithm.CommandLine.Request

  Command lines read as requests. Options are looked at in the order in which they
  were given, then the arguments in theirs, and arguments that are too many last; the
  first fault counts.

    * `Request.parse`: the request of a command line, or a fault and where it was found.
    * `Request.read`: the same with the fault as a text.
-/

import NormalAlgorithm.CommandLine.Usage
import NormalAlgorithm.File.Basic
import NormalAlgorithm.Journal
import NormalAlgorithm.Number.Integer
import NormalAlgorithm.Text.Case

namespace NormalAlgorithm.CommandLine

open NormalAlgorithm.File NormalAlgorithm.Number NormalAlgorithm.Text

/-- A fault with the level at which it was found. -/
structure LevelFault where
  level : Level
  fault : UsageFault
  deriving DecidableEq, Repr

/-! ## Values -/

/-- A value that has to be one of some choices, in any case. -/
def readChoice (option : String) (choices : List String) (value : List Char) :
    Except UsageFault (List Char) :=
  if choices.any fun c => c.toList == fold value then .ok (fold value)
  else .error (.notAChoice option value choices)

/-- A number of steps. -/
def readSteps (value : List Char) : Except UsageFault { n : Nat // 1 ≤ n } :=
  match readInteger? 10 value with
  | none => .error (.notInteger "--max-steps" value)
  | some n =>
    if h : 1 ≤ n.toNat then .ok ⟨n.toNat, h⟩ else .error (.outOfRange "--max-steps" n)

/-- The output formats. -/
def formats : List String := ["console", "json"]

/-- The log levels. -/
def logLevels : List String := ["debug", "info", "warning", "error", "critical"]

/-- The fault of an option's last value, if it has one. -/
def valueFault? (o : Options) (name : String) : Option UsageFault :=
  match o.value? name with
  | none => none
  | some value =>
    let faultOf {α : Type} : Except UsageFault α → Option UsageFault
      | .error fault => some fault
      | .ok _ => none
    if name = "--max-steps" then faultOf (readSteps value)
    else if name = "--format" then faultOf (readChoice name formats value)
    else if name = "--log-level" then faultOf (readChoice name logLevels value)
    else none

/-- Check the values of options in the order in which they were given. -/
def checkValues (o : Options) : Except UsageFault Unit :=
  match o.names.findSome? (valueFault? o) with
  | some fault => .error fault
  | none => .ok ()

/-- The path of a file that is there. -/
def readPath (files : Files) (path : List Char) : Except UsageFault (List Char) :=
  if path.contains '\x00' then .error .impossiblePath else
  match files path with
  | .missing | .tooLong => .error (.noFile path)
  | .directory => .error (.isDirectory path)
  | .file _ => .ok path

/-- Refuse arguments that are too many. -/
def refuseExtra : List Arg → Except UsageFault Unit
  | [] => .ok ()
  | first :: rest => .error (.extraArguments first rest)

/-! ## Commands -/

/-- The help text of a level. -/
def helpText (level : Level) : List Char := level.usage.toList ++ ['\n']

/-- The option that shows the usage. -/
def helpSpec : OptionSpec := ⟨"--help", false⟩

/-- The options of the program. -/
def programSpecs : List OptionSpec := [⟨"--log-level", true⟩, helpSpec]

/-- The options of `run`. -/
def runSpecs : List OptionSpec :=
  [⟨"--algorithm", true⟩, ⟨"--max-steps", true⟩, ⟨"--stop-on-stall", false⟩,
   ⟨"--no-stop-on-stall", false⟩, ⟨"--unbounded", false⟩, ⟨"--trace", false⟩, ⟨"--format", true⟩,
   helpSpec]

/-- The options of `show`. -/
def showSpecs : List OptionSpec := [⟨"--algorithm", true⟩, ⟨"--list-algorithms", false⟩, helpSpec]

/-- The options of `check`. -/
def checkSpecs : List OptionSpec := [helpSpec]

/-- The options of a level with the arguments, and whether the usage is asked for. -/
def readOptions (specs : List OptionSpec) (anywhere : Bool) (args : List Arg) :
    Except UsageFault Options :=
  (Options.parse specs anywhere args).mapError .option

/-- The options that say how to run. -/
def runOptions (o : Options) : RunOptions where
  algorithm := o.value? "--algorithm"
  maxSteps := (o.value? "--max-steps").bind fun v => (readSteps v).toOption
  stopOnStall := o.switch? "--stop-on-stall" "--no-stop-on-stall"
  unbounded := o.has "--unbounded"
  trace := o.has "--trace"
  json := (o.value? "--format").map fold == some "json".toList

/-- The command `run`. -/
def parseRun (files : Files) (args : List Arg) : Except UsageFault Action := do
  let o ← readOptions runSpecs true args
  if o.has "--help" then return .help (helpText .run)
  checkValues o
  match o.arguments with
  | [] => .error (.missingArgument "RULES")
  | path :: rest =>
    let path ← readPath files path
    match rest with
    | [] => .error (.missingArgument "CONTEXT")
    | context :: extra =>
      refuseExtra extra
      return .run path context (runOptions o)

/-- The command `show`. -/
def parseShow (files : Files) (args : List Arg) : Except UsageFault Action := do
  let o ← readOptions showSpecs true args
  if o.has "--help" then return .help (helpText .showRules)
  match o.arguments with
  | [] => .error (.missingArgument "RULES")
  | path :: extra =>
    let path ← readPath files path
    refuseExtra extra
    return if o.has "--list-algorithms" then .listAlgorithms path
      else .showRules path (o.value? "--algorithm")

/-- The command `check`. -/
def parseCheck (args : List Arg) : Except UsageFault Action := do
  let o ← readOptions checkSpecs true args
  if o.has "--help" then return .help (helpText .check)
  if o.arguments.isEmpty then .error (.missingArgument "STATEMENTS...")
  else return .check o.arguments

/-- The options of the program, with the command and its arguments left. -/
def parseProgram (args : List Arg) : Except UsageFault Options := do
  let o ← readOptions programSpecs false args
  if !o.has "--help" then checkValues o
  return o

/-- The log level asked for, or else warnings and above. -/
def logLevelOf (o : Options) : Journal.Level :=
  ((o.value? "--log-level").bind fun v =>
    Journal.Level.all.find? fun l => lower l.name.toList == fold v).getD .warning

/-- The fault of an unknown command. -/
def unknownCommand (name : Arg) : LevelFault :=
  ⟨.program, .unknownCommand name (resembling name ["check", "run", "show"])⟩

/-- A command by its name. An unknown name that looks like options is read as those
    first. -/
def parseCommand (files : Files) (name : Arg) (args : List Arg) : Except LevelFault Action :=
  if name = "run".toList then (parseRun files args).mapError (⟨.run, ·⟩)
  else if name = "show".toList then (parseShow files args).mapError (⟨.showRules, ·⟩)
  else if name = "check".toList then (parseCheck args).mapError (⟨.check, ·⟩)
  else if name.head? = some '-' then
    match parseProgram (name :: args) with
    | .error fault => .error ⟨.program, fault⟩
    | .ok o =>
      if o.has "--help" then .ok (.help (helpText .program)) else .error (unknownCommand name)
  else .error (unknownCommand name)

/-- The request of a command line. -/
def Request.parse (files : Files) (args : List Arg) : Except LevelFault Request :=
  match parseProgram args with
  | .error fault => .error ⟨.program, fault⟩
  | .ok o =>
    if o.has "--help" then .ok ⟨logLevelOf o, .help (helpText .program)⟩
    else
      match o.arguments with
      | [] => .error ⟨.program, .noCommand⟩
      | name :: args => (parseCommand files name args).map fun action => ⟨logLevelOf o, action⟩

/-- The fault as a text. -/
def LevelFault.unread : LevelFault → Unread
  | ⟨_, .impossiblePath⟩ => .impossiblePath
  | ⟨level, fault⟩ => .refused (fault.report level)

/-- The request of a command line, or the text with which it is refused. -/
def Request.read (files : Files) (args : List Arg) : Except Unread Request :=
  (Request.parse files args).mapError LevelFault.unread

end NormalAlgorithm.CommandLine
