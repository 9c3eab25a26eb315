/-
  NormalAlgorithm.CommandLine.Execute

  Carrying out command lines on a platform.

    * `Transcript`: what stands on the standard output, log records included, the other
      output, the exit code, and what ended the program before its time.
    * `Action.execute`: the transcript of an action.
    * `execute`: the transcript of a command line.
-/

import NormalAlgorithm.CommandLine.Platform
import NormalAlgorithm.Report.Outcome
import NormalAlgorithm.Runner.Request

namespace NormalAlgorithm.CommandLine

open NormalAlgorithm.File NormalAlgorithm.Journal NormalAlgorithm.Text

/-- What ends the program before its time. -/
inductive Abort where
  | load (fault : Load.Fault)
  | settings (fault : SettingsFault)
  | run (fault : RunFault)
  /-- A path holds a NUL character. -/
  | impossiblePath
  /-- A name or description in a document is no text. -/
  | unshown (value : Value)
  /-- A run without a bound did not come to an end. -/
  | endless
  deriving Repr

/-- What comes to the standard output. Log records go there too (`setup_logging`). -/
inductive Event where
  | logged (record : Record)
  | printed (text : List Char)
  deriving DecidableEq

/-- Whether an event is seen when only log records of a severity or above are. -/
def Event.isSeen (level : Journal.Level) : Event → Bool
  | .logged record => decide (level.rank ≤ record.level.rank)
  | .printed _ => true

/-- What a command line leads to. -/
structure Transcript where
  /-- The standard output, in order. -/
  events : List Event
  /-- The standard error output. -/
  errors : List Char
  exitCode : Nat
  abort : Option Abort

namespace Transcript

/-- The transcript of an action that worked: log records, and then text. -/
def success (records : List Record) (text : List Char) : Transcript :=
  ⟨records.map .logged ++ [.printed text], [], 0, none⟩

/-- The transcript of an action that did not work. -/
def failure (text : List Char) : Transcript := ⟨[.printed text], [], 1, none⟩

/-- The transcript of a program that ended before its time. -/
def aborted (events : List Event) (abort : Abort) : Transcript := ⟨events, [], 1, some abort⟩

/-- The transcript with log records of a severity or above only. -/
def seenFrom (level : Journal.Level) (t : Transcript) : Transcript :=
  { t with events := t.events.filter (·.isSeen level) }

/-- The log records of a transcript. -/
def records (t : Transcript) : List Record :=
  t.events.filterMap fun
    | .logged record => some record
    | .printed _ => none

/-- The printed text of a transcript, without the log records. -/
def text (t : Transcript) : List Char :=
  t.events.flatMap fun
    | .logged _ => []
    | .printed text => text

end Transcript

/-! ## Loading -/

/-- Whether a path names a document by its suffix (`YAML_SUFFIXES`). -/
def isDocumentPath (path : List Char) : Bool :=
  let ending := lower (suffix path)
  ending = ".yaml".toList || ending = ".yml".toList

/-- The transcript of a fault in loading. -/
def loadFailure (p : Platform) (fault : Load.Fault) : Transcript :=
  if fault.isReported then .failure (Report.faultText p.console fault.message.toList)
  else .aborted [] (.load fault)

/-- The algorithm asked for; an empty name asks for none. -/
def asked? : Option (List Char) → Option (List Char)
  | some (c :: rest) => some (c :: rest)
  | _ => none

/-- The rules of a file: of the algorithm with a name, or of the listing that it
    is. -/
def rulesAt (p : Platform) (files : Files) (path name : List Char) :
    Except Load.Fault (List Rule × Record) :=
  if isDocumentPath path then
    Load.algorithm p.machine p.readDocument files (normalPath path) (.text name)
  else Load.listing files (normalPath path)

/-- The rules of a file, with the algorithm that is asked for or else that of the settings.
    The settings in force are looked at only for a document (`_load_rules`). -/
def loadRules (p : Platform) (w : World) (path : List Char) (algorithm : Option (List Char)) :
    Except Abort (List Rule × Record) :=
  match asked? algorithm, isDocumentPath path with
  | none, true =>
    match inForce p w with
    | .ok settings => (rulesAt p w.files path settings.defaultAlgorithm).mapError .load
    | .error fault => .error (.settings fault)
  | name, _ => (rulesAt p w.files path (name.getD [])).mapError .load

/-- The transcript of what kept rules from being loaded. -/
def unloaded (p : Platform) : Abort → Transcript
  | .load fault => loadFailure p fault
  | abort => .aborted [] abort

/-! ## Actions -/

/-- Run rules without a bound, or under the limits of the settings in force
    (`_run_to_result`). -/
def runRules (p : Platform) (w : World) (unbounded : Bool) (rules : List Rule) (context : Word) :
    Except Abort Runner :=
  let ruleset : Ruleset := ⟨rules⟩
  let runner := Runner.start context
  if unbounded then
    match runner.run ruleset with
    | some ended => .ok ended
    | none => .error .endless
  else
    match inForce p w with
    | .error fault => .error (.settings fault)
    | .ok settings => (runner.driveBy settings.runner ruleset .null .null).mapError .run

/-- What is printed of a run. -/
def runText (p : Platform) (options : RunOptions) (r : RunResult) : List Char :=
  if options.json then r.format true ++ ['\n']
  else
    (if options.trace then Report.traceText p.console r else []) ++ Report.outcomeText p.console r

/-- Run an algorithm (`run`). -/
def executeRun (p : Platform) (w : World) (path context : List Char) (options : RunOptions) :
    Transcript :=
  match configure p w options with
  | .error fault => .aborted [] (.settings fault)
  | .ok w =>
    match loadRules p w path options.algorithm with
    | .error abort => unloaded p abort
    | .ok (rules, record) =>
      match runRules p w options.unbounded rules context with
      | .error abort => .aborted [.logged record] abort
      | .ok runner => .success (record :: runner.journal.toList) (runText p options runner.result)

/-- Show rules (`show`). -/
def executeShow (p : Platform) (w : World) (path : List Char) (algorithm : Option (List Char)) :
    Transcript :=
  match loadRules p w path algorithm with
  | .ok (rules, record) => .success [record] (Report.rulesText p.console rules)
  | .error abort => unloaded p abort

/-- List the algorithms of a document (`_print_algorithms`). -/
def executeList (p : Platform) (files : Files) (path : List Char) : Transcript :=
  let path := normalPath path
  if !isDocumentPath path then
    .failure (Report.faultText p.console (path ++ " is not a YAML algorithm file".toList))
  else
    match Load.descriptions p.readDocument files path with
    | .error fault => loadFailure p fault
    | .ok algorithms =>
      match Report.algorithmsText p.console path algorithms with
      | (text, none) => .success [] text
      | (text, some value) => .aborted [.printed text] (.unshown value)

/-- Check statements (`check`). -/
def executeCheck (p : Platform) (statements : List (List Char)) : Transcript :=
  ⟨[.printed (Report.checkText p.console statements)], [],
    if statements.all Report.isSound then 0 else 1, none⟩

/-- Carry out an action. -/
def Action.execute (p : Platform) (w : World) : Action → Transcript
  | .run path context options => executeRun p w path context options
  | .showRules path algorithm => executeShow p w path algorithm
  | .listAlgorithms path => executeList p w.files path
  | .check statements => executeCheck p statements
  | .help text => .success [] text

/-- The transcript of a command line (`main`). -/
def execute (p : Platform) (w : World) (args : List Arg) : Transcript :=
  match p.readArguments w.files args with
  | .error .impossiblePath => .aborted [] .impossiblePath
  | .error (.refused text) => ⟨[], text, 2, none⟩
  | .ok ⟨logLevel, action⟩ => (action.execute p w).seenFrom logLevel

end NormalAlgorithm.CommandLine
