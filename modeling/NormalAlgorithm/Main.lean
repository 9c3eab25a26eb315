/-
  NormalAlgorithm.Main

  The program. Every argument may name a file, so what stands there is looked up
  before the command line is carried out; the rest is printing.
-/

import NormalAlgorithm.CommandLine.Execute
import NormalAlgorithm.CommandLine.Usual

namespace NormalAlgorithm.Program

open NormalAlgorithm.CommandLine NormalAlgorithm.File

/-- What stands at a path. -/
def inspect (path : String) : IO Node := do
  try
    return .file (← IO.FS.readBinFile path)
  catch e =>
    match e with
    | .noFileOrDirectory .. => return .missing
    | _ => return .directory

/-- What stands at the paths that arguments and their normal forms name. -/
def filesNamed (args : List String) : IO Files := do
  let paths := args ++ args.map fun a => String.ofList (normalPath a.toList)
  let nodes ← paths.mapM fun path => do return (path.toList, ← inspect path)
  return fun path => ((nodes.find? fun e => e.1 == path).map Prod.snd).getD .missing

/-- The variables that settings come from. -/
def variableNames : List String :=
  ["MARKOV_RUNNER", "MARKOV_RUNNER_MAX_STEPS", "MARKOV_RUNNER_STOP_ON_STALL",
   "MARKOV_DEFAULT_ALGORITHM"]

/-- The variables that are set. -/
def environment : IO Environment := do
  let values ← variableNames.mapM fun name => do return (name.toList, ← IO.getEnv name)
  return values.filterMap fun e => e.2.map fun value => (e.1, value.toList)

/-- What is said of a program that ended before its time. -/
def abortText : Abort → String
  | .load fault => fault.message
  | .settings .unreadable => "Unreadable settings"
  | .settings .tooDeep => "Settings nested too deep"
  | .settings (.invalid _) => "Invalid settings"
  | .run fault => fault.message
  | .impossiblePath => UsageFault.impossiblePath.message
  | .unshown value => "Algorithm names and descriptions must be text, got " ++ value.kindName
  | .endless => "The run did not come to an end"

/-- An event as it stands on the standard output. -/
def eventText : Event → String
  | .logged record => record.level.name ++ " " ++ record.message ++ "\n"
  | .printed text => String.ofList text

end NormalAlgorithm.Program

open NormalAlgorithm in
/-- Carry out a command line: output and log records in their order, faults, and the exit
    code. -/
def main (args : List String) : IO UInt32 := do
  let files ← Program.filesNamed args
  let env ← Program.environment
  let t := CommandLine.execute .usual (.start files env) (args.map String.toList)
  for event in t.events do
    IO.print (Program.eventText event)
  IO.eprint (String.ofList t.errors)
  if let some abort := t.abort then
    IO.eprintln ("Error: " ++ Program.abortText abort)
  return UInt32.ofNat t.exitCode
