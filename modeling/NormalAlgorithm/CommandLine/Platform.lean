/-
  NormalAlgorithm.CommandLine.Platform

  What the commands rest on: the machine, the console, and the libraries that build settings,
  read documents and read command lines. None of it is theirs, so it is given to them, and
  what they do is said for every platform.

    * `Platform`: all that the commands rest on.
    * `World`: the files, the variables and the settings that they find.
    * `inForce`, `configure`: the settings in force, and new ones from options.
-/

import NormalAlgorithm.CommandLine.Action
import NormalAlgorithm.Load
import NormalAlgorithm.Report.Console
import NormalAlgorithm.Settings.Configuration

namespace NormalAlgorithm.CommandLine

open NormalAlgorithm.File

/-- What the commands rest on. -/
structure Platform where
  machine : Machine
  console : Report.Console
  configuration : Configuration
  /-- How the text of a document is read (`yaml.safe_load`). -/
  readDocument : Load.Reader
  /-- How a command line is read; paths in it are looked up. -/
  readArguments : Files → List Arg → Except Unread Request

/-- What a command finds. -/
structure World where
  files : Files
  environment : Environment
  /-- The settings in force, if they have been set (`_settings`). -/
  settings : Option Settings

/-- A world in which no settings have been set. -/
def World.start (files : Files) (environment : Environment) : World := ⟨files, environment, none⟩

/-- The settings in force, which are built when there are none (`get_settings`). -/
def inForce (p : Platform) (w : World) : Except SettingsFault Settings :=
  match w.settings with
  | some settings => .ok settings
  | none => p.configuration.build w.environment

/-- Set the settings anew, with the options in the place of the fields in force
    (`_configure_settings`). -/
def configure (p : Platform) (w : World) (options : RunOptions) : Except SettingsFault World := do
  let current ← inForce p w
  let runner ← p.configuration.buildRunner
    ((options.maxSteps.map Subtype.val).getD current.runner.maxSteps)
    (options.stopOnStall.getD current.runner.stopOnStall) w.environment
  let settings ← p.configuration.buildAround runner current.defaultAlgorithm w.environment
  return { w with settings := some settings }

end NormalAlgorithm.CommandLine
