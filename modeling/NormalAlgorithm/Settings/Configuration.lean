/-
  NormalAlgorithm.Settings.Configuration

  How settings are built is the affair of a library, so it is given to whatever needs settings.

    * `Configuration`: how settings are built.
    * `Configuration.usual`: from given values, variables and defaults.
-/

import NormalAlgorithm.Settings.Basic

namespace NormalAlgorithm

/-- How settings are built. What is given by name stands over the environment. -/
structure Configuration where
  /-- Settings with nothing given (`MarkovSettings()`). -/
  build : Environment → Except SettingsFault Settings
  /-- The runner's settings with both fields given
      (`RunnerSettings(max_steps=..., stop_on_stall=...)`). -/
  buildRunner : Nat → Bool → Environment → Except SettingsFault RunnerSettings
  /-- Settings with both fields given (`MarkovSettings(runner=..., default_algorithm=...)`). -/
  buildAround : RunnerSettings → List Char → Environment → Except SettingsFault Settings
  /-- Settings whose runner's settings are built from given values
      (`MarkovSettings(runner=RunnerSettings(...))`). -/
  buildGiven : Given → Environment → Except SettingsFault Settings

/-- Settings from given values, variables and defaults. -/
def Configuration.usual : Configuration where
  build env := Settings.build [] env
  buildRunner steps stop env :=
    (RunnerSettings.build
      [("max_steps".toList, .int steps), ("stop_on_stall".toList, .bool stop)] env).mapError
      .invalid
  buildAround runner name env := Settings.buildWith runner name env
  buildGiven given env := Settings.buildAround given env

end NormalAlgorithm
