/-
  NormalAlgorithm.CommandLine.Usual

  The platform of the program: its own settings, documents, command lines and console.

    * `readYaml`: documents in YAML.
    * `Platform.usual`: all of it.
-/

import NormalAlgorithm.CommandLine.Platform
import NormalAlgorithm.CommandLine.Request
import NormalAlgorithm.Yaml.Load

namespace NormalAlgorithm.CommandLine

/-- The value of a YAML text. -/
def readYaml : Load.Reader := fun levels text =>
  (Yaml.load levels text).mapError fun
    | .invalid => .invalid "the text is of another form".toList
    | fault => .failed fault

/-- The platform of the program. -/
def Platform.usual : Platform where
  machine := .usual
  console := .usual
  configuration := .usual
  readDocument := readYaml
  readArguments := Request.read

end NormalAlgorithm.CommandLine
