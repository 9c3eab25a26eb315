/-
  NormalAlgorithm.CommandLine.Options

  Options among arguments. An argument that starts with a hyphen and is longer than
  one character is an option; `--` ends the options. An option that takes a value
  has it after an equals sign, or else as the next argument, whatever that is.

    * `OptionSpec`: the name of an option and whether it takes a value.
    * `Options.parse`: the options and the other arguments, each in order.
-/

import NormalAlgorithm.CommandLine.Action
import NormalAlgorithm.Text.Similar

namespace NormalAlgorithm.CommandLine

/-- An option that a command knows. -/
structure OptionSpec where
  name : String
  takesValue : Bool
  deriving DecidableEq, Repr

/-- What is wrong with options. -/
inductive OptionFault where
  /-- An unknown option, with the options that resemble it. -/
  | unknown (name : List Char) (close : List String)
  | needsValue (name : String)
  | takesNoValue (name : String)
  deriving DecidableEq, Repr

/-- An option as it was given. -/
structure GivenOption where
  name : String
  value : List Char
  deriving DecidableEq, Repr

/-- Options and other arguments, each in order. -/
structure Options where
  given : List GivenOption
  arguments : List Arg
  deriving DecidableEq, Repr

namespace Options

/-- Whether an argument is an option. -/
def isOption : Arg → Bool
  | '-' :: _ :: _ => true
  | _ => false

/-- An option's name, and the value after an equals sign. -/
def splitEquals (arg : Arg) : List Char × Option (List Char) :=
  let name := arg.takeWhile (· != '=')
  match arg.drop name.length with
  | _ :: value => (name, some value)
  | [] => (name, none)

/-- The fault of an unknown option: it gives the long name, or the first letter of a
    short form, which resembles nothing. -/
def unknownOption (specs : List OptionSpec) (arg : Arg) : OptionFault :=
  match arg with
  | '-' :: '-' :: _ =>
    let name := (splitEquals arg).1
    .unknown name (Text.resembling name (specs.map OptionSpec.name))
  | _ => .unknown (arg.take 2) []

/-- Put an option in front. -/
def addOption (name : String) (value : List Char) (o : Options) : Options :=
  { o with given := ⟨name, value⟩ :: o.given }

/-- Put another argument in front. -/
def addArgument (arg : Arg) (o : Options) : Options := { o with arguments := arg :: o.arguments }

/-- The options and the other arguments. Unless options may stand anywhere, the first
    other argument ends them. -/
def parse (specs : List OptionSpec) (anywhere : Bool) : List Arg → Except OptionFault Options
  | [] => .ok ⟨[], []⟩
  | arg :: rest =>
    if arg = ['-', '-'] then .ok ⟨[], rest⟩
    else if !isOption arg then
      if anywhere then (parse specs anywhere rest).map (addArgument arg) else .ok ⟨[], arg :: rest⟩
    else
      let (name, value) := splitEquals arg
      match specs.find? fun spec => spec.name.toList == name with
      | none => .error (unknownOption specs arg)
      | some spec =>
        match spec.takesValue, value, rest with
        | true, some value, rest => (parse specs anywhere rest).map (addOption spec.name value)
        | true, none, value :: rest => (parse specs anywhere rest).map (addOption spec.name value)
        | true, none, [] => .error (.needsValue spec.name)
        | false, some _, _ => .error (.takesNoValue spec.name)
        | false, none, rest => (parse specs anywhere rest).map (addOption spec.name [])

/-- Whether an option was given. -/
def has (o : Options) (name : String) : Bool := o.given.any (·.name == name)

/-- The value that an option was given last. -/
def value? (o : Options) (name : String) : Option (List Char) :=
  (o.given.reverse.find? (·.name == name)).map GivenOption.value

/-- Which of two opposite options was given last. -/
def switch? (o : Options) (yes no : String) : Option Bool :=
  (o.given.reverse.find? fun g => g.name == yes || g.name == no).map fun g => g.name == yes

/-- The names of the given options, in order, each once. -/
def names (o : Options) : List String := (o.given.map GivenOption.name).eraseDups

end Options

end NormalAlgorithm.CommandLine
