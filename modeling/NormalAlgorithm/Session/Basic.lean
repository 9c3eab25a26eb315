/-
  NormalAlgorithm.Session.Basic

  A session keeps rulesets and runners under names. Rulesets are shared: they live
  in a list, and names and runners hold positions in it, so an edit made under
  one name is seen by every runner of that ruleset, and giving a name to a new
  ruleset leaves the runners of the old one where they are.

    * `Session`: the shared rulesets, the named things, the environment, the
      settings in force and how settings are built.
    * `Command`, `Answer`, `Fault`: what can be asked, and what comes of it.
-/

import NormalAlgorithm.Machine
import NormalAlgorithm.Rule.Draft
import NormalAlgorithm.Runner.Request
import NormalAlgorithm.Runner.Result
import NormalAlgorithm.Settings.Configuration

namespace NormalAlgorithm.Session

/-- A name in a session. -/
abbrev Name := List Char

/-- What a name stands for. -/
inductive Thing where
  /-- The shared ruleset at a position. -/
  | ruleset (position : Nat)
  /-- A runner of the shared ruleset at a position, or of something that is no
      ruleset. -/
  | runner (position : Option Nat) (runner : Runner)

/-- Where a new ruleset comes from. -/
inductive Source where
  | listing (text : List Char)
  | drafts (drafts : List Draft)
  | value (value : Value)
  | nothing

/-- Something given by name or by value. -/
inductive Reference where
  | named (name : Name)
  | value (value : Value)

/-- A request: an operation of rulesets (`add_statement`, `remove_statement`, `get_statement`,
    `set_statement`, `has_statements`), of runners (`step`, `run`, `stop`,
    `has_applicable_rule`, `drive`, `result`) or of the settings (`get_settings`,
    `set_settings`). -/
inductive Command where
  | makeRuleset (name : Name) (source : Source)
  | add (name : Name) (draft : Draft) (position : Value)
  | remove (name : Name) (position : Value)
  | get (name : Name) (position : Value)
  | set (name : Name) (draft : Draft) (position : Value)
  | hasRules (name : Name)
  | size (name : Name)
  | render (name : Name)
  | literal (name : Name)
  | rules (name : Name)
  | equals (name : Name) (other : Reference)
  | makeRunner (name : Name) (ruleset : Reference) (context : Value)
  | step (name : Name)
  | run (name : Name)
  | stop (name : Name)
  | canStep (name : Name)
  | drive (name : Name) (limit stopOnStall : Value)
  | result (name : Name)
  | history (name : Name)
  | format (name : Name) (pretty : Bool)
  | setContext (name : Name) (context : Word)
  | setRuleset (name : Name) (ruleset : Name)
  | setVariable (name : List Char) (value : Option (List Char))
  | getSettings
  | setSettings (given : Given)

/-- What a request is answered with. -/
inductive Answer where
  | nothing
  | flag (value : Bool)
  | count (value : Nat)
  | text (value : List Char)
  | rule (value : Option Rule)
  | rules (value : List Rule)
  | entries (value : List Entry)
  /-- The outcome of a run with its steps. -/
  | result (value : RunResult)
  /-- The outcome of a run just driven, without its steps. -/
  | outcome (value : RunResult)
  | settings (value : Settings)

/-- Why a request failed. -/
inductive Fault where
  | draft (cause : DraftFault)
  | listing (cause : ListingFault)
  | edit (cause : EditFault)
  | run (cause : RunFault)
  | settings (cause : SettingsFault)
  /-- Nothing has the name. -/
  | unknown
  /-- The name, or the ruleset of a runner, stands for a thing of another kind. -/
  | wrongKind
  /-- The thing has neither a size nor items. -/
  | unsupported
  /-- A run without a bound did not come to an end. -/
  | endless
  /-- The machine gave out. -/
  | gaveOut (shortage : Shortage)
  deriving Repr

/-- The values that the text of a fault is written with. -/
def Fault.values : Fault → List Value
  | .draft cause => cause.values
  | .listing cause => cause.cause.values
  | .edit cause => cause.values
  | .run cause => cause.values
  | _ => []

/-- The fault that is raised for a fault: its text has to be written first. -/
def Fault.raised (m : Machine) (f : Fault) : Fault :=
  match m.writingAll f.values with
  | some shortage => .gaveOut shortage
  | none => f

end NormalAlgorithm.Session

namespace NormalAlgorithm

/-- Named rulesets and runners. -/
structure Session where
  /-- The shared rulesets. -/
  rulesets : List Ruleset
  /-- The named things, each name once. -/
  things : List (Session.Name × Session.Thing)
  /-- The variables in force. -/
  environment : Environment
  /-- The settings in force, once they have been built. -/
  settings : Option Settings
  /-- How settings are built. -/
  configuration : Configuration

namespace Session

/-- A session without any names. -/
def start (configuration : Configuration) (environment : Environment) : Session :=
  ⟨[], [], environment, none, configuration⟩

/-- What a name stands for. -/
def thing? (s : Session) (name : Name) : Option Thing :=
  (s.things.find? fun e => e.1 == name).map Prod.snd

/-- The shared ruleset at a position. -/
def rulesetAt (s : Session) (position : Nat) : Ruleset := s.rulesets.getD position Ruleset.empty

/-- Let a name stand for something. -/
def bind (s : Session) (name : Name) (thing : Thing) : Session :=
  { s with things := (name, thing) :: s.things.filter (·.1 != name) }

/-- Put a ruleset in the place of a shared one. -/
def putRuleset (s : Session) (position : Nat) (rules : Ruleset) : Session :=
  { s with rulesets := s.rulesets.set position rules }

/-- Share a new ruleset under a name. -/
def addRuleset (s : Session) (name : Name) (rules : Ruleset) : Session :=
  { s with rulesets := s.rulesets ++ [rules] }.bind name (.ruleset s.rulesets.length)

/-- The settings in force; they are built when first asked for (`get_settings`). -/
def inForce (s : Session) : Except SettingsFault (Settings × Session) :=
  match s.settings with
  | some settings => .ok (settings, s)
  | none =>
    match s.configuration.build s.environment with
    | .error fault => .error fault
    | .ok settings => .ok (settings, { s with settings := some settings })

end Session

end NormalAlgorithm
