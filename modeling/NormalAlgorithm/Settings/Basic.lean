/-
  NormalAlgorithm.Settings.Basic

  Settings come from three sources, field by field: given values win over
  environment variables, which win over defaults.

    * `RunnerSettings`: the step budget and whether to stop on a stall.
    * `Settings`: the runner's settings and the algorithm loaded by default.
    * `RunnerSettings.build`, `Settings.build`: settings from all sources, or
      what is wrong with them.
-/

import NormalAlgorithm.Json.Reader
import NormalAlgorithm.Settings.Source

namespace NormalAlgorithm

open NormalAlgorithm.Field NormalAlgorithm.Text

/-- Why settings could not be built. -/
inductive SettingsFault where
  /-- A variable that has to hold JSON does not. -/
  | unreadable
  /-- The JSON of a variable is nested too deep. -/
  | tooDeep
  /-- Fields have wrong values. -/
  | invalid (issues : List Issue)
  deriving DecidableEq, Repr

/-- How runs are bounded (`RunnerSettings`). -/
structure RunnerSettings where
  maxSteps : Nat
  stopOnStall : Bool
  maxSteps_pos : 1 ≤ maxSteps
  deriving DecidableEq, Repr

/-- All settings (`MarkovSettings`). -/
structure Settings where
  runner : RunnerSettings
  defaultAlgorithm : List Char
  deriving DecidableEq, Repr

namespace RunnerSettings

/-- The settings without any source. -/
def standard : RunnerSettings := ⟨10000, true, by decide⟩

/-- A step budget of at least one. -/
def readMaxSteps (j : Json) : Except Kind { n : Nat // 1 ≤ n } :=
  match readInt j with
  | .error kind => .error kind
  | .ok n => if h : 1 ≤ n.toNat then .ok ⟨n.toNat, h⟩ else .error .tooSmall

/-- The fields. -/
def fields : List String := ["max_steps", "stop_on_stall"]

/-- The runner's settings from all sources. -/
def build (given : Given) (env : Environment) : Checked RunnerSettings :=
  let steps := optional readMaxSteps "max_steps" ⟨standard.maxSteps, standard.maxSteps_pos⟩
    (sourced given env "MARKOV_RUNNER_" "max_steps")
  let stop := optional readBool "stop_on_stall" standard.stopOnStall
    (sourced given env "MARKOV_RUNNER_" "stop_on_stall")
  (Checked.both (fun n stop => ⟨n.val, stop, n.property⟩) steps stop).withIssues
    (given.extraIssues fields)

end RunnerSettings

namespace Settings

/-- The front of the names of variables. -/
def front : String := "MARKOV_"

/-- A field name of the runner's settings written as the field is, whatever its
    case. -/
def fieldSpelling (name : List Char) : List Char :=
  match RunnerSettings.fields.find? fun f => f.toList == lower name with
  | some f => f.toList
  | none => name

/-- Fields from a variable, with the names of fields spelled as the fields are; of
    several spellings the last counts. -/
def respell (fields : Given) : Given :=
  fields.foldl (fun done f => Json.insertField (fieldSpelling f.1) f.2 done) []

/-- The limits of JSON in variables. -/
def limits : Json.Limits := ⟨some 4300, some 985⟩

/-- The JSON value of a variable. -/
def decode (text : List Char) : Except SettingsFault Json :=
  match Json.parseWithin limits text with
  | .ok j => .ok j
  | .error .malformed => .error .unreadable
  | .error .tooDeep => .error .tooDeep

/-- Put a value under a path of names. -/
def insertPath (value : Json) : List (List Char) → Given → Given
  | [], fields => fields
  | [name], fields => Json.insertField name value fields
  | name :: rest, fields =>
    let inner := match Json.lookup name fields with
      | some (.obj inner) => inner
      | _ => []
    Json.insertField name (.obj (insertPath value rest inner)) fields

/-- The pieces of a text between the occurrences of another one. -/
def splitAtText (delimiter : List Char) : Nat → List Char → List Char → List (List Char)
  | 0, piece, rest => [piece.reverse ++ rest]
  | _, piece, [] => [piece.reverse]
  | fuel + 1, piece, c :: rest =>
    if delimiter.isPrefixOf (c :: rest) then
      piece.reverse :: splitAtText delimiter fuel [] ((c :: rest).drop delimiter.length)
    else splitAtText delimiter fuel (c :: piece) rest

/-- The fields inside a field that variables with a delimiter in their names give. -/
def innerFields (o : ReadingOptions) (env : Environment) (field : String) : Given :=
  if o.delimiter.isEmpty then []
  else
    let start := o.nameOf front field ++ o.delimiter
    (o.visible env).foldl (fun fields e =>
      if start.isPrefixOf e.1 then
        let path := splitAtText o.delimiter (e.1.length + 1) [] (e.1.drop start.length)
        insertPath (o.valueOf e.2) path fields
      else fields) []

/-- The value that variables give for the runner's settings: one that holds JSON,
    and those of single fields; `null` counts as absent. -/
def runnerVariable (o : ReadingOptions) (env : Environment) :
    Except SettingsFault (Option Json) :=
  let spelled := fun fields => if o.exactCase then fields else respell fields
  let inner := innerFields o env "runner"
  let fromInner := if inner.isEmpty then none else some (Json.obj (spelled inner))
  match o.envText? env front "runner" with
  | none => .ok fromInner
  | some text =>
    if o.noneText = some text then .ok (some .null)
    else
      match decode text with
      | .error fault => .error fault
      | .ok .null => .ok none
      | .ok (.obj fields) =>
        let fields := inner.foldl (fun done f => Json.insertField f.1 f.2 done) fields
        .ok (some (.obj (spelled fields)))
      | .ok j => .ok (some j)

/-- Given fields over those of a variable. -/
def mergeFields (base given : Given) : Given :=
  given.foldl (fun fields f => Json.insertField f.1 f.2 fields) base

/-- What the runner's settings are built from: a given value over the variable,
    field by field if both are objects. -/
def runnerSource (given : Given) (fromEnv : Option Json) : Option Json :=
  match given.field? "runner", fromEnv with
  | some (.obj given), some (.obj base) => some (.obj (mergeFields base given))
  | some j, _ => some j
  | none, v => v

/-- The runner's settings inside all settings. Without a source they are built on
    their own, and their issues end the build. -/
def buildRunner (source : Option Json) (env : Environment) :
    Checked (Checked RunnerSettings) :=
  match source with
  | none => (RunnerSettings.build [] env).map .ok
  | some (.obj fields) => .ok ((RunnerSettings.build fields env).under (.name "runner".toList))
  | some _ => .ok (.error [.ofField "runner".toList .modelType])

/-- Settings from the runner's settings and the other sources. -/
def assemble (runner : Checked RunnerSettings) (given : Given) (env : Environment) :
    Checked Settings :=
  let algorithm := optional readText "default_algorithm" "default".toList
    (sourced given env front "default_algorithm")
  (Checked.both Settings.mk runner algorithm).withIssues
    (given.extraIssues ["runner", "default_algorithm"])

/-- Settings from all sources. -/
def build (given : Given) (env : Environment) : Except SettingsFault Settings :=
  match runnerVariable given.options env with
  | .error fault => .error fault
  | .ok fromEnv =>
    match buildRunner (runnerSource given fromEnv) env with
    | .error issues => .error (.invalid issues)
    | .ok runner => (assemble runner given env).mapError .invalid

/-- Settings with given runner's settings and a given algorithm. The variable for the
    runner's settings is read all the same. -/
def buildWith (runner : RunnerSettings) (algorithm : List Char) (env : Environment) :
    Except SettingsFault Settings :=
  match runnerVariable (Given.options []) env with
  | .error fault => .error fault
  | .ok _ => .ok ⟨runner, algorithm⟩

/-- Settings with given runner's settings; the rest comes from the environment. -/
def around (runner : RunnerSettings) (env : Environment) : Except SettingsFault Settings :=
  buildWith runner
    (((Given.options []).envText? env front "default_algorithm").getD "default".toList) env

/-- Settings whose runner's settings are built from given values first. -/
def buildAround (given : Given) (env : Environment) : Except SettingsFault Settings :=
  match RunnerSettings.build given env with
  | .error issues => .error (.invalid issues)
  | .ok runner => around runner env

end Settings

end NormalAlgorithm
