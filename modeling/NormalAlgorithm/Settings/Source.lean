/-
  NormalAlgorithm.Settings.Source

  Where the fields of settings come from: values given by name, and environment
  variables. Names are compared without regard to case, unless the given values
  ask for something else: names that start with an underscore do not give fields
  but say how variables are read.

    * `Environment`: variables in the order in which they were set.
    * `Given`: values given by name.
    * `ReadingOptions`: how variables are read.
    * `sourced`: the value of a field.
-/

import NormalAlgorithm.Field.Basic
import NormalAlgorithm.Text.Split

namespace NormalAlgorithm

open NormalAlgorithm.Field NormalAlgorithm.Text

/-- Environment variables. -/
abbrev Environment := List (List Char × List Char)

namespace Environment

/-- Set a variable, or remove it. -/
def set (env : Environment) (name : List Char) : Option (List Char) → Environment
  | some value => env.filter (·.1 != name) ++ [(name, value)]
  | none => env.filter (·.1 != name)

end Environment

/-- Values given to settings by name. -/
abbrev Given := List (List Char × Json)

/-- How variables are read. -/
structure ReadingOptions where
  /-- The front of the names of variables, if it is not the usual one. -/
  front : Option (List Char)
  /-- Whether names have to agree in case. -/
  exactCase : Bool
  /-- Whether empty variables count as absent. -/
  ignoreEmpty : Bool
  /-- The text that stands for no value. -/
  noneText : Option (List Char)
  /-- What stands between the names of a field and of a field inside it. -/
  delimiter : List Char
  deriving DecidableEq, Repr

namespace Given

/-- The names that say how sources are read. -/
def optionNames : List String :=
  ["_case_sensitive", "_nested_model_default_partial_update", "_env_prefix",
   "_env_prefix_target", "_env_file", "_env_file_encoding", "_env_ignore_empty",
   "_env_nested_delimiter", "_env_nested_max_split", "_env_parse_none_str", "_env_parse_enums",
   "_cli_prog_name", "_cli_parse_args", "_cli_settings_source", "_cli_parse_none_str",
   "_cli_hide_none_type", "_cli_avoid_json", "_cli_enforce_required",
   "_cli_use_class_docs_for_groups", "_cli_exit_on_error", "_cli_prefix",
   "_cli_flag_prefix_char", "_cli_implicit_flags", "_cli_ignore_unknown_args",
   "_cli_kebab_case", "_cli_shortcuts", "_secrets_dir"]

/-- Whether a name says how sources are read. -/
def isOption (name : List Char) : Bool := optionNames.any (·.toList == name)

/-- The text of an option. -/
def optionText? (given : Given) (name : String) : Option (List Char) :=
  match Json.lookup name.toList given with
  | some (.str s) => some s
  | _ => none

/-- Whether an option is switched on. -/
def optionFlag (given : Given) (name : String) : Bool :=
  ((Json.lookup name.toList given).map Json.isTrue).getD false

/-- How variables are read. -/
def options (given : Given) : ReadingOptions where
  front := given.optionText? "_env_prefix"
  exactCase := given.optionFlag "_case_sensitive"
  ignoreEmpty := given.optionFlag "_env_ignore_empty"
  noneText := given.optionText? "_env_parse_none_str"
  delimiter := (given.optionText? "_env_nested_delimiter").getD []

/-- The value given for a field; of several spellings of its name the first counts. -/
def field? (given : Given) (field : String) : Option Json :=
  (given.find? fun g => lower g.1 == field.toList).map Prod.snd

/-- The issues of given values that no field takes. -/
def extraIssues (given : Given) (fields : List String) : List Issue :=
  (given.filter fun g => !isOption g.1 && !fields.any (·.toList == lower g.1)).map
    fun g => .ofField g.1 .extra

end Given

namespace ReadingOptions

/-- The name of a variable as it is compared. -/
def spelled (o : ReadingOptions) (name : List Char) : List Char :=
  if o.exactCase then name else lower name

/-- The name of the variable of a field. -/
def nameOf (o : ReadingOptions) (front field : String) : List Char :=
  o.spelled (o.front.getD front.toList ++ field.toList)

/-- The variables that count, by their names as they are compared. -/
def visible (o : ReadingOptions) (env : Environment) : Environment :=
  (env.filter fun e => !(o.ignoreEmpty && e.2.isEmpty)).map fun e => (o.spelled e.1, e.2)

/-- The value of the variable of a field; of several, the last. -/
def envText? (o : ReadingOptions) (env : Environment) (front field : String) :
    Option (List Char) :=
  ((o.visible env).reverse.find? fun e => e.1 == o.nameOf front field).map Prod.snd

/-- The text of a variable as a value. -/
def valueOf (o : ReadingOptions) (text : List Char) : Json :=
  if o.noneText = some text then .null else .str text

end ReadingOptions

/-- A given value, or else the variable of the field as text. -/
def sourced (given : Given) (env : Environment) (front field : String) : Option Json :=
  match given.field? field with
  | some j => some j
  | none => (given.options.envText? env front field).map given.options.valueOf

end NormalAlgorithm
