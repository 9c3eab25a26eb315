/-
  NormalAlgorithm.Session.Execute

  Carrying out the requests of a session. A request that fails leaves the named
  things as they were, but for a runner without rules, which records its start.

    * `Session.execute`: the session after a request with its answer, or a fault.
    * `Session.perform`: the same with the log records that the request added.
-/

import NormalAlgorithm.Session.Basic

namespace NormalAlgorithm.Session

open NormalAlgorithm.Journal

/-- A session with an answer, or a fault. -/
abbrev Outcome := Except Fault (Session × Answer)

/-- The ruleset a source stands for. -/
def Source.build : Source → Except Fault Ruleset
  | .listing text => (Ruleset.ofListing text).mapError .listing
  | .value v => (Ruleset.ofValue v).mapError .edit
  | .nothing => .ok Ruleset.empty
  | .drafts given =>
    match given.mapM Draft.build with
    | .error fault => .error (.draft fault)
    | .ok operands => (Ruleset.ofOperands operands).mapError .edit

/-- The position of the shared ruleset that a name stands for. -/
def rulesetNamed (s : Session) (name : Name) : Except Fault Nat :=
  match s.thing? name with
  | some (.ruleset position) => .ok position
  | some _ => .error .wrongKind
  | none => .error .unknown

/-- The runner that a name stands for, and the position of its ruleset. -/
def runnerNamed (s : Session) (name : Name) : Except Fault (Option Nat × Runner) :=
  match s.thing? name with
  | some (.runner position runner) => .ok (position, runner)
  | some _ => .error .wrongKind
  | none => .error .unknown

/-- The rules of a runner. One that has ended needs none. -/
def rulesFor (s : Session) (position : Option Nat) (r : Runner) : Except Fault Ruleset :=
  match position with
  | some position => .ok (s.rulesetAt position)
  | none => if r.halted then .ok Ruleset.empty else .error .wrongKind

/-! ## Rulesets -/

/-- Answer from the ruleset that a name stands for. -/
def ask (s : Session) (name : Name) (answer : Ruleset → Answer) : Outcome := do
  let position ← s.rulesetNamed name
  return (s, answer (s.rulesetAt position))

/-- Answer from the size or the items of a thing, which a runner does not have. -/
def askItems (s : Session) (name : Name) (answer : Ruleset → Answer) : Outcome :=
  match s.thing? name with
  | some (.runner ..) => .error .unsupported
  | _ => s.ask name answer

/-- Edit the ruleset that a name stands for. -/
def edit (s : Session) (name : Name) (change : Ruleset → Except EditFault (Answer × Ruleset)) :
    Outcome := do
  let position ← s.rulesetNamed name
  let (answer, rules) ← (change (s.rulesetAt position)).mapError .edit
  return (s.putRuleset position rules, answer)

/-- Edit the ruleset that a name stands for with a drafted rule; the name is looked at
    before the draft. -/
def editWith (s : Session) (name : Name) (draft : Draft)
    (change : Operand → Ruleset → Except EditFault (Answer × Ruleset)) : Outcome := do
  let _ ← s.rulesetNamed name
  let operand ← draft.build.mapError .draft
  s.edit name (change operand)

/-- Whether a named thing equals another one or a value. Rulesets are equal when
    their rules are; a runner equals only itself. -/
def equals (s : Session) (name : Name) (other : Reference) : Except Fault Bool :=
  match s.thing? name, other with
  | none, _ => .error .unknown
  | some _, .value _ => .ok false
  | some thing, .named other =>
    match thing, s.thing? other with
    | _, none => .error .unknown
    | .ruleset p, some (.ruleset q) => .ok (decide (s.rulesetAt p = s.rulesetAt q))
    | .runner .., some (.runner ..) => .ok (decide (name = other))
    | _, _ => .ok false

/-! ## Runners -/

/-- The position of the ruleset for a new runner. -/
def rulesetFor (s : Session) : Reference → Except Fault Nat
  | .value _ => .error (.run .noRuleset)
  | .named name =>
    match s.thing? name with
    | some (.ruleset position) => .ok position
    | some _ => .error (.run .noRuleset)
    | none => .error .unknown

/-- Answer from the runner that a name stands for. -/
def inspect (s : Session) (name : Name) (answer : Runner → Answer) : Outcome := do
  let (_, runner) ← s.runnerNamed name
  return (s, answer runner)

/-- Change the runner that a name stands for. -/
def alter (s : Session) (name : Name) (change : Runner → Runner) : Outcome := do
  let (position, runner) ← s.runnerNamed name
  return (s.bind name (.runner position (change runner)), .nothing)

/-- Move the runner that a name stands for by its rules. -/
def move (s : Session) (name : Name) (change : Ruleset → Runner → Except Fault (Answer × Runner)) :
    Outcome := do
  let (position, runner) ← s.runnerNamed name
  let rules ← s.rulesFor position runner
  let (answer, runner) ← change rules runner
  return (s.bind name (.runner position runner), answer)

/-- Run without a bound; whether there was anything left to run is the answer. -/
def runToEnd (rules : Ruleset) (r : Runner) : Except Fault (Answer × Runner) :=
  match r.runWithin rules Runner.patience with
  | some done => .ok (.flag (!r.halted), done)
  | none => .error .endless

/-- Run the named runner under a limit; what is not given comes from the settings
    in force. The limit is looked at before the runner and its rules. -/
def driveNamed (s : Session) (name : Name) (limit stopOnStall : Value) : Outcome := do
  if (s.thing? name).isNone then .error .unknown
  let (settings, s) ← s.inForce.mapError .settings
  let _ ← (Budget.ofLimit settings.runner limit).mapError .run
  let (position, runner) ← s.runnerNamed name
  let rules ← s.rulesFor position runner
  let runner ← (runner.driveBy settings.runner rules limit stopOnStall).mapError .run
  return (s.bind name (.runner position runner), .outcome runner.result)

/-- Let something else stand where the ruleset of a runner is. A ruleset has no such
    place, and stays as it is. -/
def assignRuleset (s : Session) (name target : Name) : Outcome :=
  match s.thing? target, s.thing? name with
  | none, _ | _, none => .error .unknown
  | _, some (.ruleset _) => .ok (s, .nothing)
  | some (.ruleset position), some (.runner _ r) =>
    .ok (s.bind name (.runner (some position) r), .nothing)
  | some (.runner ..), some (.runner _ r) => .ok (s.bind name (.runner none r), .nothing)

/-- Give a runner another context. A ruleset has none, and stays as it is. -/
def assignContext (s : Session) (name : Name) (context : Word) : Outcome :=
  match s.thing? name with
  | some (.ruleset _) => .ok (s, .nothing)
  | _ => s.alter name fun r => { r with context := context }

/-! ## All requests -/

/-- Carry out a request. -/
def execute (s : Session) : Command → Outcome
  | .makeRuleset name source => do
    let rules ← source.build
    return (s.addRuleset name rules, .nothing)
  | .add name draft position =>
    s.editWith name draft fun operand rules =>
      (rules.insertAt operand position).map fun rules => (.flag true, rules)
  | .remove name position =>
    s.edit name fun rules => (rules.removeAt position).map fun (rule, rules) => (.rule rule, rules)
  | .get name position => do
    let place ← s.rulesetNamed name
    let rule ← ((s.rulesetAt place).ruleAt position).mapError .edit
    return (s, .rule rule)
  | .set name draft position =>
    s.editWith name draft fun operand rules =>
      (rules.replaceAt operand position).map fun (rule, rules) => (.rule (some rule), rules)
  | .hasRules name => s.ask name fun rules => .flag rules.hasRules
  | .size name => s.askItems name fun rules => .count rules.size
  | .render name => s.ask name fun rules => .text rules.render
  | .literal name => s.ask name fun rules => .text rules.literal
  | .rules name => s.askItems name fun rules => .rules rules.rules
  | .equals name other => do
    let same ← s.equals name other
    return (s, .flag same)
  | .makeRunner name reference context => do
    let position ← s.rulesetFor reference
    let runner ← (Runner.startWith context).mapError .run
    return (s.bind name (.runner (some position) runner), .nothing)
  | .step name => s.move name fun rules r => .ok (.rule (r.fired? rules), r.step rules)
  | .run name => s.move name runToEnd
  | .stop name => s.alter name fun r => r.halt .stopped
  | .canStep name => s.move name fun rules r => .ok (.flag (r.canStep rules), r)
  | .drive name limit stopOnStall => s.driveNamed name limit stopOnStall
  | .result name => s.inspect name fun r => .result r.result
  | .history name => s.inspect name fun r => .entries r.history.toList
  | .format name pretty => s.inspect name fun r => .text (r.result.format pretty)
  | .setContext name context => s.assignContext name context
  | .setRuleset name target => s.assignRuleset name target
  | .setVariable name value =>
    .ok ({ s with environment := s.environment.set name value }, .nothing)
  | .getSettings => do
    let (settings, s) ← s.inForce.mapError .settings
    return (s, .settings settings)
  | .setSettings given => do
    let settings ← (s.configuration.buildGiven given s.environment).mapError .settings
    return ({ s with settings := some settings }, .nothing)

/-- The runner that a request moves. -/
def Command.moves? : Command → Option Name
  | .step name | .run name | .stop name | .drive name .. => some name
  | _ => none

/-- The journal of a named runner. -/
def journalOf (s : Session) (name : Name) : List Record :=
  match s.thing? name with
  | some (.runner _ r) => r.journal.toList
  | _ => []

/-- The log records that a request added. -/
def recordsOf (before after : Session) (command : Command) : List Record :=
  match command.moves? with
  | some name => (after.journalOf name).drop (before.journalOf name).length
  | none => []

/-- The session with the settings in force, if they can be built. -/
def settle (s : Session) : Session :=
  match s.inForce with
  | .ok (_, s) => s
  | .error _ => s

/-- The session as a request finds it: a bounded run of a thing that is there asks for
    the settings before anything else can fail. -/
def prepare (s : Session) : Command → Session
  | .drive name .. => if (s.thing? name).isSome then s.settle else s
  | _ => s

/-- The session that a request leaves behind when it finds that a runner has no
    ruleset: a step has been begun. -/
def begun (s : Session) (command : Command) : Session :=
  match command.moves? with
  | none => s
  | some name =>
    match s.thing? name with
    | some (.runner position r) => s.bind name (.runner position r.recordStart)
    | _ => s

/-- Carry out a request on a machine: the session after it, the answer or the fault, and
    the new log records. -/
def perform (m : Machine) (s : Session) (command : Command) :
    Session × Except Fault Answer × List Record :=
  let s := s.prepare command
  match s.execute command with
  | .ok (after, answer) => (after, .ok answer, recordsOf s after command)
  | .error .wrongKind => (s.begun command, .error .wrongKind, [])
  | .error fault => (s, .error (fault.raised m), [])

end NormalAlgorithm.Session
