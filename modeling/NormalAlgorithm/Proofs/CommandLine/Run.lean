/-
  NormalAlgorithm.Proofs.CommandLine.Run

  The command `run`: which run it makes, and what it prints of it as JSON.

  Options stand over the settings in force field by field (`RunOptions.stepsOver` and its like).
  They come to the run by way of settings that are built anew, in which what is given by name
  stands over the environment (`Configuration.KeywordsWin`). Log records share the standard output
  with the JSON and come before it.

    * `configure_eq`: the settings that the run finds.
    * `loadRules_of_settings`, `runRules_bounded`, `runRules_unbounded`: the rules and the run.
    * `run_prints_log_and_json`: the command line as a whole.
    * `run_logs_before_json`: a run whose output is more than its JSON.
-/

import NormalAlgorithm.CommandLine.Execute
import NormalAlgorithm.CommandLine.Usual
import NormalAlgorithm.File.Tree
import NormalAlgorithm.Proofs.Listing.File
import NormalAlgorithm.Proofs.Runner.Bounded

namespace NormalAlgorithm

open NormalAlgorithm.Field NormalAlgorithm.File NormalAlgorithm.Journal

/-! ## Settings -/

/-- Settings with both fields given owe nothing to the environment. -/
theorem RunnerSettings.build_of_given {n : Nat} (hn : 1 ≤ n) (stop : Bool) (env : Environment) :
    build [("max_steps".toList, .int n), ("stop_on_stall".toList, .bool stop)] env =
      .ok ⟨n, stop, hn⟩ := by
  have hsteps : readField readMaxSteps "max_steps" (.int n) = .ok ⟨n, hn⟩ := by
    have hread : readMaxSteps (.int n) = .ok ⟨n, hn⟩ := dif_pos hn
    rw [readField, hread]
    rfl
  have hextra : Given.extraIssues
      [("max_steps".toList, .int n), ("stop_on_stall".toList, .bool stop)] fields = [] := rfl
  rw [build, hextra]
  show Checked.withIssues [] (Checked.both _ (readField readMaxSteps "max_steps" (.int n)) _) = _
  rw [hsteps]
  rfl

/-- What is given by name stands over an environment that can be read at all. -/
structure Configuration.KeywordsWin (c : Configuration) (readable : Environment → Prop) : Prop where
  runner : ∀ n stop env (hn : 1 ≤ n), c.buildRunner n stop env = .ok ⟨n, stop, hn⟩
  settings : ∀ runner name env, readable env → c.buildAround runner name env = .ok ⟨runner, name⟩

/-- An environment whose variable for the runner's settings, if there is one, holds JSON. -/
def HoldsJson (env : Environment) : Prop :=
  ∃ value, Settings.runnerVariable (Given.options []) env = .ok value

theorem keywordsWin_usual : Configuration.usual.KeywordsWin HoldsJson where
  runner n stop env hn := by
    show (RunnerSettings.build _ env).mapError SettingsFault.invalid = _
    rw [RunnerSettings.build_of_given hn]
    rfl
  settings runner name env henv := by
    obtain ⟨value, hvalue⟩ := henv
    show Settings.buildWith runner name env = _
    rw [Settings.buildWith, hvalue]

namespace CommandLine

/-! ## Options over settings -/

namespace RunOptions

/-- The step budget: that of the options, or else that of the settings. -/
def stepsOver (options : RunOptions) (settings : Settings) : Nat :=
  (options.maxSteps.map Subtype.val).getD settings.runner.maxSteps

/-- Whether to stop on a stall: what the options say, or else the settings. -/
def stopOver (options : RunOptions) (settings : Settings) : Bool :=
  options.stopOnStall.getD settings.runner.stopOnStall

/-- The algorithm: the one that the options name, if the name is not empty, or else that of the
    settings. -/
def algorithmOver (options : RunOptions) (settings : Settings) : List Char :=
  (options.algorithm.filter (· ≠ [])).getD settings.defaultAlgorithm

theorem one_le_stepsOver (options : RunOptions) (settings : Settings) :
    1 ≤ options.stepsOver settings := by
  rw [stepsOver]
  cases options.maxSteps with
  | none => exact settings.runner.maxSteps_pos
  | some n => exact n.property

/-- The settings with options in the place of theirs. -/
def laidOver (options : RunOptions) (settings : Settings) : Settings :=
  ⟨⟨options.stepsOver settings, options.stopOver settings, options.one_le_stepsOver settings⟩,
    settings.defaultAlgorithm⟩

end RunOptions

variable {p : Platform} {w : World} {settings : Settings} {path context : List Char}
  {options : RunOptions} {rules : List Rule} {record : Record}

/-- The settings that are set anew have the fields of the options, and of the settings in force
    what the options do not say. -/
theorem configure_eq {readable : Environment → Prop}
    (hkeywords : p.configuration.KeywordsWin readable) (hreadable : readable w.environment)
    (hsettings : inForce p w = .ok settings) (options : RunOptions) :
    configure p w options = .ok { w with settings := some (options.laidOver settings) } := by
  have hrunner : p.configuration.buildRunner
      ((options.maxSteps.map Subtype.val).getD settings.runner.maxSteps)
      (options.stopOnStall.getD settings.runner.stopOnStall) w.environment =
        .ok (options.laidOver settings).runner :=
    hkeywords.runner _ _ _ (options.one_le_stepsOver settings)
  have haround : p.configuration.buildAround (options.laidOver settings).runner
      settings.defaultAlgorithm w.environment = .ok (options.laidOver settings) :=
    hkeywords.settings _ _ _ hreadable
  rw [configure, hsettings]
  simp only [Bind.bind, Except.bind, hrunner, haround]
  rfl

theorem asked?_eq_filter (algorithm : Option (List Char)) :
    asked? algorithm = algorithm.filter (· ≠ []) := by
  cases algorithm with
  | none => rfl
  | some name =>
      cases name with
      | nil => rfl
      | cons c rest => rfl

/-- A listing has one set of rules, whatever algorithm is asked for. -/
theorem rulesAt_of_listing (h : isDocumentPath path = false) (p : Platform) (files : Files)
    (name other : List Char) : rulesAt p files path name = rulesAt p files path other := by
  simp only [rulesAt, h, Bool.false_eq_true, if_false]

/-- The rules are those of the algorithm that is asked for, or else of that in the settings. -/
theorem loadRules_of_settings (h : inForce p w = .ok settings) (path : List Char)
    (algorithm : Option (List Char)) :
    loadRules p w path algorithm =
      (rulesAt p w.files path ((asked? algorithm).getD settings.defaultAlgorithm)).mapError
        .load := by
  cases hasked : asked? algorithm with
  | some name =>
      cases isDocumentPath path <;> simp only [loadRules, hasked] <;> rfl
  | none =>
      cases hpath : isDocumentPath path with
      | true => simp only [loadRules, hasked, hpath, h, Option.getD_none]
      | false =>
          simp only [loadRules, hasked, hpath, Option.getD_none]
          rw [rulesAt_of_listing hpath p w.files [] settings.defaultAlgorithm]

/-! ## The runs -/

theorem runRules_bounded (h : inForce p w = .ok settings) (rules : List Rule) (context : Word) :
    runRules p w false rules context =
      .ok ((Runner.start context).drive ⟨rules⟩ (.ofInt settings.runner.maxSteps)
        settings.runner.stopOnStall) := by
  rw [runRules, if_neg Bool.false_ne_true, h]
  rfl

/-- A run without a bound takes nothing from the settings. -/
theorem runRules_unbounded {r : Runner} (h : Runner.Yields ⟨rules⟩ (Runner.start context) .run r)
    (p : Platform) (w : World) : runRules p w true rules context = .ok r := by
  rw [runRules, if_pos rfl, h.run_eq_some]

/-! ## What is printed -/

/-- Of the log records, those of the severity or above are seen, and the text after them. -/
theorem seenFrom_success (level : Journal.Level) (records : List Record) (text : List Char) :
    (Transcript.success records text).seenFrom level =
      .success (atLeast level records) text := by
  have hlogged : (records.map Event.logged).filter (·.isSeen level) =
      (atLeast level records).map .logged := by
    rw [List.filter_map]
    rfl
  rw [Transcript.seenFrom, Transcript.success, List.filter_append, hlogged]
  rfl

/-- A run that is printed as JSON after those of its log records that are seen. -/
structure PrintsRun (level : Journal.Level) (records : List Record) (r : Runner) (t : Transcript) :
    Prop where
  transcript : t = .success (atLeast level records) (r.result.format true ++ ['\n'])
  /-- The JSON is all that is printed exactly if no record is seen. -/
  alone : t.events = [.printed (r.result.format true ++ ['\n'])] ↔
    ∀ record ∈ records, record.level.rank < level.rank

theorem printsRun_of_success {level : Journal.Level} {records : List Record} {r : Runner}
    {t : Transcript}
    (h : t = (Transcript.success records (r.result.format true ++ ['\n'])).seenFrom level) :
    PrintsRun level records r t := by
  rw [seenFrom_success] at h
  refine ⟨h, ?_⟩
  have hnone : atLeast level records = [] ↔ ∀ record ∈ records, record.level.rank < level.rank := by
    simp [atLeast]
  rw [h, Transcript.success, ← hnone]
  constructor
  · intro hevents
    exact List.map_eq_nil_iff.mp (List.append_left_eq_self.mp hevents)
  · intro hempty
    rw [hempty]
    rfl

theorem execute_of_run {args : List Arg} {level : Journal.Level}
    (hread : p.readArguments w.files args = .ok ⟨level, .run path context options⟩) :
    execute p w args = (executeRun p w path context options).seenFrom level := by
  rw [execute, hread]
  rfl

/-- What the settings, the rules and the run come to in the end. -/
theorem printsRun_of_run {w' : World} {args : List Arg} {level : Journal.Level} {r : Runner}
    (hread : p.readArguments w.files args = .ok ⟨level, .run path context options⟩)
    (hjson : options.json = true) (hconfigure : configure p w options = .ok w')
    (hloaded : loadRules p w' path options.algorithm = .ok (rules, record))
    (hrun : runRules p w' options.unbounded rules context = .ok r) :
    PrintsRun level (record :: r.journal.toList) r (execute p w args) := by
  apply printsRun_of_success
  rw [execute_of_run hread]
  simp only [executeRun, hconfigure, hloaded, hrun, runText, hjson, if_true]

/-- The command `run` with JSON output, on every platform whose settings put what is given by name
    over the environment. Of the settings in force the run takes what the options do not say, each
    field by itself.

    A bounded run is never refused: it is the one with these limits as arguments, whatever the
    settings then are. A run without a bound is printed if it ends, whatever the limits. The log
    records that are seen come first, on the same output; without them the JSON is all that is
    printed. Without rules there is no run, and a fault that is reported is all that is printed. -/
theorem run_prints_log_and_json {readable : Environment → Prop}
    (hkeywords : p.configuration.KeywordsWin readable) (hreadable : readable w.environment)
    {args : List Arg} {level : Journal.Level}
    (hread : p.readArguments w.files args = .ok ⟨level, .run path context options⟩)
    (hjson : options.json = true) (hsettings : inForce p w = .ok settings) :
    (∀ rules record, rulesAt p w.files path (options.algorithmOver settings) = .ok (rules, record) →
      (options.unbounded = false →
        ∃ r, (∀ others, (Runner.start context).driveBy others ⟨rules⟩
            (.int (options.stepsOver settings)) (.bool (options.stopOver settings)) = .ok r) ∧
          PrintsRun level (record :: r.journal.toList) r (execute p w args)) ∧
      (options.unbounded = true →
        ∀ r, Runner.Yields ⟨rules⟩ (Runner.start context) .run r →
          PrintsRun level (record :: r.journal.toList) r (execute p w args))) ∧
    ∀ fault, rulesAt p w.files path (options.algorithmOver settings) = .error fault →
      (execute p w args).exitCode = 1 ∧ (execute p w args).records = [] ∧
      (fault.isReported = true →
        execute p w args = .failure (Report.faultText p.console fault.message.toList)) := by
  have hconfigure := configure_eq hkeywords hreadable hsettings options
  have hinForce : inForce p { w with settings := some (options.laidOver settings) } =
      .ok (options.laidOver settings) := rfl
  have hloadRules := loadRules_of_settings hinForce path options.algorithm
  rw [asked?_eq_filter] at hloadRules
  refine ⟨?_, ?_⟩
  · intro rules record hrules
    have hloaded := hloadRules.trans (congrArg (Except.mapError Abort.load) hrules)
    constructor
    · intro hbounded
      have hsteps := options.one_le_stepsOver settings
      have hrun := runRules_bounded hinForce rules context
      rw [← hbounded] at hrun
      exact ⟨_, fun others => Runner.driveBy_int others (by omega) _,
        printsRun_of_run hread hjson hconfigure hloaded hrun⟩
    · intro hunbounded r hyields
      have hrun := runRules_unbounded hyields p { w with settings := some (options.laidOver settings) }
      rw [← hunbounded] at hrun
      exact printsRun_of_run hread hjson hconfigure hloaded hrun
  · intro fault hrules
    have hloaded := hloadRules.trans (congrArg (Except.mapError Abort.load) hrules)
    have hunloaded : executeRun p w path context options = loadFailure p fault := by
      simp only [executeRun, hconfigure, hloaded]
      rfl
    rw [execute_of_run hread, hunloaded, loadFailure]
    cases hreported : fault.isReported with
    | true => exact ⟨rfl, rfl, fun _ => rfl⟩
    | false => exact ⟨rfl, rfl, fun h => by cases h⟩

/-- The directory that holds a listing only, with a rule that makes no progress. -/
def onlyListing : Files := (Tree.ofFiles [("r.txt".toList, .ofText "a -> a".toList)]).lookup

theorem rulesAt_onlyListing {rules : List Rule} (h : Listing.parse "a -> a".toList = .ok rules)
    (p : Platform) (name : List Char) :
    rulesAt p onlyListing "r.txt".toList name =
      .ok (rules, .loadedFile rules.length "r.txt".toList) := by
  have hfile : ∀ node, (Tree.ofFiles [("r.txt".toList, node)]).lookup
      (normalPath (normalPath "r.txt".toList)) = node := fun _ => rfl
  exact Load.listing_of_ok (hfile _) h

/-- What is in the file plays no part in reading the command line. -/
theorem read_onlyListing {args : List Arg} {request : Request}
    (h : ∀ bytes, Request.read (Tree.ofFiles [("r.txt".toList, .file bytes)]).lookup args =
      .ok request) (env : Environment) :
    Platform.usual.readArguments (World.start onlyListing env).files args = .ok request :=
  h _

/-- The budget comes from the options and the flag from the environment: a rule that makes no
    progress is applied as often as the budget allows. -/
theorem run_prints_log_and_json_mixed_sources :
    let env := [("MARKOV_RUNNER_MAX_STEPS".toList, "7".toList),
      ("markov_runner_stop_on_stall".toList, "off".toList)]
    let args := ["run".toList, "r.txt".toList, "a".toList, "--max-steps=2".toList,
      "--format".toList, "JSON".toList]
    ∃ rules r, Listing.parse "a -> a".toList = .ok rules ∧
      (Runner.start ['a']).driveBy .standard ⟨rules⟩ (.int 2) (.bool false) = .ok r ∧
      r.stepCount = 2 ∧ r.stalled = true ∧
      PrintsRun .warning (.loadedFile rules.length "r.txt".toList :: r.journal.toList) r
        (execute .usual (.start onlyListing env) args) := by
  intro env args
  have hread : Platform.usual.readArguments (World.start onlyListing env).files args =
      .ok ⟨.warning, .run "r.txt".toList ['a']
        ⟨none, some ⟨2, by decide⟩, none, false, false, true⟩⟩ :=
    read_onlyListing (fun _ => rfl) env
  have hsettings : inForce .usual (.start onlyListing env) =
      .ok ⟨⟨7, false, by decide⟩, "default".toList⟩ := rfl
  obtain ⟨rules, hrules, hcount, hstalled⟩ :
      ∃ rules, Listing.parse "a -> a".toList = .ok rules ∧
        ((Runner.start ['a']).drive ⟨rules⟩ (.ofInt 2) false).stepCount = 2 ∧
        ((Runner.start ['a']).drive ⟨rules⟩ (.ofInt 2) false).stalled = true :=
    ⟨_, rfl, by decide +kernel, by decide +kernel⟩
  obtain ⟨hprinted, _⟩ :=
    run_prints_log_and_json keywordsWin_usual ⟨none, rfl⟩ hread rfl hsettings
  obtain ⟨hbounded, _⟩ := hprinted _ _ (rulesAt_onlyListing hrules _ _)
  obtain ⟨r, hdriveBy, hprints⟩ := hbounded rfl
  have hdrive := Except.ok.inj
    ((Runner.driveBy_int .standard (by decide) false).symm.trans (hdriveBy .standard))
  exact ⟨rules, r, hrules, hdriveBy .standard, hdrive ▸ hcount, hdrive ▸ hstalled, hprints⟩

/-- Without any options or variables, a run that makes no progress is stopped, and a warning is
    printed before the JSON. -/
theorem run_logs_before_json :
    ∃ rule r, Listing.parse "a -> a".toList = .ok [rule] ∧
      (Runner.start ['a']).driveBy .standard ⟨[rule]⟩ .null .null = .ok r ∧
      (execute .usual (.start onlyListing [])
          ["run".toList, "r.txt".toList, "a".toList, "--format".toList, "json".toList]).events =
        [.logged (.stalled rule ['a']), .printed (r.result.format true ++ ['\n'])] := by
  let options : RunOptions := ⟨none, none, none, false, false, true⟩
  have hread : Platform.usual.readArguments (World.start onlyListing []).files
      ["run".toList, "r.txt".toList, "a".toList, "--format".toList, "json".toList] =
        .ok ⟨.warning, .run "r.txt".toList ['a'] options⟩ :=
    read_onlyListing (fun _ => rfl) []
  have hsettings : inForce .usual (.start onlyListing []) =
      .ok ⟨.standard, "default".toList⟩ := rfl
  obtain ⟨rule, hrules, hseen⟩ : ∃ rule, Listing.parse "a -> a".toList = .ok [rule] ∧
      atLeast .warning (.loadedFile [rule].length "r.txt".toList ::
        ((Runner.start ['a']).drive ⟨[rule]⟩ (.ofInt 10000) true).journal.toList) =
          [.stalled rule ['a']] :=
    ⟨_, rfl, by decide +kernel⟩
  let w : World := { World.start onlyListing [] with
    settings := some (options.laidOver ⟨.standard, "default".toList⟩) }
  have hinForce : inForce .usual w = .ok (options.laidOver ⟨.standard, "default".toList⟩) := rfl
  have hconfigure : configure .usual (.start onlyListing []) options = .ok w :=
    configure_eq keywordsWin_usual ⟨none, rfl⟩ hsettings options
  have hloaded : loadRules .usual w "r.txt".toList none =
      .ok ([rule], .loadedFile [rule].length "r.txt".toList) :=
    (loadRules_of_settings hinForce _ none).trans
      (congrArg (Except.mapError Abort.load) (rulesAt_onlyListing hrules .usual _))
  have hrun : runRules .usual w false [rule] ['a'] =
      .ok ((Runner.start ['a']).drive ⟨[rule]⟩ (.ofInt 10000) true) :=
    runRules_bounded hinForce [rule] ['a']
  have hprints := printsRun_of_run hread rfl hconfigure hloaded hrun
  refine ⟨rule, _, hrules, rfl, ?_⟩
  rw [hprints.transcript, Transcript.success, hseen]
  rfl

end CommandLine

end NormalAlgorithm
