/-
  NormalAlgorithm.Proofs.Session.Interleaving

  Calls on several runners, in any order.

  Runners live in a session under names and share its rulesets. A call on one of them
  sees the rulesets, the settings and what its own name stands for (`SameFor`), and
  leaves something under that name at most (`Local`).

    * `runners_do_not_interfere`: after any sequence of calls on any runners, the rulesets
      are as before, and each runner is where its own calls alone would have led it, with
      the same answers.

  The proof has the shape of an unwinding: a call on the runner leads sessions that look
  the same to it to such sessions again (`Does.on_same`), and a call on another runner
  cannot be seen (`SameFor.put_other`).
-/

import NormalAlgorithm.Proofs.Runner.Run
import NormalAlgorithm.Proofs.Session.Basic

namespace NormalAlgorithm.Session

variable {m : Machine} {s t : Session} {name : Name}

/-! ## What a call sees -/

/-- Let a name stand for something, or leave all as it is. -/
def put (s : Session) (name : Name) : Option Thing → Session
  | some thing => s.bind name thing
  | none => s

theorem rulesets_put (s : Session) (name : Name) (thing : Option Thing) :
    (s.put name thing).rulesets = s.rulesets := by
  cases thing <;> rfl

theorem settings_put (s : Session) (name : Name) (thing : Option Thing) :
    (s.put name thing).settings = s.settings := by
  cases thing <;> rfl

/-- Two sessions that look the same to the runner of a name. -/
structure SameFor (name : Name) (s t : Session) : Prop where
  rulesets : t.rulesets = s.rulesets
  settings : t.settings = s.settings
  thing : t.thing? name = s.thing? name

namespace SameFor

theorem refl (name : Name) (s : Session) : SameFor name s s := ⟨rfl, rfl, rfl⟩

theorem runnerNamed (h : SameFor name s t) : t.runnerNamed name = s.runnerNamed name := by
  rw [Session.runnerNamed, Session.runnerNamed, h.thing]

theorem rulesFor (h : SameFor name s t) (position : Option Nat) (r : Runner) :
    t.rulesFor position r = s.rulesFor position r := by
  simp only [Session.rulesFor, rulesetAt, h.rulesets]

/-- The same thing put under the name looks the same again. -/
theorem put (h : SameFor name s t) (thing : Option Thing) :
    SameFor name (s.put name thing) (t.put name thing) := by
  refine ⟨?_, ?_, ?_⟩
  · rw [rulesets_put, rulesets_put, h.rulesets]
  · rw [settings_put, settings_put, h.settings]
  · cases thing with
    | none => exact h.thing
    | some thing => exact (thing?_bind_self t name thing).trans (thing?_bind_self s name thing).symm

/-- What is put under another name cannot be seen. -/
theorem put_other {other : Name} (h : SameFor name s t) (hne : name ≠ other)
    (thing : Option Thing) : SameFor name (s.put other thing) t := by
  refine ⟨?_, ?_, ?_⟩
  · rw [rulesets_put, h.rulesets]
  · rw [settings_put, h.settings]
  · cases thing with
    | none => exact h.thing
    | some thing => exact h.thing.trans (thing?_bind_of_ne hne s thing).symm

end SameFor

/-! ## Calls -/

/-- The runner that a request is a call on. -/
def Command.calls? : Command → Option Name
  | .step name | .run name | .stop name | .canStep name | .drive name .. | .result name
  | .history name | .format name _ => some name
  | _ => none

/-- A request that depends on what a name stands for and changes nothing else: it has one
    effect on all sessions that look the same to the name. -/
def Local (name : Name) (s : Session) (request : Session → Outcome) : Prop :=
  ∃ effect : Except Fault (Option Thing × Answer),
    ∀ t, SameFor name s t → request t = effect.map fun x => (t.put name x.1, x.2)

theorem local_inspect (name : Name) (s : Session) (answer : Runner → Answer) :
    Local name s fun t => t.inspect name answer := by
  refine ⟨(s.runnerNamed name).map fun x => (none, answer x.2), fun t ht => ?_⟩
  dsimp only
  rw [inspect, ht.runnerNamed]
  cases s.runnerNamed name <;> rfl

theorem local_alter (name : Name) (s : Session) (change : Runner → Runner) :
    Local name s fun t => t.alter name change := by
  refine ⟨(s.runnerNamed name).map fun x => (some (.runner x.1 (change x.2)), .nothing),
    fun t ht => ?_⟩
  dsimp only
  rw [alter, ht.runnerNamed]
  cases s.runnerNamed name <;> rfl

theorem local_move (name : Name) (s : Session)
    (change : Ruleset → Runner → Except Fault (Answer × Runner)) :
    Local name s fun t => t.move name change := by
  refine ⟨(s.runnerNamed name).bind fun found =>
    (s.rulesFor found.1 found.2).bind fun rules =>
      (change rules found.2).map fun x => (some (.runner found.1 x.2), x.1), fun t ht => ?_⟩
  dsimp only
  rw [move, ht.runnerNamed]
  cases s.runnerNamed name with
  | error fault => rfl
  | ok found =>
      simp only [Bind.bind, Except.bind, ht.rulesFor]
      cases s.rulesFor found.1 found.2 with
      | error fault => rfl
      | ok rules =>
          dsimp only
          cases change rules found.2 <;> rfl

/-- With the settings in force, a bounded run has no need to build them. -/
theorem local_driveNamed (name : Name) (hs : s.settings.isSome = true)
    (limit stopOnStall : Value) :
    Local name s fun t => t.driveNamed name limit stopOnStall := by
  obtain ⟨settings, hsettings⟩ := Option.isSome_iff_exists.mp hs
  refine ⟨if (s.thing? name).isNone then .error .unknown else
    ((Budget.ofLimit settings.runner limit).mapError .run).bind fun _ =>
      (s.runnerNamed name).bind fun found =>
        (s.rulesFor found.1 found.2).bind fun rules =>
          ((found.2.driveBy settings.runner rules limit stopOnStall).mapError .run).map fun r =>
            (some (.runner found.1 r), .outcome r.result), fun t ht => ?_⟩
  have hinForce : t.inForce.mapError Fault.settings = .ok (settings, t) := by
    rw [inForce_of_settings (ht.settings.trans hsettings)]
    rfl
  dsimp only
  rw [driveNamed, hinForce, ht.thing]
  cases (s.thing? name).isNone with
  | true => rfl
  | false =>
      simp only [Bind.bind, Except.bind, Bool.false_eq_true, if_false, pure, Except.pure]
      cases Budget.ofLimit settings.runner limit with
      | error fault => rfl
      | ok budget =>
          simp only [ht.runnerNamed]
          cases s.runnerNamed name with
          | error fault => rfl
          | ok found =>
              simp only [ht.rulesFor]
              cases s.rulesFor found.1 found.2 with
              | error fault => rfl
              | ok rules =>
                  dsimp only
                  cases found.2.driveBy settings.runner rules limit stopOnStall <;> rfl

/-- A call on a runner concerns its name only. -/
theorem local_execute {command : Command} (h : command.calls? = some name)
    (hs : command.asksSettings = true → s.settings.isSome = true) :
    Local name s fun t => t.execute command := by
  cases command with
  | step other =>
      cases h
      exact local_move name s fun rules r => .ok (.rule (r.fired? rules), r.step rules)
  | run other =>
      cases h
      exact local_move name s runToEnd
  | stop other =>
      cases h
      exact local_alter name s fun r => r.halt .stopped
  | canStep other =>
      cases h
      exact local_move name s fun rules r => .ok (.flag (r.canStep rules), r)
  | drive other limit stopOnStall =>
      cases h
      exact local_driveNamed name (hs rfl) limit stopOnStall
  | result other =>
      cases h
      exact local_inspect name s fun r => .result r.result
  | history other =>
      cases h
      exact local_inspect name s fun r => .entries r.history.toList
  | format other pretty =>
      cases h
      exact local_inspect name s fun r => .text (r.result.format pretty)
  | _ => cases h

theorem moves?_of_calls? {command : Command} (h : command.calls? = some name) :
    command.moves? = some name ∨ command.moves? = none := by
  cases command <;> cases h <;> simp [Command.moves?]

/-- What a step leaves that finds no ruleset: the start of the history is recorded. -/
theorem exists_put_begun {command : Command} (h : command.calls? = some name) (s : Session) :
    ∃ thing, ∀ t, SameFor name s t → t.begun command = t.put name thing := by
  rcases moves?_of_calls? h with hmoves | hmoves
  · cases hthing : s.thing? name with
    | none =>
        refine ⟨none, fun t ht => ?_⟩
        simp only [begun, hmoves, ht.thing, hthing, put]
    | some thing =>
        cases thing with
        | ruleset position =>
            refine ⟨none, fun t ht => ?_⟩
            simp only [begun, hmoves, ht.thing, hthing, put]
        | runner position r =>
            refine ⟨some (.runner position r.recordStart), fun t ht => ?_⟩
            simp only [begun, hmoves, ht.thing, hthing, put]
  · refine ⟨none, fun t _ => ?_⟩
    simp only [begun, hmoves, put]

/-- A call puts one thing under its name and gives one answer, in all sessions that look
    the same to it. -/
theorem exists_put_perform {command : Command} (h : command.calls? = some name)
    (hs : command.asksSettings = true → s.settings.isSome = true) :
    ∃ thing answer, ∀ t, SameFor name s t →
      (t.perform m command).1 = t.put name thing ∧ (t.perform m command).2.1 = answer := by
  obtain ⟨effect, heffect⟩ := local_execute h hs
  have hprepare : ∀ t, SameFor name s t → t.prepare command = t := by
    intro t ht
    apply prepare_of_settings
    rw [ht.settings]
    exact hs
  cases effect with
  | ok x =>
      refine ⟨x.1, .ok x.2, fun t ht => ?_⟩
      rw [perform_of_ok (hprepare t ht) (heffect t ht)]
      exact ⟨rfl, rfl⟩
  | error fault =>
      by_cases hkind : fault = .wrongKind
      · subst hkind
        obtain ⟨thing, hbegun⟩ := exists_put_begun h s
        refine ⟨thing, .error .wrongKind, fun t ht => ?_⟩
        rw [perform_of_wrongKind (hprepare t ht) (heffect t ht)]
        exact ⟨hbegun t ht, rfl⟩
      · refine ⟨none, .error (fault.raised m), fun t ht => ?_⟩
        rw [perform_of_error (hprepare t ht) (heffect t ht) hkind]
        exact ⟨rfl, rfl⟩

/-! ## Calls that come to an end -/

/-- `Does m s command answer s'`: the request ends with the answer and leaves `s'`. A run
    without a bound ends if any number of steps leads it to its end. -/
inductive Does (m : Machine) (s : Session) : Command → Except Fault Answer → Session → Prop where
  | request {command : Command} {answer : Except Fault Answer}
      (h : (s.perform m command).2.1 = answer) (hends : answer ≠ .error .endless) :
    Does m s command answer (s.perform m command).1
  | run {name : Name} {position : Option Nat} {r r' : Runner} {rules : Ruleset} {fuel : Nat}
      (hr : s.runnerNamed name = .ok (position, r)) (hrules : s.rulesFor position r = .ok rules)
      (h : r.runWithin rules fuel = some r') :
    Does m s (.run name) (.ok (.flag (!r.halted))) (s.bind name (.runner position r'))

theorem execute_run {position : Option Nat} {r : Runner} {rules : Ruleset}
    (hr : s.runnerNamed name = .ok (position, r)) (hrules : s.rulesFor position r = .ok rules) :
    s.execute (.run name) =
      (runToEnd rules r).map fun x => (s.bind name (.runner position x.2), x.1) := by
  rw [execute, move, hr]
  simp only [Bind.bind, Except.bind, hrules]
  cases runToEnd rules r <;> rfl

/-- A run that the session carries out to its end leaves the only state in which the run
    can end. -/
theorem perform_run_unique {position : Option Nat} {r r' : Runner} {rules : Ruleset} {fuel : Nat}
    (hr : s.runnerNamed name = .ok (position, r)) (hrules : s.rulesFor position r = .ok rules)
    (h : r.runWithin rules fuel = some r')
    (hends : (s.perform m (.run name)).2.1 ≠ .error .endless) :
    (s.perform m (.run name)).2.1 = .ok (.flag (!r.halted)) ∧
      (s.perform m (.run name)).1 = s.bind name (.runner position r') := by
  have hexecute := execute_run hr hrules
  have hprepare : s.prepare (.run name) = s := rfl
  rw [runToEnd] at hexecute
  cases hdone : r.runWithin rules Runner.patience with
  | none =>
      rw [hdone] at hexecute
      rw [perform_of_error hprepare hexecute (by nofun)] at hends
      exact absurd rfl hends
  | some done =>
      have hsame : done = r' := Runner.Yields.run_unique (.run hdone) (.run h)
      rw [hdone, hsame] at hexecute
      rw [perform_of_ok hprepare hexecute]
      exact ⟨rfl, rfl⟩

/-- A request ends in one way only. -/
theorem Does.unique {command : Command} {answer answer' : Except Fault Answer}
    {s₁ s₂ : Session} (h₁ : Does m s command answer s₁) (h₂ : Does m s command answer' s₂) :
    answer = answer' ∧ s₁ = s₂ := by
  cases h₁ with
  | request h hends =>
      cases h₂ with
      | request h' _ => exact ⟨h.symm.trans h', rfl⟩
      | run hr hrules hrun =>
          obtain ⟨hanswer, hleft⟩ := perform_run_unique hr hrules hrun (h ▸ hends)
          exact ⟨h.symm.trans hanswer, hleft⟩
  | run hr hrules hrun =>
      cases h₂ with
      | request h' hends' =>
          obtain ⟨hanswer, hleft⟩ := perform_run_unique hr hrules hrun (h' ▸ hends')
          exact ⟨hanswer.symm.trans h', hleft.symm⟩
      | run hr' hrules' hrun' =>
          rw [hr] at hr'
          cases hr'
          rw [hrules] at hrules'
          cases hrules'
          rw [Runner.Yields.run_unique (.run hrun) (.run hrun')]
          exact ⟨rfl, rfl⟩

/-- A call that ends puts something under its name, and the same in all sessions that look
    the same to it. -/
theorem Does.on_same {command : Command} {answer : Except Fault Answer} {s' : Session}
    (h : Does m s command answer s') (hcalls : command.calls? = some name)
    (hs : command.asksSettings = true → s.settings.isSome = true) :
    ∃ thing, s' = s.put name thing ∧
      ∀ t, SameFor name s t → Does m t command answer (t.put name thing) := by
  cases h with
  | request h hends =>
      obtain ⟨thing, given, hall⟩ := exists_put_perform hcalls hs
      obtain ⟨hleft, hgiven⟩ := hall s (.refl name s)
      refine ⟨thing, hleft, fun t ht => ?_⟩
      obtain ⟨hleft', hgiven'⟩ := hall t ht
      rw [← hleft']
      exact .request (hgiven'.trans (hgiven.symm.trans h)) hends
  | @run other position r r' rules fuel hr hrules hrun =>
      cases hcalls
      refine ⟨some (.runner position r'), rfl, fun t ht => ?_⟩
      exact .run (ht.runnerNamed.trans hr) ((ht.rulesFor position r).trans hrules) hrun

/-! ## Sequences of calls -/

/-- A request with the answer that it was given. -/
abbrev Exchange := Command × Except Fault Answer

/-- `Plays m s exchanges s'`: the requests are made one after the other and are given these
    answers, from `s` to `s'`. -/
inductive Plays (m : Machine) : Session → List Exchange → Session → Prop where
  | nil {s : Session} : Plays m s [] s
  | cons {s s' s'' : Session} {command : Command} {answer : Except Fault Answer}
      {rest : List Exchange} (h : Does m s command answer s') (hrest : Plays m s' rest s'') :
    Plays m s ((command, answer) :: rest) s''

/-- The exchanges with the runner of a name. -/
def exchangesWith (name : Name) (exchanges : List Exchange) : List Exchange :=
  exchanges.filter fun x => x.1.calls? == some name

variable {exchanges : List Exchange} {s' : Session}

/-- The same requests are given the same answers and lead to the same session. -/
theorem Plays.unique {others : List Exchange} {s'' : Session} (h : Plays m s exchanges s')
    (hsame : others.map Prod.fst = exchanges.map Prod.fst) (h' : Plays m s others s'') :
    others = exchanges ∧ s'' = s' := by
  induction h generalizing others with
  | nil =>
      cases h' with
      | nil => exact ⟨rfl, rfl⟩
      | cons _ _ => cases hsame
  | cons hdoes _ ih =>
      cases h' with
      | nil => cases hsame
      | cons hdoes' hrest' =>
          obtain ⟨rfl, hrest⟩ := List.cons.inj hsame
          obtain ⟨rfl, rfl⟩ := hdoes.unique hdoes'
          obtain ⟨rfl, rfl⟩ := ih hrest hrest'
          exact ⟨rfl, rfl⟩

theorem Plays.rulesets_eq (h : Plays m s exchanges s')
    (hcalls : ∀ x ∈ exchanges, x.1.calls?.isSome = true)
    (hs : ∀ x ∈ exchanges, x.1.asksSettings = true → s.settings.isSome = true) :
    s'.rulesets = s.rulesets := by
  induction h with
  | nil => rfl
  | cons hdoes _ ih =>
      obtain ⟨hcall, hrest⟩ := List.forall_mem_cons.mp hcalls
      obtain ⟨hasks, hasks'⟩ := List.forall_mem_cons.mp hs
      obtain ⟨name, hname⟩ := Option.isSome_iff_exists.mp hcall
      obtain ⟨thing, rfl, _⟩ := hdoes.on_same hname hasks
      rw [ih hrest (by rw [settings_put]; exact hasks'), rulesets_put]

/-- Without the calls on the others, a runner that finds a session that looks the same is
    given the same answers, and ends in a session that looks the same again. -/
theorem Plays.alone (h : Plays m s exchanges s')
    (hcalls : ∀ x ∈ exchanges, x.1.calls?.isSome = true)
    (hs : ∀ x ∈ exchanges, x.1.asksSettings = true → s.settings.isSome = true)
    (hsame : SameFor name s t) :
    ∃ t', Plays m t (exchangesWith name exchanges) t' ∧ SameFor name s' t' := by
  induction h generalizing t with
  | nil => exact ⟨t, .nil, hsame⟩
  | @cons s s₁ s' command answer rest hdoes _ ih =>
      obtain ⟨hcall, hrest⟩ := List.forall_mem_cons.mp hcalls
      obtain ⟨hasks, hasks'⟩ := List.forall_mem_cons.mp hs
      obtain ⟨other, hother⟩ := Option.isSome_iff_exists.mp hcall
      obtain ⟨thing, rfl, hall⟩ := hdoes.on_same hother hasks
      have hs₁ : ∀ x ∈ rest, x.1.asksSettings = true →
          (s.put other thing).settings.isSome = true := by
        rw [settings_put]
        exact hasks'
      by_cases hne : name = other
      · -- a call on the runner itself is made in both
        subst hne
        obtain ⟨t', hplays, hsame'⟩ := ih hrest hs₁ (hsame.put thing)
        refine ⟨t', ?_, hsame'⟩
        rw [exchangesWith, List.filter_cons_of_pos (by simp [hother])]
        exact .cons (hall t hsame) hplays
      · obtain ⟨t', hplays, hsame'⟩ := ih hrest hs₁ (hsame.put_other hne thing)
        refine ⟨t', ?_, hsame'⟩
        rw [exchangesWith, List.filter_cons_of_neg (by simp [hother, Ne.symm hne])]
        exact hplays

/-- Calls on any runners in any order, with the settings in force if one of them asks for
    these: no ruleset is changed, and each runner ends as it does when only the calls on it
    are made, which are then given the same answers. -/
theorem runners_do_not_interfere
    (hs : ∀ x ∈ exchanges, x.1.asksSettings = true → s.settings.isSome = true)
    (hcalls : ∀ x ∈ exchanges, x.1.calls?.isSome = true) (h : Plays m s exchanges s') :
    s'.rulesets = s.rulesets ∧
      ∀ name, ∃ alone, Plays m s (exchangesWith name exchanges) alone ∧
        alone.thing? name = s'.thing? name ∧
        ∀ others s'', others.map Prod.fst = (exchangesWith name exchanges).map Prod.fst →
          Plays m s others s'' → others = exchangesWith name exchanges ∧ s'' = alone := by
  refine ⟨h.rulesets_eq hcalls hs, fun name => ?_⟩
  obtain ⟨alone, hplays, hsame⟩ := h.alone hcalls hs (.refl name s)
  exact ⟨alone, hplays, hsame.thing, fun _ _ => hplays.unique⟩

/-- Two runners of one ruleset take turns: a step and a question to one, a run to the end
    and a bounded run of the other. -/
theorem runners_do_not_interfere_taking_turns :
    ∃ (s s' : Session) (exchanges : List Exchange),
      (∀ x ∈ exchanges, x.1.asksSettings = true → s.settings.isSome = true) ∧
      (∀ x ∈ exchanges, x.1.calls?.isSome = true) ∧
      Plays .usual s exchanges s' ∧
      (exchanges.map fun x => x.1.calls?) = [some ['p'], some ['q'], some ['p'], some ['q']] ∧
      (["p".toList, "q".toList].map fun name => (s.runnerNamed name).toOption.map Prod.fst) =
        [some (some 0), some (some 0)] ∧
      s'.rulesets = s.rulesets ∧
      ∀ name, ∃ alone, Plays .usual s (exchangesWith name exchanges) alone ∧
        alone.thing? name = s'.thing? name ∧
        ∀ others s'', others.map Prod.fst = (exchangesWith name exchanges).map Prod.fst →
          Plays .usual s others s'' → others = exchangesWith name exchanges ∧ s'' = alone := by
  let rule : Rule := ⟨['a', 'b'], ['b'], false, List.all_eq_true.mp rfl, List.all_eq_true.mp rfl⟩
  let s : Session :=
    ⟨[⟨[rule]⟩], [(['p'], .runner (some 0) (.start ['a', 'a', 'b'])),
      (['q'], .runner (some 0) (.start ['a', 'b']))], [], some ⟨.standard, []⟩, .usual⟩
  let q : Runner := (Runner.step ⟨[rule]⟩)^[2] (.start ['a', 'b'])
  have hrun : (Runner.start ['a', 'b']).runWithin ⟨[rule]⟩ 2 = some q := by decide +kernel
  let exchanges : List Exchange :=
    [(.step ['p'], .ok (.rule (some rule))), (.run ['q'], .ok (.flag true)),
      (.canStep ['p'], .ok (.flag true)),
      (.drive ['q'] (.int 1) (.bool true), .ok (.outcome q.result))]
  have hplays : Plays .usual s exchanges _ :=
    .cons (.request rfl (by nofun)) (.cons (.run rfl rfl hrun) (.cons (.request rfl (by nofun))
      (.cons (.request rfl (by nofun)) .nil)))
  have hcalls : ∀ x ∈ exchanges, x.1.calls?.isSome = true := by decide
  have hs : ∀ x ∈ exchanges, x.1.asksSettings = true → s.settings.isSome = true :=
    fun _ _ _ => rfl
  exact ⟨s, _, exchanges, hs, hcalls, hplays, rfl, rfl,
    runners_do_not_interfere hs hcalls hplays⟩

end NormalAlgorithm.Session
