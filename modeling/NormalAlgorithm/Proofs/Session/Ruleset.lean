/-
  NormalAlgorithm.Proofs.Session.Ruleset

  Rulesets in a session, as plain lists of rules.

  What is asked of a list of rules is answered from the list alone
  (`ListRequest.respond`): positions are brought into range where a rule is added or
  removed and have to be in range where one is exchanged, and what is no rule is refused
  before the position is looked at.

    * `ruleset_refines_list`: a named ruleset answers every sequence of requests like the
      list of its rules and holds the list that comes of it, and a request that fails
      leaves the session as it was.

  One request is `perform_request`; the edits of lists are those of
  `NormalAlgorithm.Proofs.Ruleset.Edit`.
-/

import NormalAlgorithm.Proofs.Ruleset.Edit
import NormalAlgorithm.Proofs.Session.Basic

namespace NormalAlgorithm.Session

/-! ## Lists of rules -/

/-- What is given where a rule is expected, with its description. -/
structure Offer where
  draft : Draft
  operand : Operand
  builds : draft.build = .ok operand

/-- A request to a list of rules. -/
inductive ListRequest where
  | add (offer : Offer) (position : Option Index)
  | remove (position : Option Index)
  | set (offer : Offer) (position : Index)
  | get (position : Index)
  | hasRules
  | size
  | rules
  | render
  | literal
  | equals (value : Value)

namespace ListRequest

/-- The request to the ruleset of a name. -/
def command (name : Name) : ListRequest → Command
  | .add offer position => .add name offer.draft (Index.valueOrNull position)
  | .remove position => .remove name (Index.valueOrNull position)
  | .set offer position => .set name offer.draft position.value
  | .get position => .get name position.value
  | .hasRules => .hasRules name
  | .size => .size name
  | .rules => .rules name
  | .render => .render name
  | .literal => .literal name
  | .equals value => .equals name (.value value)

/-- Edit a list with a rule. What is no rule is refused, and the list stays. -/
def withRule (xs : List Rule) (edit : Rule → Except EditFault Answer × List Rule) :
    Operand → Except EditFault Answer × List Rule
  | .rule rule => edit rule
  | .other value => (.error (.notRule value.kindName), xs)

/-- The answer to a request, and the list after it. -/
def respond (xs : List Rule) : ListRequest → Except EditFault Answer × List Rule
  | .add offer position =>
    withRule xs (fun rule =>
      let i := Ruleset.place xs.length (position.map Index.number)
      (.ok (.flag true), xs.insertIdx i rule)) offer.operand
  | .remove position =>
    if xs = [] then (.ok (.rule none), xs)
    else
      let i := Ruleset.place (xs.length - 1) (position.map Index.number)
      (.ok (.rule xs[i]?), xs.eraseIdx i)
  | .set offer position =>
    withRule xs (fun rule =>
      if 0 ≤ position.number ∧ position.number < xs.length then
        (.ok (.rule xs[position.number.toNat]?), xs.set position.number.toNat rule)
      else (.error (.noRule position.value xs.length), xs)) offer.operand
  | .get position =>
    (.ok (.rule (if 0 ≤ position.number ∧ position.number < xs.length then
      xs[position.number.toNat]? else none)), xs)
  | .hasRules => (.ok (.flag (decide (0 < xs.length))), xs)
  | .size => (.ok (.count xs.length), xs)
  | .rules => (.ok (.rules xs), xs)
  | .render => (.ok (.text (Listing.render xs)), xs)
  | .literal => (.ok (.text (Ruleset.literal ⟨xs⟩)), xs)
  | .equals _ => (.ok (.flag false), xs)

/-- The answers to requests made one after the other, and the list after them. -/
def respondAll (xs : List Rule) :
    List ListRequest → List (Except EditFault Answer) × List Rule
  | [] => ([], xs)
  | request :: rest =>
    let first := request.respond xs
    let others := respondAll first.2 rest
    (first.1 :: others.1, others.2)

end ListRequest

/-! ## Named rulesets -/

/-- The name stands for a ruleset with these rules. -/
def Holds (s : Session) (name : Name) (rules : List Rule) : Prop :=
  ∃ position, s.thing? name = some (.ruleset position) ∧ s.rulesets[position]? = some ⟨rules⟩

/-- Requests carried out one after the other: the session after them, and what became of
    each. -/
def performAll (m : Machine) (s : Session) : List Command → Session × List (Except Fault Answer)
  | [] => (s, [])
  | command :: rest =>
    let first := s.perform m command
    let others := performAll m first.1 rest
    (others.1, first.2.1 :: others.2)

variable {m : Machine} {s : Session} {name : Name} {xs : List Rule}

theorem rulesetNamed_of_thing {position : Nat} (h : s.thing? name = some (.ruleset position)) :
    s.rulesetNamed name = .ok position := by
  rw [rulesetNamed, h]

theorem rulesetAt_of_getElem {position : Nat} {rules : Ruleset}
    (h : s.rulesets[position]? = some rules) : s.rulesetAt position = rules := by
  rw [rulesetAt, List.getD_eq_getElem?_getD, h, Option.getD_some]

theorem holds_putRuleset {position : Nat} {rules : Ruleset} (ys : List Rule)
    (hname : s.thing? name = some (.ruleset position))
    (h : s.rulesets[position]? = some rules) : (s.putRuleset position ⟨ys⟩).Holds name ys := by
  have hlt : position < s.rulesets.length := (List.getElem?_eq_some_iff.mp h).1
  exact ⟨position, hname, List.getElem?_set_self hlt⟩

/-- A list of rules and the answer to a request, as what an edit of a ruleset gives. -/
def edited (x : Except EditFault Answer × List Rule) : Except EditFault (Answer × Ruleset) :=
  x.1.map fun answer => (answer, ⟨x.2⟩)

/-- What a session answers for a list of rules. The fault is the list's, unless the machine
    cannot write it: the position of an exchange may be too long a number. -/
def reply (m : Machine) : Except EditFault Answer → Except Fault Answer
  | .ok answer => .ok answer
  | .error fault => .error ((m.writingAll fault.values).elim (.edit fault) .gaveOut)

theorem raised_edit (m : Machine) (fault : EditFault) :
    (Fault.edit fault).raised m = (m.writingAll fault.values).elim (.edit fault) .gaveOut := by
  rw [Fault.raised, Fault.values]
  cases m.writingAll fault.values <;> rfl

/-- An edit that does to a ruleset what is done to the list of its rules. One that fails has
    to leave the list as it is. -/
theorem perform_edit {command : Command} {x : Except EditFault Answer × List Rule}
    (change : Ruleset → Except EditFault (Answer × Ruleset))
    (hprepare : s.prepare command = s) (hexecute : s.execute command = s.edit name change)
    (h : s.Holds name xs) (hchange : change ⟨xs⟩ = edited x)
    (hkeep : ∀ fault, x.1 = .error fault → x.2 = xs) :
    (s.perform m command).2.1 = reply m x.1 ∧ (s.perform m command).1.Holds name x.2 := by
  obtain ⟨position, hname, hrules⟩ := h
  obtain ⟨answer, ys⟩ := x
  rw [edit, rulesetNamed_of_thing hname] at hexecute
  simp only [Bind.bind, Except.bind, rulesetAt_of_getElem hrules, hchange] at hexecute
  cases answer with
  | error fault =>
      -- the session stays, so the list must not have changed either
      rw [perform_of_error hprepare hexecute (by nofun), hkeep fault rfl, raised_edit]
      exact ⟨rfl, position, hname, hrules⟩
  | ok answer =>
      rw [perform_of_ok hprepare hexecute]
      exact ⟨rfl, holds_putRuleset ys hname hrules⟩

theorem editWith_offer (h : s.Holds name xs) (offer : Offer)
    (change : Operand → Ruleset → Except EditFault (Answer × Ruleset)) :
    s.editWith name offer.draft change = s.edit name (change offer.operand) := by
  obtain ⟨position, hname, _⟩ := h
  rw [editWith, rulesetNamed_of_thing hname, offer.builds]
  rfl

/-- A question is answered from the rules, and changes nothing. -/
theorem perform_ask {command : Command} (answer : Ruleset → Answer)
    (hprepare : s.prepare command = s) (hexecute : s.execute command = s.ask name answer)
    (h : s.Holds name xs) :
    (s.perform m command).2.1 = .ok (answer ⟨xs⟩) ∧ (s.perform m command).1.Holds name xs := by
  have hholds := h
  obtain ⟨position, hname, hrules⟩ := h
  rw [ask, rulesetNamed_of_thing hname] at hexecute
  simp only [Bind.bind, Except.bind, rulesetAt_of_getElem hrules] at hexecute
  rw [perform_of_ok hprepare hexecute]
  exact ⟨rfl, hholds⟩

theorem askItems_of_holds (h : s.Holds name xs) (answer : Ruleset → Answer) :
    s.askItems name answer = s.ask name answer := by
  obtain ⟨position, hname, _⟩ := h
  rw [askItems, hname]

theorem execute_get (position : Index) :
    s.execute (.get name position.value) =
      s.ask name fun rules => .rule (rules.get? position.number) := by
  simp only [execute, ask, Ruleset.ruleAt_index]
  rfl

theorem execute_equals (h : s.Holds name xs) (value : Value) :
    s.execute (.equals name (.value value)) = s.ask name fun _ => .flag false := by
  obtain ⟨position, hname, _⟩ := h
  simp only [execute, equals, ask, rulesetNamed, hname]
  rfl

/-! ## One request -/

theorem edited_add (offer : Offer) (position : Option Index) :
    ((Ruleset.mk xs).insertAt offer.operand (Index.valueOrNull position)).map
        (fun rules => (Answer.flag true, rules)) =
      edited ((ListRequest.add offer position).respond xs) := by
  rw [Ruleset.insertAt_index]
  simp only [ListRequest.respond]
  cases offer.operand with
  | rule rule =>
      simp only [Operand.require, Except.map, Ruleset.add_eq]
      rfl
  | other value => rfl

theorem edited_remove (position : Option Index) :
    ((Ruleset.mk xs).removeAt (Index.valueOrNull position)).map
        (fun (rule, rules) => (Answer.rule rule, rules)) =
      edited ((ListRequest.remove position).respond xs) := by
  rw [Ruleset.removeAt_index]
  simp only [ListRequest.respond]
  split
  · rfl
  · rw [Ruleset.remove_eq]
    rfl

theorem edited_set (offer : Offer) (position : Index) :
    ((Ruleset.mk xs).replaceAt offer.operand position.value).map
        (fun (rule, rules) => (Answer.rule (some rule), rules)) =
      edited ((ListRequest.set offer position).respond xs) := by
  have hget : (Ruleset.mk xs).get? position.number =
      if 0 ≤ position.number ∧ position.number < xs.length then xs[position.number.toNat]?
      else none := Ruleset.get?_eq _ _
  rw [Ruleset.replaceAt_index]
  simp only [ListRequest.respond]
  cases offer.operand with
  | other value => rfl -- refused for what it is, in range or not
  | rule rule =>
      simp only [Operand.require, ListRequest.withRule]
      by_cases hin : 0 ≤ position.number ∧ position.number < xs.length
      · have hlt : position.number.toNat < xs.length := by omega
        rw [if_pos hin, List.getElem?_eq_getElem hlt] at hget
        rw [hget, if_pos hin, List.getElem?_eq_getElem hlt]
        rfl
      · rw [if_neg hin] at hget
        rw [hget, if_neg hin]
        rfl

/-- A request that fails leaves the list as it is. -/
theorem ListRequest.respond_keeps {request : ListRequest} {fault : EditFault}
    (h : (request.respond xs).1 = .error fault) : (request.respond xs).2 = xs := by
  cases request with
  | add offer position =>
      simp only [respond] at h ⊢
      cases hoperand : offer.operand with
      | rule rule => rw [hoperand] at h; cases h
      | other value => rfl
  | remove position =>
      simp only [respond] at h ⊢
      split at h <;> cases h
  | set offer position =>
      simp only [respond] at h ⊢
      cases hoperand : offer.operand with
      | rule rule =>
          rw [hoperand] at h
          simp only [withRule] at h ⊢
          split at h
          · cases h
          · rename_i hout
            rw [if_neg hout]
      | other value => rfl
  | _ => cases h

theorem prepare_command (s : Session) (name : Name) (request : ListRequest) :
    s.prepare (request.command name) = s := by
  cases request <;> rfl

/-- A named ruleset answers a request like the list of its rules, and holds the list
    after it. -/
theorem perform_request (h : s.Holds name xs) (request : ListRequest) :
    (s.perform m (request.command name)).2.1 = reply m (request.respond xs).1 ∧
      (s.perform m (request.command name)).1.Holds name (request.respond xs).2 := by
  have hprepare := prepare_command s name request
  have hkeep : ∀ fault, (request.respond xs).1 = .error fault → (request.respond xs).2 = xs :=
    fun _ => ListRequest.respond_keeps
  cases request with
  | add offer position =>
      exact perform_edit _ hprepare (editWith_offer h offer _) h (edited_add offer position) hkeep
  | remove position =>
      exact perform_edit (fun rules => (rules.removeAt (Index.valueOrNull position)).map
        fun (rule, rules) => (.rule rule, rules)) hprepare rfl h (edited_remove position) hkeep
  | set offer position =>
      exact perform_edit _ hprepare (editWith_offer h offer _) h (edited_set offer position) hkeep
  | get position =>
      have hget := perform_ask (m := m) (fun rules => .rule (rules.get? position.number)) hprepare
        (execute_get position) h
      rwa [Ruleset.get?_eq] at hget
  | hasRules =>
      have hhas := perform_ask (m := m) (fun rules => .flag rules.hasRules) hprepare rfl h
      rwa [Ruleset.hasRules_eq] at hhas
  | size => exact perform_ask _ hprepare (askItems_of_holds h _) h
  | rules => exact perform_ask _ hprepare (askItems_of_holds h _) h
  | render => exact perform_ask (fun rules => .text rules.render) hprepare rfl h
  | literal => exact perform_ask (fun rules => .text rules.literal) hprepare rfl h
  | equals value => exact perform_ask (fun _ => .flag false) hprepare (execute_equals h value) h

/-- A request that fails leaves the session as it is, whatever the name stands for. -/
theorem perform_request_keeps {request : ListRequest} {fault : Fault}
    (h : (s.perform m (request.command name)).2.1 = .error fault) :
    (s.perform m (request.command name)).1 = s := by
  have hmoves : (request.command name).moves? = none := by cases request <;> rfl
  exact perform_keeps_of_error (prepare_command s name request) hmoves h

/-- Two named rulesets are equal when they hold the same rules. -/
theorem perform_equals {other : Name} {ys : List Rule} (h : s.Holds name xs)
    (hother : s.Holds other ys) :
    s.perform m (.equals name (.named other)) = (s, .ok (.flag (decide (xs = ys))), []) := by
  obtain ⟨position, hname, hrules⟩ := h
  obtain ⟨position', hname', hrules'⟩ := hother
  have hequals : s.equals name (.named other) = .ok (decide (xs = ys)) := by
    simp only [equals, hname, hname', rulesetAt_of_getElem hrules, rulesetAt_of_getElem hrules',
      Ruleset.mk.injEq]
  have hexecute : s.execute (.equals name (.named other)) =
      .ok (s, .flag (decide (xs = ys))) := by
    rw [execute, hequals]
    rfl
  exact perform_of_ok rfl hexecute

/-! ## Sequences of requests -/

/-- Requests made one after the other are answered like those to a list, which is what the
    name stands for after them. -/
theorem performAll_requests (h : s.Holds name xs) (requests : List ListRequest) :
    (s.performAll m (requests.map (·.command name))).2 =
        (ListRequest.respondAll xs requests).1.map (reply m) ∧
      (s.performAll m (requests.map (·.command name))).1.Holds name
        (ListRequest.respondAll xs requests).2 := by
  induction requests generalizing s xs with
  | nil => exact ⟨rfl, h⟩
  | cons request rest ih =>
      -- `Holds` is what carries the induction: the rest starts from the list after the first
      obtain ⟨hanswer, hholds⟩ := perform_request h request
      obtain ⟨hanswers, hheld⟩ := ih hholds
      refine ⟨?_, hheld⟩
      simp only [List.map_cons, performAll, ListRequest.respondAll, hanswer, hanswers]

/-- A named ruleset is a list of rules to everyone who edits it or asks it. After any
    requests it holds the list that they lead to, and has answered as the list does. From
    there on a request that fails changes nothing, and equality with another ruleset is
    equality of the lists. -/
theorem ruleset_refines_list (m : Machine) (h : s.Holds name xs)
    (requests : List ListRequest) :
    ∃ s', s.performAll m (requests.map (·.command name)) =
        (s', (ListRequest.respondAll xs requests).1.map (reply m)) ∧
      s'.Holds name (ListRequest.respondAll xs requests).2 ∧
      (∀ (request : ListRequest) fault,
        (s'.perform m (request.command name)).2.1 = .error fault →
          (s'.perform m (request.command name)).1 = s') ∧
      ∀ other ys, s'.Holds other ys →
        s'.perform m (.equals name (.named other)) =
          (s', .ok (.flag (decide ((ListRequest.respondAll xs requests).2 = ys))), []) := by
  obtain ⟨hanswers, hholds⟩ := performAll_requests h requests
  exact ⟨_, Prod.ext rfl hanswers, hholds, fun _ _ => perform_request_keeps,
    fun _ _ => perform_equals hholds⟩

/-- Positions on both sides of the list, and what is no rule at a place that is not there. -/
theorem ruleset_refines_list_clamped :
    ∃ (s : Session) (a b c : Rule) (requests : List ListRequest),
      s.Holds ['r'] [a, b] ∧
      ListRequest.respondAll [a, b] requests =
        ([.ok (.flag true), .error (.noRule (.int 7) 3), .error (.notRule "int"),
          .ok (.rule (some b)), .ok (.rule none)], [c, a]) ∧
      ∃ s', s.performAll .usual (requests.map (·.command ['r'])) =
          (s', (ListRequest.respondAll [a, b] requests).1.map (reply .usual)) ∧
        s'.Holds ['r'] (ListRequest.respondAll [a, b] requests).2 ∧
        (∀ (request : ListRequest) fault,
          (s'.perform .usual (request.command ['r'])).2.1 = .error fault →
            (s'.perform .usual (request.command ['r'])).1 = s') ∧
        ∀ other ys, s'.Holds other ys →
          s'.perform .usual (.equals ['r'] (.named other)) =
            (s', .ok (.flag (decide ((ListRequest.respondAll [a, b] requests).2 = ys))), []) := by
  let rule (c : Char) (h : isPlain c = true) : Rule :=
    ⟨[c], [], false, by simpa using h, by simp⟩
  let s : Session :=
    ⟨[⟨[rule 'a' rfl, rule 'b' rfl]⟩], [(['r'], .ruleset 0)], [], none, .usual⟩
  let offer : Offer := ⟨.fields (some (.text ['c'])) (some (.text [])) none, _, rfl⟩
  let other : Offer := ⟨.other (.int 3), _, rfl⟩
  let requests : List ListRequest :=
    [.add offer (some ⟨.int (-5), _, rfl⟩), .set offer ⟨.int 7, _, rfl⟩,
      .set other ⟨.int 7, _, rfl⟩, .remove (some ⟨.int 100, _, rfl⟩), .get ⟨.int (-1), _, rfl⟩]
  have hholds : s.Holds ['r'] [rule 'a' rfl, rule 'b' rfl] := ⟨0, rfl, rfl⟩
  exact ⟨s, _, _, rule 'c' rfl, requests, hholds, rfl, ruleset_refines_list .usual hholds requests⟩

end NormalAlgorithm.Session
