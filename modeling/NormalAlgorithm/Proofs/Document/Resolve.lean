/-
  NormalAlgorithm.Proofs.Document.Resolve

  The rules of an algorithm with those that it inherits.

  An algorithm has rules of its own if its `rules` are a list of statements that all
  compile (`HasRules`). Else it has a fault, which is that of the first statement that
  does not compile, or that there is no list (`HasFault`). Several algorithms together
  give all their rules, one after the other, or the fault of the first that has one
  (`Together`).

    * `resolution_follows_extends`: the answer is the fault at which the way from the name
      stops, whatever the statements are, or else what the algorithms on the way give
      together, the last one first.
    * `inheritance_can_exhaust`: a way can end well and be too long for the machine.

  All this holds on every machine, and as far as it does not give out (`Answers`): on the
  way through the algorithms, or when it writes a fault.
-/

import NormalAlgorithm.Proofs.Document.Chain
import NormalAlgorithm.Proofs.Statement.Compile

namespace NormalAlgorithm.Document

/-! ## Own rules -/

/-- The statements among the fields of an algorithm: the items of a list, and none of a
    value that counts as false. -/
def statements? (fields : Entries) : Option (List Value) :=
  match Value.lookupText "rules" fields with
  | none => some []
  | some (.list items) => some items
  | some value => if value.isTrue then none else some []

/-- The algorithm of a name has these rules of its own. -/
def HasRules (algorithms : Entries) (name : Value) (rules : List Rule) : Prop :=
  ∃ fields items, fieldsAt? algorithms name = some fields ∧ statements? fields = some items ∧
    List.Forall₂ (fun statement rule => Statement.compileValue statement = .ok rule) items rules

/-- The algorithm of a name has no rules of its own because of this fault. Statements are
    counted from one. -/
inductive HasFault (algorithms : Entries) (name : Value) : DocumentFault → Prop where
  | notList {fields : Entries} (hfields : fieldsAt? algorithms name = some fields)
      (h : statements? fields = none) :
    HasFault algorithms name (.rulesNotList name)
  | statement {fields : Entries} {before after : List Value} {statement : Value}
      {cause : StatementFault} (hfields : fieldsAt? algorithms name = some fields)
      (h : statements? fields = some (before ++ statement :: after))
      (hbefore : ∀ s ∈ before, ∃ rule, Statement.compileValue s = .ok rule)
      (hcause : Statement.compileValue statement = .error cause) :
    HasFault algorithms name (.badStatement name (before.length + 1) cause)

/-- The algorithms of several names give all their rules, one after the other, or the
    fault of the first that has one. -/
inductive Together (algorithms : Entries) (names : List Value) :
    Except DocumentFault (List Rule) → Prop where
  | rules {parts : List (List Rule)} (h : List.Forall₂ (HasRules algorithms) names parts) :
    Together algorithms names (.ok parts.flatten)
  | fault {before after : List Value} {name : Value} {fault : DocumentFault}
      (hnames : names = before ++ name :: after)
      (hbefore : ∀ u ∈ before, ∃ rules, HasRules algorithms u rules)
      (h : HasFault algorithms name fault) :
    Together algorithms names (.error fault)

variable {algorithms : Entries}

/-- Statements compile one by one up to the first that does not. -/
theorem compileAll_cases (name : Value) (n : Nat) (items : List Value) :
    (∃ rules, compileAll name n items = .ok rules ∧
      List.Forall₂ (fun s rule => Statement.compileValue s = .ok rule) items rules) ∨
    ∃ before statement after cause, items = before ++ statement :: after ∧
      (∀ s ∈ before, ∃ rule, Statement.compileValue s = .ok rule) ∧
      Statement.compileValue statement = .error cause ∧
      compileAll name n items = .error (.badStatement name (before.length + n) cause) := by
  induction items generalizing n with
  | nil => exact Or.inl ⟨[], rfl, .nil⟩
  | cons s items ih =>
      rw [compileAll]
      cases hs : Statement.compileValue s with
      | error cause =>
          refine Or.inr ⟨[], s, items, cause, rfl, ?_, hs, ?_⟩
          · exact fun t ht => absurd ht List.not_mem_nil
          · rw [List.length_nil, Nat.zero_add]
      | ok rule =>
          rcases ih (n + 1) with ⟨rules, hrules, hall⟩ |
            ⟨before, t, after, cause, hitems, hbefore, hcause, herror⟩
          · exact Or.inl ⟨rule :: rules, by simp only [hrules], .cons hs hall⟩
          · refine Or.inr ⟨s :: before, t, after, cause, ?_, ?_, hcause, ?_⟩
            · rw [hitems, List.cons_append]
            · exact List.forall_mem_cons.mpr ⟨⟨rule, hs⟩, hbefore⟩
            · simp only [herror, List.length_cons, Nat.add_assoc, Nat.add_comm 1 n]

theorem ownRules_eq (name : Value) (fields : Entries) :
    ownRules name fields =
      match statements? fields with
      | some items => compileAll name 1 items
      | none => .error (.rulesNotList name) := by
  rw [ownRules, statements?]
  cases Value.lookupText "rules" fields with
  | none => rfl
  | some value =>
      by_cases htrue : value.isTrue = true
      · cases value <;> simp [htrue]
      · -- the only list that counts as false is the empty one, which has no rules either
        cases value with
        | list items => cases items <;> simp_all [Value.isTrue, compileAll]
        | _ => simp [htrue, compileAll]

/-- An algorithm has rules of its own or a fault. -/
theorem ownRules_cases {name : Value} {fields : Entries}
    (hfields : fieldsAt? algorithms name = some fields) :
    (∃ rules, ownRules name fields = .ok rules ∧ HasRules algorithms name rules) ∨
      ∃ fault, ownRules name fields = .error fault ∧ HasFault algorithms name fault := by
  rw [ownRules_eq]
  cases hitems : statements? fields with
  | none => exact Or.inr ⟨_, rfl, .notList hfields hitems⟩
  | some items =>
      rcases compileAll_cases name 1 items with ⟨rules, hrules, hall⟩ |
        ⟨before, s, after, cause, rfl, hbefore, hcause, herror⟩
      · exact Or.inl ⟨rules, hrules, fields, items, hfields, hitems, hall⟩
      · exact Or.inr ⟨_, herror, .statement hfields hitems hbefore hcause⟩

/-! ## Inherited rules -/

theorem Together.cons {name : Value} {names : List Value} {rules more : List Rule}
    (hname : HasRules algorithms name rules) (h : Together algorithms names (.ok more)) :
    Together algorithms (name :: names) (.ok (rules ++ more)) := by
  cases h with
  | rules hall => exact .rules (.cons hname hall)

theorem Together.cons_error {name : Value} {names : List Value} {rules : List Rule}
    {fault : DocumentFault} (hname : HasRules algorithms name rules)
    (h : Together algorithms names (.error fault)) :
    Together algorithms (name :: names) (.error fault) := by
  cases h with
  | @fault before after bad _ hnames hbefore hfault =>
      have hcons : name :: names = (name :: before) ++ bad :: after := by
        rw [hnames, List.cons_append]
      exact .fault hcons (List.forall_mem_cons.mpr ⟨⟨rules, hname⟩, hbefore⟩) hfault

/-- The rules of several links are what their algorithms give together. -/
theorem together_allRules {links : List (Value × Entries)}
    (h : ∀ link ∈ links, fieldsAt? algorithms link.1 = some link.2) :
    Together algorithms (links.map Prod.fst) (allRules links) := by
  induction links with
  | nil => exact .rules .nil
  | cons link links ih =>
      obtain ⟨hlink, hlinks⟩ := List.forall_mem_cons.mp h
      rw [allRules, List.map_cons]
      rcases ownRules_cases hlink with ⟨rules, hrules, hhas⟩ | ⟨fault, hfault, hhas⟩
      · -- the link has rules: a fault can only come later
        have hrest := ih hlinks
        simp only [hrules]
        cases hall : allRules links with
        | error fault => exact Together.cons_error hhas (hall ▸ hrest)
        | ok more => exact Together.cons hhas (hall ▸ hrest)
      · simp only [hfault]
        exact .fault (List.nil_append _).symm (fun u hu => absurd hu List.not_mem_nil) hhas

/-! ## Answers -/

/-- The answer to an algorithm, as far as the machine does not give out. -/
def Answers (m : Machine) (algorithms : Entries) (name : Value)
    (answer : Except DocumentFault (List Rule)) : Prop :=
  resolve m algorithms name = (chain algorithms name).answered m answer

variable {m : Machine}

theorem Chain.answered_of_room {c : Chain} (h : m.resolving c.links c.fault.isNone = none)
    (answer : Except DocumentFault (List Rule)) :
    c.answered m answer = answer.mapError (·.raised m) := by
  rw [answered, h]

theorem Chain.answered_of_shortage {c : Chain} {shortage : Shortage}
    (h : m.resolving c.links c.fault.isNone = some shortage)
    (answer : Except DocumentFault (List Rule)) :
    c.answered m answer = .error (.gaveOut shortage) := by
  rw [answered, h]

/-- A chain with a fault is answered with it. -/
theorem answers_of_fault {name : Value} {fault : DocumentFault}
    (h : (chain algorithms name).fault = some fault) :
    Answers m algorithms name (.error fault) := by
  rw [Answers, resolve, Chain.rules, h]

/-- A chain without a fault is answered with what its algorithms give together, the last
    one first. -/
theorem exists_together_of_no_fault {name last : Value} {passed : List Value}
    (hway : FollowsWay algorithms [] name (chain algorithms name) passed last)
    (h : (chain algorithms name).fault = none) :
    ∃ answer, Together algorithms (passed ++ [last]).reverse answer ∧
      Answers m algorithms name answer := by
  have hnames : (chain algorithms name).links.map Prod.fst = passed ++ [last] := by
    rw [hway.names, h, linkedNames]
  refine ⟨allRules (chain algorithms name).links.reverse, ?_, ?_⟩
  · rw [← hnames, ← List.map_reverse]
    exact together_allRules fun link hlink => hway.fields link (List.mem_reverse.mp hlink)
  · rw [Answers, resolve, Chain.rules, h]

/-- The rules of an algorithm are those on the way from its name, the last ones first,
    unless the machine gives out (`_resolve_extends`).
    The way passes no algorithm twice. If it stops at a name that it has passed, that is
    not there or that is no map, then this is the answer for all algorithms of the same
    outline, so without a look at any statement. Else it ends at an algorithm that extends
    nothing, and from there back to the name all rules are put together, or the first
    fault is the answer. -/
theorem resolution_follows_extends (m : Machine) {algorithms : Entries} {name : Value}
    (hname : name.isKey = true) (hparents : ParentsAreKeys algorithms) :
    ∃ passed last, IsWay algorithms name passed last ∧ passed.length ≤ algorithms.length ∧
      ((∃ fault, StopsWith algorithms passed last (some fault) ∧
          ∀ other, outline other = outline algorithms →
            Answers m other name (.error fault)) ∨
        (StopsWith algorithms passed last none ∧
          ∃ answer, Together algorithms (passed ++ [last]).reverse answer ∧
            Answers m algorithms name answer)) := by
  obtain ⟨passed, last, hway⟩ := chain_followsWay hparents hname
  refine ⟨passed, last, hway.isWay, hway.length_le, ?_⟩
  cases hfault : (chain algorithms name).fault with
  | some fault =>
      -- nothing but the outline has been used up to the fault
      refine Or.inl ⟨fault, hfault ▸ hway.stops, ?_⟩
      intro other houtline
      exact answers_of_fault ((chain_congr_outline houtline name).2.trans hfault)
  | none =>
      exact Or.inr ⟨hfault ▸ hway.stops, exists_together_of_no_fault hway hfault⟩

/-- A text extends a number, which extends a text without a body. -/
theorem resolution_follows_extends_inherited :
    ∃ algorithms name, name.isKey = true ∧ ParentsAreKeys algorithms ∧
      (resolve .usual algorithms name).toOption.map (·.map Rule.render) =
        some ["c -> d".toList, "a -> b".toList] ∧
      ∃ passed last, IsWay algorithms name passed last ∧ passed.length ≤ algorithms.length ∧
        ((∃ fault, StopsWith algorithms passed last (some fault) ∧
            ∀ other, outline other = outline algorithms →
              Answers .usual other name (.error fault)) ∨
          (StopsWith algorithms passed last none ∧
            ∃ answer, Together algorithms (passed ++ [last]).reverse answer ∧
              Answers .usual algorithms name answer)) := by
  let algorithms : Entries :=
    [(.text "top".toList, .map [(.text "extends".toList, .int 1),
        (.text "rules".toList, .list [.text "a -> b".toList])]),
      (.int 1, .map [(.text "rules".toList, .list [.text "c -> d".toList]),
        (.text "extends".toList, .text "base".toList)]),
      (.text "base".toList, .null)]
  have hparents : ParentsAreKeys algorithms := by
    apply parentsAreKeys_of_forall
    decide +kernel
  exact ⟨algorithms, .text "top".toList, rfl, hparents, by decide +kernel,
    resolution_follows_extends .usual rfl hparents⟩

-- keys of different kinds can be equal, and the one that comes last is named
example : resolve .usual [(.int 1, .map [(.text "extends".toList, .bool true)])] (.int 1) =
    .error (.circular (.bool true)) := rfl

/-! ## Chains that are too long -/

/-- The links of a ladder: algorithms named by numbers, each of which extends the one
    below it, with a rule at the foot. -/
def rungs (r : Rule) : Nat → List (Value × Entries)
  | 0 => [(.int 0, [(.text "rules".toList, .list [.text r.render])])]
  | n + 1 => (.int (n + 1), [(.text "extends".toList, .int n)]) :: rungs r n

/-- The name of an heir. -/
def heirName : Value := .text "default".toList

/-- An algorithm that extends another one and has no rules. -/
def heir (parent : Value) : Value × Value :=
  (heirName, .map [(.text "extends".toList, parent)])

/-- The algorithms of a ladder and one that extends its top. -/
def ladder (r : Rule) (n : Nat) : Entries :=
  heir (.int n) :: (rungs r n).map fun link => (link.1, .map link.2)

theorem length_rungs (r : Rule) (n : Nat) : (rungs r n).length = n + 1 := by
  induction n with
  | zero => rfl
  | succ n ih => rw [rungs, List.length_cons, ih]

theorem name_of_mem_rungs {r : Rule} {n : Nat} {link : Value × Entries} (h : link ∈ rungs r n) :
    ∃ k : Nat, k ≤ n ∧ link.1 = .int k := by
  induction n with
  | zero =>
      rw [List.mem_singleton.mp h]
      exact ⟨0, Nat.le_refl 0, rfl⟩
  | succ n ih =>
      rcases List.mem_cons.mp h with rfl | h
      · exact ⟨n + 1, Nat.le_refl _, rfl⟩
      · obtain ⟨k, hk, hname⟩ := ih h
        exact ⟨k, Nat.le_succ_of_le hk, hname⟩

theorem keyEq_int_of_lt {k n : Nat} (h : k < n) :
    (Value.int n).keyEq (.int k) = false := by
  simp [Value.keyEq, Value.asInt?]
  omega

theorem lookup_rungs {r : Rule} {n : Nat} {link : Value × Entries} (h : link ∈ rungs r n) :
    Value.lookup link.1 ((rungs r n).map fun link => (link.1, .map link.2)) =
      some (.map link.2) := by
  induction n with
  | zero =>
      rw [List.mem_singleton.mp h]
      rfl
  | succ n ih =>
      rw [rungs, List.map_cons, Value.lookup]
      rcases List.mem_cons.mp h with rfl | h
      · simp [Value.keyEq, Value.asInt?]
      · obtain ⟨k, hk, hname⟩ := name_of_mem_rungs h
        have hne : (Value.int (n + 1)).keyEq link.1 = false :=
          hname ▸ keyEq_int_of_lt (Nat.lt_succ_of_le hk)
        rw [hne]
        exact ih h

theorem fieldsAt?_ladder {r : Rule} {n : Nat} {link : Value × Entries} (h : link ∈ rungs r n) :
    fieldsAt? (ladder r n) link.1 = some link.2 := by
  obtain ⟨k, _, hname⟩ := name_of_mem_rungs h
  have hne : heirName.keyEq link.1 = false := hname ▸ rfl
  rw [fieldsAt?, ladder, heir, Value.lookup, hne]
  simp only [Bool.false_eq_true, if_false, lookup_rungs h, Option.bind_some, fields?]

/-- The reader goes down a ladder to its foot. -/
theorem chainFrom_rungs {r : Rule} {n fuel : Nat} {before : List Value}
    (hrungs : ∀ link ∈ rungs r n, fieldsAt? algorithms link.1 = some link.2) (hfuel : n < fuel)
    (hnew : ∀ u ∈ before, ∀ k : Nat, k ≤ n → u.keyEq (.int k) = false) :
    chainFrom algorithms fuel before (.int n) = ⟨rungs r n, none⟩ := by
  induction n generalizing fuel before with
  | zero =>
      obtain ⟨fuel, rfl⟩ := Nat.exists_eq_add_one_of_ne_zero (Nat.ne_zero_of_lt hfuel)
      have hfoot : ∀ u ∈ before, u.keyEq (.int 0) = false :=
        fun u hu => hnew u hu 0 (Nat.le_refl 0)
      rw [show ((0 : Nat) : Int) = 0 from rfl,
        chainFrom_of_fields rfl hfoot (hrungs _ List.mem_cons_self)]
      rfl
  | succ n ih =>
      obtain ⟨fuel, rfl⟩ := Nat.exists_eq_add_one_of_ne_zero (Nat.ne_zero_of_lt hfuel)
      have htop : ∀ u ∈ before, u.keyEq (.int (n + 1)) = false :=
        fun u hu => hnew u hu (n + 1) (Nat.le_refl _)
      -- the numbers passed are greater than those still to come
      have hbelow : chainFrom algorithms fuel (.int (n + 1) :: before) (.int n) =
          ⟨rungs r n, none⟩ := by
        apply ih (fun link hlink => hrungs link (List.mem_cons_of_mem _ hlink))
          (Nat.lt_of_succ_lt_succ hfuel)
        intro u hu k hk
        rcases List.mem_cons.mp hu with rfl | hu
        · exact keyEq_int_of_lt (Nat.lt_succ_of_le hk)
        · exact hnew u hu k (Nat.le_succ_of_le hk)
      have hextends : Value.lookupText "extends" [(.text "extends".toList, .int n)] =
          some (.int n) := rfl
      rw [Nat.cast_succ, chainFrom_of_fields rfl htop (hrungs _ List.mem_cons_self), hextends]
      simp only [hbelow, rungs]

theorem chain_ladder (r : Rule) (n : Nat) :
    chain (ladder r n) heirName =
      ⟨(heirName, [(.text "extends".toList, .int n)]) :: rungs r n, none⟩ := by
  have hheir : fieldsAt? (ladder r n) heirName =
      some [(.text "extends".toList, .int n)] := rfl
  have hextends : Value.lookupText "extends" [(.text "extends".toList, .int n)] =
      some (.int n) := rfl
  have hrungs : chainFrom (ladder r n) (ladder r n).length [heirName] (.int n) =
      ⟨rungs r n, none⟩ := by
    apply chainFrom_rungs fun link hlink => fieldsAt?_ladder hlink
    · rw [ladder, List.length_cons, List.length_map, length_rungs]
      omega
    · intro u hu k _
      rw [List.mem_singleton.mp hu]
      rfl
  rw [chain, chainFrom_of_fields rfl (fun u hu => absurd hu List.not_mem_nil) hheir, hextends]
  simp only [hrungs]

theorem allRules_concat {links : List (Value × Entries)} {name : Value} {fields : Entries}
    {rules more : List Rule} (hrules : allRules links = .ok rules)
    (hmore : ownRules name fields = .ok more) :
    allRules (links ++ [(name, fields)]) = .ok (rules ++ more) := by
  induction links generalizing rules with
  | nil =>
      cases hrules
      simp [allRules, hmore]
  | cons link links ih =>
      rw [allRules] at hrules
      cases hown : ownRules link.1 link.2 with
      | error fault => simp only [hown, reduceCtorEq] at hrules
      | ok own =>
          cases hrest : allRules links with
          | error fault => simp only [hown, hrest, reduceCtorEq] at hrules
          | ok rest =>
              simp only [hown, hrest, Except.ok.injEq] at hrules
              simp only [List.cons_append, allRules, hown, ih hrest, ← hrules,
                List.append_assoc]

/-- The only rule of a ladder is that at its foot. -/
theorem allRules_reverse_rungs (r : Rule) (n : Nat) : allRules (rungs r n).reverse = .ok [r] := by
  induction n with
  | zero =>
      have hown : ownRules (.int 0) [(.text "rules".toList, .list [.text r.render])] =
          .ok [r] := by
        have hitems : statements? [(.text "rules".toList, .list [.text r.render])] =
            some [.text r.render] := rfl
        rw [ownRules_eq, hitems]
        simp only [compileAll, Statement.compileValue, Statement.compile_render]
      simp only [rungs, List.reverse_singleton, allRules, hown, List.append_nil]
  | succ n ih =>
      rw [rungs, List.reverse_cons]
      exact allRules_concat ih rfl

theorem isKey_of_mem_rungs {r : Rule} {n : Nat} {link : Value × Entries} (h : link ∈ rungs r n) :
    ∀ parent ∈ Value.lookupText "extends" link.2, parent.isKey = true := by
  induction n with
  | zero =>
      rw [List.mem_singleton.mp h]
      intro parent hparent
      cases hparent
  | succ n ih =>
      rcases List.mem_cons.mp h with rfl | h
      · intro parent hparent
        cases hparent
        rfl
      · exact ih h

theorem parentsAreKeys_ladder (r : Rule) (n : Nat) : ParentsAreKeys (ladder r n) := by
  apply parentsAreKeys_of_forall
  intro e he parent hparent
  rcases List.mem_cons.mp he with rfl | he
  · cases hparent
    rfl
  · obtain ⟨link, hlink, rfl⟩ := List.mem_map.mp he
    exact isKey_of_mem_rungs hlink parent hparent

/-- The way down a ladder ends at its foot, and gives the rule that is there. -/
theorem exists_way_ladder (r : Rule) (n : Nat) :
    ∃ passed last, IsWay (ladder r n) heirName passed last ∧
      StopsWith (ladder r n) passed last none ∧
      Together (ladder r n) (passed ++ [last]).reverse (.ok [r]) := by
  obtain ⟨passed, last, hway⟩ := chain_followsWay (parentsAreKeys_ladder r n)
    (show heirName.isKey = true from rfl)
  rw [chain_ladder] at hway
  have hrules : allRules ((heirName, [(.text "extends".toList, .int n)]) :: rungs r n).reverse =
      .ok [r] := by
    rw [List.reverse_cons]
    exact allRules_concat (allRules_reverse_rungs r n) rfl
  have htogether := together_allRules fun link hlink =>
    hway.fields link (List.mem_reverse.mp hlink)
  rw [List.map_reverse, hway.names, hrules] at htogether
  exact ⟨passed, last, hway.isWay, hway.stops, htogether⟩

/-- The usual machine gives out on too long a chain. -/
theorem resolving_usual_of_length {links : List (Value × Entries)}
    (h : Machine.callRoom ≤ links.length) (complete : Bool) :
    Machine.usual.resolving links complete = some .calls := by
  obtain ⟨link, hlink⟩ : ∃ link, links[Machine.callRoom - 1]? = some link :=
    ⟨_, List.getElem?_eq_getElem (show Machine.callRoom - 1 < links.length from h)⟩
  have hmem : (link, Machine.callRoom - 1) ∈ links.zipIdx :=
    List.mk_mem_zipIdx_iff_getElem?.mpr hlink
  have hinside : 1 ≤ Machine.callsInside complete link.2 := by
    rw [Machine.callsInside]
    split <;> decide
  refine if_neg fun hall => ?_
  have hfits := of_decide_eq_true (List.all_eq_true.mp hall _ hmem)
  simp only [Machine.callRoom] at hfits
  omega

theorem resolve_ladder (r : Rule) {n : Nat} (h : Machine.callRoom ≤ n + 2) :
    resolve .usual (ladder r n) heirName = .error (.gaveOut .calls) := by
  have hlength : Machine.callRoom ≤ (chain (ladder r n) heirName).links.length := by
    rw [chain_ladder, List.length_cons, length_rungs]
    exact h
  exact Chain.answered_of_shortage (resolving_usual_of_length hlength _) _

/-- The way to a parent that is not there stops at it. -/
theorem stops_at_missing_parent (n : Int) :
    IsWay [heir (.int n)] heirName [heirName] (.int n) ∧
      StopsWith [heir (.int n)] [heirName] (.int n) (some (.unknownParent (.int n))) := by
  refine ⟨⟨rfl, List.isChain_pair.mpr rfl, List.pairwise_singleton _ _⟩, .unknown ?_ rfl⟩
  intro u hu
  rw [List.mem_singleton.mp hu]
  rfl

/-- A parent that is not there and is too long a number cannot be written. -/
theorem resolve_heir {n : Int} (h : Nat.pow 10 Number.maxDecimalDigits ≤ n.natAbs) :
    resolve .usual [heir (.int n)] heirName = .error (.gaveOut .digits) := by
  have hchain : chain [heir (.int n)] heirName =
      ⟨[(heirName, [(.text "extends".toList, .int n)])], some (.unknownParent (.int n))⟩ := rfl
  have hlong : Machine.hasShortIntegers (.int n) = false := by
    rw [Machine.hasShortIntegers, decide_eq_false (Nat.not_lt.mpr h)]
  have hwriting : Machine.usual.writing (.int n) = some .digits := by
    simp only [Machine.usual, hlong, Bool.not_false, if_true]
  have hraised : DocumentFault.raised .usual (.unknownParent (.int n)) = .gaveOut .digits := by
    rw [DocumentFault.raised, DocumentFault.values, Machine.writingAll, List.findSome?_cons,
      hwriting]
  rw [resolve, hchain, Chain.rules, ← hraised]
  rfl

/-- A document with these algorithms. -/
def ofAlgorithms (algorithms : Entries) : Value :=
  .map [(.text "algorithms".toList, .map algorithms)]

theorem rules_ofAlgorithms (parent : Value) (rest : Entries) :
    rules m (ofAlgorithms (heir parent :: rest)) heirName =
      resolve m (heir parent :: rest) heirName := rfl

/-- Two documents on which the usual machine gives out: a ladder whose way ends well, with a
    rule, and a parent that is not there and is too long a number. -/
theorem inheritance_can_exhaust :
    (∃ r passed last, IsWay (ladder r 1500) heirName passed last ∧
      StopsWith (ladder r 1500) passed last none ∧
      Together (ladder r 1500) (passed ++ [last]).reverse (.ok [r]) ∧
      rules .usual (ofAlgorithms (ladder r 1500)) heirName = .error (.gaveOut .calls)) ∧
    ∃ parent, IsWay [heir parent] heirName [heirName] parent ∧
      StopsWith [heir parent] [heirName] parent (some (.unknownParent parent)) ∧
      rules .usual (ofAlgorithms [heir parent]) heirName = .error (.gaveOut .digits) := by
  constructor
  · let r : Rule := ⟨['a'], ['b'], false, List.all_eq_true.mp rfl, List.all_eq_true.mp rfl⟩
    obtain ⟨passed, last, hway, hstops, htogether⟩ := exists_way_ladder r 1500
    refine ⟨r, passed, last, hway, hstops, htogether, ?_⟩
    rw [ladder, rules_ofAlgorithms]
    exact resolve_ladder r (by decide)
  · obtain ⟨n, hn⟩ : ∃ n : Int, Nat.pow 10 Number.maxDecimalDigits ≤ n.natAbs :=
      ⟨(Nat.pow 10 Number.maxDecimalDigits : Nat), Nat.le_of_eq (Int.natAbs_natCast _).symm⟩
    obtain ⟨hway, hstops⟩ := stops_at_missing_parent n
    refine ⟨.int n, hway, hstops, ?_⟩
    rw [rules_ofAlgorithms]
    exact resolve_heir hn

end NormalAlgorithm.Document
