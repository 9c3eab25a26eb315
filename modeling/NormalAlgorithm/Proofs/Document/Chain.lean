/-
  NormalAlgorithm.Proofs.Document.Chain

  The chain of an algorithm: the names that one comes to by going from an algorithm to
  the one it extends.

  A chain passes some names and stops at another (`IsWay`), because that name was passed
  before, is not there or is no map, or because it extends nothing (`StopsWith`). The
  reader of chains finds exactly this:

    * `chain_followsWay`: the links are the algorithms on the way, in order, and the
      fault is that of the name at which the way stops.
    * `chain_congr_outline`: the statements of the algorithms have no part in it.

  The reader works with fuel, one more than there are algorithms. It never runs out of
  it: the names it has passed are different and found in the document, so they are not
  more than its algorithms (`Value.length_le_of_distinct_found`).
-/

import Mathlib.Data.List.Chain
import NormalAlgorithm.Document
import NormalAlgorithm.Proofs.Value.Equality

namespace NormalAlgorithm.Document

/-! ## Parents -/

/-- The fields of a body: those of a map, and none of a value that counts as false. -/
def fields? : Value → Option Entries
  | .map fields => some fields
  | body => if body.isTrue then none else some []

/-- The fields of the algorithm of a name. -/
def fieldsAt? (algorithms : Entries) (name : Value) : Option Entries :=
  (Value.lookup name algorithms).bind fields?

/-- The name that the algorithm of a name extends. -/
def parent? (algorithms : Entries) (name : Value) : Option Value :=
  (fieldsAt? algorithms name).bind (Value.lookupText "extends")

/-- What is extended is given by a name that can be a key. -/
def ParentsAreKeys (algorithms : Entries) : Prop :=
  ∀ name parent, parent? algorithms name = some parent → parent.isKey = true

theorem fieldsOf_eq (name body : Value) :
    fieldsOf name body =
      match fields? body with
      | some fields => .ok fields
      | none => .error (.bodyNotMap name) := by
  by_cases htrue : body.isTrue = true
  · cases body <;> simp [fieldsOf, fields?, htrue]
  · cases body with
    | map entries => cases entries <;> simp_all [fieldsOf, fields?, Value.isTrue]
    | _ => simp [fieldsOf, fields?, htrue]

theorem fieldsOf_of_some {body : Value} {fields : Entries} (h : fields? body = some fields)
    (name : Value) : fieldsOf name body = .ok fields := by
  rw [fieldsOf_eq, h]

theorem fieldsOf_of_none {body : Value} (h : fields? body = none) (name : Value) :
    fieldsOf name body = .error (.bodyNotMap name) := by
  rw [fieldsOf_eq, h]

/-! ## Ways -/

/-- A way from a name: the names passed, each the parent of the one before and all of
    them different, and the name that comes after them. -/
structure IsWay (algorithms : Entries) (name : Value) (passed : List Value) (last : Value) :
    Prop where
  first : (passed ++ [last]).head? = some name
  linked : (passed ++ [last]).IsChain fun child parent => parent? algorithms child = some parent
  distinct : passed.Pairwise fun u v => u.keyEq v = false

/-- Why a chain that has passed some names goes no further than the next one, as a
    fault, or none if this one extends nothing. -/
inductive StopsWith (algorithms : Entries) (passed : List Value) (last : Value) :
    Option DocumentFault → Prop where
  | circular (h : ∃ u ∈ passed, u.keyEq last = true) :
    StopsWith algorithms passed last (some (.circular last))
  | unknown (hnew : ∀ u ∈ passed, u.keyEq last = false)
      (h : Value.lookup last algorithms = none) :
    StopsWith algorithms passed last (some (.unknownParent last))
  | notMap (hnew : ∀ u ∈ passed, u.keyEq last = false) {body : Value}
      (h : Value.lookup last algorithms = some body) (hbody : fields? body = none) :
    StopsWith algorithms passed last (some (.bodyNotMap last))
  | root (hnew : ∀ u ∈ passed, u.keyEq last = false) {fields : Entries}
      (h : fieldsAt? algorithms last = some fields)
      (hroot : Value.lookupText "extends" fields = none) :
    StopsWith algorithms passed last none

/-- The names whose algorithms a chain links: those passed, and the last too if the chain
    ends there without a fault. -/
def linkedNames (passed : List Value) (last : Value) : Option DocumentFault → List Value
  | none => passed ++ [last]
  | some _ => passed

/-- The chain that starts at a name, once other names have been passed, follows a way:
    its links are the algorithms on the way and its fault says where the way stops. -/
structure FollowsWay (algorithms : Entries) (before : List Value) (name : Value) (c : Chain)
    (passed : List Value) (last : Value) : Prop where
  first : (passed ++ [last]).head? = some name
  linked : (passed ++ [last]).IsChain fun child parent => parent? algorithms child = some parent
  distinct : (before ++ passed).Pairwise fun u v => u.keyEq v = false
  found : ∀ u ∈ passed, Value.lookup u algorithms ≠ none
  stops : StopsWith algorithms (before ++ passed) last c.fault
  names : c.links.map Prod.fst = linkedNames passed last c.fault
  fields : ∀ link ∈ c.links, fieldsAt? algorithms link.1 = some link.2

variable {algorithms : Entries}

theorem FollowsWay.isWay {name last : Value} {c : Chain} {passed : List Value}
    (h : FollowsWay algorithms [] name c passed last) : IsWay algorithms name passed last :=
  ⟨h.first, h.linked, h.distinct⟩

/-- A way passes each algorithm at most once. -/
theorem FollowsWay.length_le {name last : Value} {c : Chain} {passed : List Value}
    (h : FollowsWay algorithms [] name c passed last) : passed.length ≤ algorithms.length :=
  Value.length_le_of_distinct_found h.distinct h.found

theorem lookup_ne_none_of_fieldsAt? {name : Value} {fields : Entries}
    (h : fieldsAt? algorithms name = some fields) : Value.lookup name algorithms ≠ none := by
  intro hnone
  rw [fieldsAt?, hnone] at h
  cases h

theorem parent?_of_fields {name : Value} {fields : Entries}
    (h : fieldsAt? algorithms name = some fields) :
    parent? algorithms name = Value.lookupText "extends" fields := by
  rw [parent?, h, Option.bind_some]

/-- A chain that stops at once. -/
theorem followsWay_of_fault {before : List Value} {name : Value} {fault : DocumentFault}
    (hdistinct : before.Pairwise fun u v => u.keyEq v = false)
    (h : StopsWith algorithms before name (some fault)) :
    FollowsWay algorithms before name ⟨[], some fault⟩ [] name := by
  refine ⟨rfl, List.isChain_singleton _, ?_, ?_, ?_, rfl, ?_⟩
  · rwa [List.append_nil]
  · exact fun u hu => absurd hu List.not_mem_nil
  · rwa [List.append_nil]
  · exact fun link hlink => absurd hlink List.not_mem_nil

/-- A chain of one algorithm. -/
theorem followsWay_of_root {before : List Value} {name : Value} {fields : Entries}
    (hdistinct : before.Pairwise fun u v => u.keyEq v = false)
    (hnew : ∀ u ∈ before, u.keyEq name = false)
    (hfields : fieldsAt? algorithms name = some fields)
    (hroot : Value.lookupText "extends" fields = none) :
    FollowsWay algorithms before name ⟨[(name, fields)], none⟩ [] name := by
  refine ⟨rfl, List.isChain_singleton _, ?_, ?_, ?_, rfl, ?_⟩
  · rwa [List.append_nil]
  · exact fun u hu => absurd hu List.not_mem_nil
  · rw [List.append_nil]
    exact .root hnew hfields hroot
  · intro link hlink
    rw [List.mem_singleton.mp hlink]
    exact hfields

/-- A chain that goes on from the parent. -/
theorem FollowsWay.cons {before passed : List Value} {name parent last : Value}
    {fields : Entries} {c : Chain} (hfields : fieldsAt? algorithms name = some fields)
    (hparent : Value.lookupText "extends" fields = some parent)
    (h : FollowsWay algorithms (before ++ [name]) parent c passed last) :
    FollowsWay algorithms before name ⟨(name, fields) :: c.links, c.fault⟩ (name :: passed)
      last := by
  have hbefore : before ++ [name] ++ passed = before ++ name :: passed := by
    rw [List.append_assoc, List.singleton_append]
  refine ⟨rfl, ?_, hbefore ▸ h.distinct, ?_, hbefore ▸ h.stops, ?_, ?_⟩
  · rw [List.cons_append, List.isChain_cons]
    refine ⟨?_, h.linked⟩
    -- the way from the parent starts with the parent
    intro next hnext
    rw [h.first] at hnext
    rw [parent?_of_fields hfields, hparent]
    exact hnext
  · intro u hu
    rcases List.mem_cons.mp hu with rfl | hu
    · exact lookup_ne_none_of_fieldsAt? hfields
    · exact h.found u hu
  · rw [List.map_cons, h.names]
    cases c.fault <;> rfl
  · intro link hlink
    rcases List.mem_cons.mp hlink with rfl | hlink
    · exact hfields
    · exact h.fields link hlink

/-! ## The reader of chains -/

/-- The reader at the name of an algorithm that it has not passed. -/
theorem chainFrom_of_fields {name : Value} {fields : Entries} {before : List Value}
    (hname : name.isKey = true) (hnew : ∀ u ∈ before, u.keyEq name = false)
    (hfields : fieldsAt? algorithms name = some fields) (fuel : Nat) :
    chainFrom algorithms (fuel + 1) before name =
      match Value.lookupText "extends" fields with
      | none => ⟨[(name, fields)], none⟩
      | some parent =>
        ⟨(name, fields) :: (chainFrom algorithms fuel (name :: before) parent).links,
          (chainFrom algorithms fuel (name :: before) parent).fault⟩ := by
  obtain ⟨body, hbody, hmap⟩ := Option.bind_eq_some_iff.mp hfields
  have hany : before.any (·.keyEq name) = false :=
    List.any_eq_false.mpr fun u hu => Bool.eq_false_iff.mp (hnew u hu)
  cases hextends : Value.lookupText "extends" fields <;>
    simp only [chainFrom, hname, hany, hbody, fieldsOf_of_some hmap, hextends, Bool.not_true,
      Bool.false_eq_true, if_false]

/-- What the reader does at a name: it stops with a fault, or it links the algorithm and
    ends there or goes on from the parent. -/
theorem chainFrom_succ_cases {name : Value} (hname : name.isKey = true) (fuel : Nat)
    (before : List Value) :
    (∃ fault, StopsWith algorithms before.reverse name (some fault) ∧
      chainFrom algorithms (fuel + 1) before name = ⟨[], some fault⟩) ∨
    ∃ fields, (∀ u ∈ before.reverse, u.keyEq name = false) ∧
      fieldsAt? algorithms name = some fields ∧
      ((Value.lookupText "extends" fields = none ∧
          chainFrom algorithms (fuel + 1) before name = ⟨[(name, fields)], none⟩) ∨
        ∃ parent, Value.lookupText "extends" fields = some parent ∧
          chainFrom algorithms (fuel + 1) before name =
            ⟨(name, fields) :: (chainFrom algorithms fuel (name :: before) parent).links,
              (chainFrom algorithms fuel (name :: before) parent).fault⟩) := by
  by_cases hany : before.any (·.keyEq name) = true
  · refine Or.inl ⟨.circular name, .circular ?_, ?_⟩
    · obtain ⟨u, hu, heq⟩ := List.any_eq_true.mp hany
      exact ⟨u, List.mem_reverse.mpr hu, heq⟩
    · simp only [chainFrom, hname, hany, Bool.not_true, Bool.false_eq_true, if_false, if_true]
  · have hnew : ∀ u ∈ before, u.keyEq name = false := by
      intro u hu
      rw [Bool.eq_false_iff]
      intro heq
      exact hany (List.any_eq_true.mpr ⟨u, hu, heq⟩)
    have hnew' : ∀ u ∈ before.reverse, u.keyEq name = false :=
      fun u hu => hnew u (List.mem_reverse.mp hu)
    cases hbody : Value.lookup name algorithms with
    | none =>
        refine Or.inl ⟨.unknownParent name, .unknown hnew' hbody, ?_⟩
        simp only [chainFrom, hname, hany, hbody, Bool.not_true, Bool.false_eq_true, if_false]
    | some body =>
        cases hfields : fields? body with
        | none =>
            refine Or.inl ⟨.bodyNotMap name, .notMap hnew' hbody hfields, ?_⟩
            simp only [chainFrom, hname, hany, hbody, fieldsOf_of_none hfields, Bool.not_true,
              Bool.false_eq_true, if_false]
        | some fields =>
            have hat : fieldsAt? algorithms name = some fields := by
              rw [fieldsAt?, hbody, Option.bind_some, hfields]
            refine Or.inr ⟨fields, hnew', hat, ?_⟩
            rw [chainFrom_of_fields hname hnew hat]
            cases Value.lookupText "extends" fields with
            | none => exact Or.inl ⟨rfl, rfl⟩
            | some parent => exact Or.inr ⟨parent, rfl, rfl⟩

/-- The reader of chains follows a way, from a name on and with the names passed before
    given in reverse. The induction is on the fuel, which lasts, since the names passed
    are different algorithms of the document. -/
theorem chainFrom_followsWay (hparents : ParentsAreKeys algorithms) {fuel : Nat}
    {before : List Value} {name : Value} (hname : name.isKey = true)
    (hdistinct : before.reverse.Pairwise fun u v => u.keyEq v = false)
    (hfound : ∀ u ∈ before.reverse, Value.lookup u algorithms ≠ none)
    (hfuel : algorithms.length < fuel + before.length) :
    ∃ passed last, FollowsWay algorithms before.reverse name
      (chainFrom algorithms fuel before name) passed last := by
  induction fuel generalizing before name with
  | zero =>
      -- more names have been passed than there are algorithms
      have hle := Value.length_le_of_distinct_found hdistinct hfound
      rw [List.length_reverse] at hle
      omega
  | succ fuel ih =>
      rcases chainFrom_succ_cases hname fuel before with ⟨fault, hstops, hchain⟩ |
        ⟨fields, hnew, hfields, ⟨hroot, hchain⟩ | ⟨parent, hparent, hchain⟩⟩
      · rw [hchain]
        exact ⟨[], name, followsWay_of_fault hdistinct hstops⟩
      · rw [hchain]
        exact ⟨[], name, followsWay_of_root hdistinct hnew hfields hroot⟩
      · have hkey : parent.isKey = true := by
          apply hparents name parent
          rw [parent?_of_fields hfields, hparent]
        have hreverse : (name :: before).reverse = before.reverse ++ [name] :=
          List.reverse_cons
        have hdistinct' : (name :: before).reverse.Pairwise fun u v => u.keyEq v = false := by
          rw [hreverse, List.pairwise_append]
          refine ⟨hdistinct, List.pairwise_singleton _ _, ?_⟩
          intro u hu v hv
          rw [List.mem_singleton.mp hv]
          exact hnew u hu
        have hfound' : ∀ u ∈ (name :: before).reverse, Value.lookup u algorithms ≠ none := by
          intro u hu
          rw [hreverse, List.mem_append, List.mem_singleton] at hu
          rcases hu with hu | rfl
          · exact hfound u hu
          · exact lookup_ne_none_of_fieldsAt? hfields
        have hfuel' : algorithms.length < fuel + (name :: before).length := by
          rw [List.length_cons]
          omega
        obtain ⟨passed, last, hway⟩ := ih hkey hdistinct' hfound' hfuel'
        rw [hreverse] at hway
        rw [hchain]
        exact ⟨name :: passed, last, hway.cons hfields hparent⟩

/-- The chain of an algorithm follows a way from its name. -/
theorem chain_followsWay (hparents : ParentsAreKeys algorithms) {name : Value}
    (hname : name.isKey = true) :
    ∃ passed last, FollowsWay algorithms [] name (chain algorithms name) passed last := by
  have hfuel : algorithms.length < algorithms.length + 1 + ([] : List Value).length :=
    Nat.lt_succ_self _
  have hfound : ∀ u ∈ ([] : List Value).reverse, Value.lookup u algorithms ≠ none :=
    fun u hu => absurd hu List.not_mem_nil
  exact chainFrom_followsWay hparents hname List.Pairwise.nil hfound hfuel

/-! ## What a chain depends on -/

/-- What a body says of inheritance, if it has fields: the name that it extends, if any. -/
def heritage? (body : Value) : Option (Option Value) :=
  (fields? body).map (Value.lookupText "extends")

/-- The names of algorithms with what each of them extends. Statements are left out. -/
def outline (algorithms : Entries) : List (Value × Option (Option Value)) :=
  algorithms.map fun e => (e.1, heritage? e.2)

/-- The links' names and the fault of a chain depend on the outline only. -/
theorem chainFrom_congr_outline {other : Entries} (h : outline other = outline algorithms)
    (fuel : Nat) (before : List Value) (name : Value) :
    (chainFrom other fuel before name).links.map Prod.fst =
        (chainFrom algorithms fuel before name).links.map Prod.fst ∧
      (chainFrom other fuel before name).fault = (chainFrom algorithms fuel before name).fault := by
  induction fuel generalizing before name with
  | zero => exact ⟨rfl, rfl⟩
  | succ fuel ih =>
      -- the two bodies found need not be equal, only say the same of inheritance
      have hsame := Value.map_lookup_congr h name
      rw [chainFrom, chainFrom]
      split
      · exact ⟨rfl, rfl⟩
      split
      · exact ⟨rfl, rfl⟩
      cases hother : Value.lookup name other with
      | none =>
          rw [hother, Option.map_none, eq_comm, Option.map_eq_none_iff] at hsame
          rw [hsame]
          exact ⟨rfl, rfl⟩
      | some body' =>
          rw [hother, Option.map_some, eq_comm, Option.map_eq_some_iff] at hsame
          obtain ⟨body, hbody, hheritage⟩ := hsame
          rw [hbody]
          cases hfields : fields? body' with
          | none =>
              rw [heritage?, heritage?, hfields, Option.map_none, Option.map_eq_none_iff]
                at hheritage
              simp only [fieldsOf_of_none hfields, fieldsOf_of_none hheritage, and_self]
          | some fields' =>
              rw [heritage?, heritage?, hfields, Option.map_some, Option.map_eq_some_iff]
                at hheritage
              obtain ⟨fields, hmap, hextends⟩ := hheritage
              simp only [fieldsOf_of_some hfields, fieldsOf_of_some hmap, hextends]
              cases Value.lookupText "extends" fields' with
              | none => exact ⟨rfl, rfl⟩
              | some parent =>
                  obtain ⟨hlinks, hfault⟩ := ih (name :: before) parent
                  exact ⟨congrArg (name :: ·) hlinks, hfault⟩

theorem chain_congr_outline {other : Entries} (h : outline other = outline algorithms)
    (name : Value) :
    (chain other name).links.map Prod.fst = (chain algorithms name).links.map Prod.fst ∧
      (chain other name).fault = (chain algorithms name).fault := by
  have hlength : other.length = algorithms.length := by
    have := congrArg List.length h
    rwa [outline, outline, List.length_map, List.length_map] at this
  rw [chain, chain, hlength]
  exact chainFrom_congr_outline h _ [] name

/-- What is extended can be judged entry by entry. -/
theorem parentsAreKeys_of_forall
    (h : ∀ e ∈ algorithms, ∀ parent ∈ (heritage? e.2).join, parent.isKey = true) :
    ParentsAreKeys algorithms := by
  intro name parent hparent
  obtain ⟨fields, hfields, hextends⟩ := Option.bind_eq_some_iff.mp hparent
  obtain ⟨body, hbody, hmap⟩ := Option.bind_eq_some_iff.mp hfields
  obtain ⟨e, he, _, rfl⟩ := Value.exists_entry_of_lookup hbody
  apply h e he parent
  rw [heritage?, hmap, Option.map_some, Option.join_some, hextends]
  rfl

end NormalAlgorithm.Document
