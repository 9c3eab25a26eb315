/-
  NormalAlgorithm.Proofs.Document.Escape

  The faults of documents that are not reported.

  What is wrong with a document is reported, but for two kinds of faults
  (`DocumentFault.isReported`): a name is of a kind that cannot be used, or the machine gave out.
  `Escapes` says which documents lead to them, by the ways that extending algorithms make.

    * `exists_end`: from every name there is a way that comes to an end, also if what is
      extended cannot be a key.
    * `rules_of_end`: the end of a way and what its algorithms give decide the answer.
    * `answered_or_reported_iff_no_escape`: there are rules or a fault that is reported,
      exactly if no fault escapes.
    * `names_escape`: there are documents with such faults in their names.
-/

import NormalAlgorithm.Proofs.Document.Resolve

namespace NormalAlgorithm

/-- What stands for something as a key can be one. -/
theorem Value.isKey_of_identity? {v : Value} (h : v.identity? ≠ none) : v.isKey = true := by
  cases v with
  | list _ | pair _ _ | set _ | map _ | again _ => exact absurd rfl h
  | _ => rfl

namespace Document

/-! ## Ends of ways -/

/-- How a way comes to an end: at a name that cannot be a key, or where a chain stops. -/
inductive EndsWith (algorithms : Entries) (passed : List Value) (last : Value) :
    Option DocumentFault → Prop where
  | noKey (h : last.isKey = false) : EndsWith algorithms passed last (some .badName)
  | stops {fault : Option DocumentFault} (hkey : last.isKey = true)
      (h : StopsWith algorithms passed last fault) : EndsWith algorithms passed last fault

variable {algorithms : Entries}

/-- Only a key is found in a map. -/
theorem isKey_of_fieldsAt? {name : Value} {fields : Entries}
    (h : fieldsAt? algorithms name = some fields) : name.isKey = true := by
  obtain ⟨body, hbody, _⟩ := Option.bind_eq_some_iff.mp h
  obtain ⟨e, _, heq, _⟩ := Value.exists_entry_of_lookup hbody
  obtain ⟨hsome, hsame⟩ := Value.keyEq_iff.mp heq
  exact Value.isKey_of_identity? (hsame ▸ hsome)

theorem exists_fields_of_parent? {name parent : Value}
    (h : parent? algorithms name = some parent) :
    ∃ fields, fieldsAt? algorithms name = some fields ∧
      Value.lookupText "extends" fields = some parent :=
  Option.bind_eq_some_iff.mp h

/-- The names passed are those of algorithms. -/
theorem lookup_ne_none_of_linked {passed : List Value} {last : Value}
    (h : (passed ++ [last]).IsChain fun child parent => parent? algorithms child = some parent) :
    ∀ u ∈ passed, Value.lookup u algorithms ≠ none := by
  induction passed with
  | nil => exact fun u hu => absurd hu List.not_mem_nil
  | cons v passed ih =>
      rw [List.cons_append, List.isChain_cons] at h
      obtain ⟨hnext, hrest⟩ := h
      refine List.forall_mem_cons.mpr ⟨?_, ih hrest⟩
      obtain ⟨next, hhead⟩ : ∃ next, (passed ++ [last]).head? = some next := by
        cases passed <;> exact ⟨_, rfl⟩
      obtain ⟨fields, hfields, _⟩ := exists_fields_of_parent? (hnext next hhead)
      exact lookup_ne_none_of_fieldsAt? hfields

namespace IsWay

variable {name last : Value} {passed : List Value}

theorem start (algorithms : Entries) (name : Value) : IsWay algorithms name [] name :=
  ⟨rfl, List.isChain_singleton _, .nil⟩

theorem length_le (h : IsWay algorithms name passed last) :
    passed.length ≤ algorithms.length :=
  Value.length_le_of_distinct_found h.distinct (lookup_ne_none_of_linked h.linked)

/-- A way goes on from a name that it has not passed. -/
theorem extend {parent : Value} (h : IsWay algorithms name passed last)
    (hnew : ∀ u ∈ passed, u.keyEq last = false) (hparent : parent? algorithms last = some parent) :
    IsWay algorithms name (passed ++ [last]) parent := by
  refine ⟨?_, ?_, ?_⟩
  · rw [List.head?_append, h.first, Option.some_or]
  · rw [List.isChain_append]
    refine ⟨h.linked, List.isChain_singleton _, ?_⟩
    intro u hu v hv
    rw [List.getLast?_concat, Option.mem_some_iff] at hu
    rw [List.head?_singleton, Option.mem_some_iff] at hv
    rw [← hu, ← hv, hparent]
  · rw [List.pairwise_append]
    refine ⟨h.distinct, List.pairwise_singleton _ _, ?_⟩
    intro u hu v hv
    rw [List.mem_singleton.mp hv]
    exact hnew u hu

theorem ends_or_goes_on (h : IsWay algorithms name passed last) :
    (∃ fault, EndsWith algorithms passed last fault) ∨
      ∃ parent, IsWay algorithms name (passed ++ [last]) parent := by
  cases hkey : last.isKey with
  | false => exact Or.inl ⟨_, .noKey hkey⟩
  | true =>
      -- the cases are those of the reader, who gets the names in reverse
      have hcases := @chainFrom_succ_cases algorithms last hkey 0 passed.reverse
      rw [List.reverse_reverse] at hcases
      rcases hcases with ⟨fault, hstops, _⟩ |
        ⟨fields, hnew, hfields, ⟨hroot, _⟩ | ⟨parent, hparent, _⟩⟩
      · exact Or.inl ⟨_, .stops hkey hstops⟩
      · exact Or.inl ⟨_, .stops hkey (.root hnew hfields hroot)⟩
      · rw [← parent?_of_fields hfields] at hparent
        exact Or.inr ⟨parent, h.extend hnew hparent⟩

/-- Every way comes to an end, since it cannot be longer than there are algorithms. -/
theorem exists_end {n : Nat} (h : IsWay algorithms name passed last)
    (hn : algorithms.length < passed.length + n) :
    ∃ passed last fault, IsWay algorithms name passed last ∧
      EndsWith algorithms passed last fault := by
  induction n generalizing passed last with
  | zero => exact absurd h.length_le (Nat.not_le.mpr hn)
  | succ n ih =>
      rcases h.ends_or_goes_on with ⟨fault, hend⟩ | ⟨parent, hway⟩
      · exact ⟨passed, last, fault, h, hend⟩
      · apply ih hway
        rw [List.length_append, List.length_singleton]
        omega

end IsWay

/-- From every name there is a way that comes to an end. -/
theorem exists_end (algorithms : Entries) (name : Value) :
    ∃ passed last fault, IsWay algorithms name passed last ∧
      EndsWith algorithms passed last fault := by
  apply (IsWay.start algorithms name).exists_end (n := algorithms.length + 1)
  rw [List.length_nil]
  omega

/-! ## The reader on a way -/

/-- Links that are algorithms of these names. -/
structure LinksOf (algorithms : Entries) (names : List Value) (links : List (Value × Entries)) :
    Prop where
  names : links.map Prod.fst = names
  fields : ∀ link ∈ links, fieldsAt? algorithms link.1 = some link.2

theorem LinksOf.append {names more : List Value} {links rest : List (Value × Entries)}
    (h : LinksOf algorithms names links) (hrest : LinksOf algorithms more rest) :
    LinksOf algorithms (names ++ more) (links ++ rest) := by
  refine ⟨?_, ?_⟩
  · rw [List.map_append, h.names, hrest.names]
  · exact List.forall_mem_append.mpr ⟨h.fields, hrest.fields⟩

theorem linksOf_nil : LinksOf algorithms [] [] :=
  ⟨rfl, fun _ hlink => absurd hlink List.not_mem_nil⟩

theorem linksOf_singleton {name : Value} {fields : Entries}
    (h : fieldsAt? algorithms name = some fields) : LinksOf algorithms [name] [(name, fields)] := by
  refine ⟨rfl, ?_⟩
  intro link hlink
  rw [List.mem_singleton.mp hlink]
  exact h

/-- The reader passes the names of a way and comes to the last one. -/
theorem chainFrom_of_linked {before passed : List Value} {name last : Value} (fuel : Nat)
    (hfirst : (passed ++ [last]).head? = some name)
    (hlinked : (passed ++ [last]).IsChain fun child parent =>
      parent? algorithms child = some parent)
    (hdistinct : (before.reverse ++ passed).Pairwise fun u v => u.keyEq v = false) :
    ∃ links, LinksOf algorithms passed links ∧
      chainFrom algorithms (fuel + passed.length) before name =
        ⟨links ++ (chainFrom algorithms fuel (passed.reverse ++ before) last).links,
          (chainFrom algorithms fuel (passed.reverse ++ before) last).fault⟩ := by
  induction passed generalizing before name with
  | nil =>
      obtain rfl : last = name := Option.some.inj hfirst
      exact ⟨[], linksOf_nil, rfl⟩
  | cons u passed ih =>
      obtain rfl : u = name := Option.some.inj hfirst
      rw [List.cons_append, List.isChain_cons] at hlinked
      obtain ⟨hnext, hrest⟩ := hlinked
      obtain ⟨parent, hhead⟩ : ∃ parent, (passed ++ [last]).head? = some parent := by
        cases passed <;> exact ⟨_, rfl⟩
      obtain ⟨fields, hfields, hparent⟩ := exists_fields_of_parent? (hnext parent hhead)
      have hnew : ∀ v ∈ before, v.keyEq u = false := by
        intro v hv
        exact (List.pairwise_append.mp hdistinct).2.2 v (List.mem_reverse.mpr hv) u
          List.mem_cons_self
      have hdistinct' : ((u :: before).reverse ++ passed).Pairwise fun u v =>
          u.keyEq v = false := by
        rwa [List.reverse_cons, List.append_assoc, List.singleton_append]
      obtain ⟨links, hlinks, hchain⟩ := ih hhead hrest hdistinct'
      refine ⟨(u, fields) :: links, (linksOf_singleton hfields).append hlinks, ?_⟩
      rw [List.length_cons, ← Nat.add_assoc,
        chainFrom_of_fields (isKey_of_fieldsAt? hfields) hnew hfields, hparent,
        List.reverse_cons, List.append_assoc, List.singleton_append]
      simp only [hchain, List.cons_append]

/-- The reader stops where a way ends. -/
theorem chainFrom_of_end {before : List Value} {last : Value} {fault : Option DocumentFault}
    (h : EndsWith algorithms before.reverse last fault) (fuel : Nat) :
    ∃ links, LinksOf algorithms (linkedNames [] last fault) links ∧
      chainFrom algorithms (fuel + 1) before last = ⟨links, fault⟩ := by
  have hany : (∀ u ∈ before.reverse, u.keyEq last = false) →
      before.any (·.keyEq last) = false := fun hnew =>
    List.any_eq_false.mpr fun u hu => Bool.eq_false_iff.mp (hnew u (List.mem_reverse.mpr hu))
  cases h with
  | noKey hkey =>
      refine ⟨[], linksOf_nil, ?_⟩
      simp only [chainFrom, hkey, Bool.not_false, if_true]
  | stops hkey hstops =>
      cases hstops with
      | circular hpassed =>
          obtain ⟨u, hu, heq⟩ := hpassed
          have hpassed : before.any (·.keyEq last) = true :=
            List.any_eq_true.mpr ⟨u, List.mem_reverse.mp hu, heq⟩
          refine ⟨[], linksOf_nil, ?_⟩
          simp only [chainFrom, hkey, hpassed, Bool.not_true, Bool.false_eq_true, if_false,
            if_true]
      | unknown hnew hlookup =>
          refine ⟨[], linksOf_nil, ?_⟩
          simp only [chainFrom, hkey, hany hnew, hlookup, Bool.not_true, Bool.false_eq_true,
            if_false]
      | notMap hnew hlookup hbody =>
          refine ⟨[], linksOf_nil, ?_⟩
          simp only [chainFrom, hkey, hany hnew, hlookup, fieldsOf_of_none hbody, Bool.not_true,
            Bool.false_eq_true, if_false]
      | root hnew hfields hroot =>
          refine ⟨_, linksOf_singleton hfields, ?_⟩
          rw [chainFrom_of_fields hkey (fun u hu => hnew u (List.mem_reverse.mpr hu)) hfields,
            hroot]

theorem linkedNames_eq_append (passed : List Value) (last : Value)
    (fault : Option DocumentFault) :
    linkedNames passed last fault = passed ++ linkedNames [] last fault := by
  cases fault with
  | none => rfl
  | some fault => exact (List.append_nil passed).symm

/-- The chain of an algorithm links those on the way from its name, up to the end. -/
theorem chain_of_end {name last : Value} {passed : List Value} {fault : Option DocumentFault}
    (hway : IsWay algorithms name passed last) (hend : EndsWith algorithms passed last fault) :
    ∃ links, LinksOf algorithms (linkedNames passed last fault) links ∧
      chain algorithms name = ⟨links, fault⟩ := by
  -- the fuel lasts for the names passed and for the last one
  have hfuel : algorithms.length + 1 = algorithms.length - passed.length + 1 + passed.length := by
    have hle := hway.length_le
    omega
  have hend' : EndsWith algorithms (passed.reverse ++ []).reverse last fault := by
    rwa [List.append_nil, List.reverse_reverse]
  obtain ⟨links, hlinks, hchain⟩ := @chainFrom_of_linked algorithms [] passed name last
    (algorithms.length - passed.length + 1) hway.first hway.linked hway.distinct
  obtain ⟨rest, hrest, hlast⟩ := chainFrom_of_end hend' (algorithms.length - passed.length)
  refine ⟨links ++ rest, linkedNames_eq_append passed last fault ▸ hlinks.append hrest, ?_⟩
  rw [chain, hfuel, hchain, hlast]

/-! ## What algorithms give together -/

theorem compileAll_of_forall (name : Value) (n : Nat) {items : List Value} {rules : List Rule}
    (h : List.Forall₂ (fun s rule => Statement.compileValue s = .ok rule) items rules) :
    compileAll name n items = .ok rules := by
  induction h generalizing n with
  | nil => rfl
  | cons hs _ ih => simp only [compileAll, hs, ih]

theorem compileAll_of_error (name : Value) (n : Nat) {before after : List Value} {s : Value}
    {cause : StatementFault} (hbefore : ∀ t ∈ before, ∃ rule, Statement.compileValue t = .ok rule)
    (hcause : Statement.compileValue s = .error cause) :
    compileAll name n (before ++ s :: after) =
      .error (.badStatement name (before.length + n) cause) := by
  induction before generalizing n with
  | nil => simp only [List.nil_append, compileAll, hcause, List.length_nil, Nat.zero_add]
  | cons t before ih =>
      obtain ⟨⟨rule, hrule⟩, hrest⟩ := List.forall_mem_cons.mp hbefore
      simp only [List.cons_append, compileAll, hrule, ih (n + 1) hrest, List.length_cons,
        Nat.add_assoc, Nat.add_comm 1 n]

theorem ownRules_of_hasRules {name : Value} {fields : Entries} {rules : List Rule}
    (hfields : fieldsAt? algorithms name = some fields) (h : HasRules algorithms name rules) :
    ownRules name fields = .ok rules := by
  obtain ⟨fields', items, hfields', hitems, hall⟩ := h
  obtain rfl : fields = fields' := Option.some.inj (hfields.symm.trans hfields')
  rw [ownRules_eq, hitems]
  exact compileAll_of_forall name 1 hall

theorem ownRules_of_hasFault {name : Value} {fields : Entries} {fault : DocumentFault}
    (hfields : fieldsAt? algorithms name = some fields) (h : HasFault algorithms name fault) :
    ownRules name fields = .error fault := by
  cases h with
  | @notList fields' hfields' hitems =>
      obtain rfl : fields = fields' := Option.some.inj (hfields.symm.trans hfields')
      rw [ownRules_eq, hitems]
  | @statement fields' before after s cause hfields' hitems hbefore hcause =>
      obtain rfl : fields = fields' := Option.some.inj (hfields.symm.trans hfields')
      rw [ownRules_eq, hitems]
      exact compileAll_of_error name 1 hbefore hcause

theorem allRules_of_forall {links : List (Value × Entries)} {parts : List (List Rule)}
    (hfields : ∀ link ∈ links, fieldsAt? algorithms link.1 = some link.2)
    (h : List.Forall₂ (HasRules algorithms) (links.map Prod.fst) parts) :
    allRules links = .ok parts.flatten := by
  induction links generalizing parts with
  | nil =>
      cases h
      rfl
  | cons link links ih =>
      obtain ⟨hlink, hlinks⟩ := List.forall_mem_cons.mp hfields
      cases h with
      | cons hrules hrest =>
          simp only [allRules, ownRules_of_hasRules hlink hrules, ih hlinks hrest,
            List.flatten_cons]

theorem allRules_of_fault {links : List (Value × Entries)} {before after : List Value}
    {name : Value} {fault : DocumentFault}
    (hfields : ∀ link ∈ links, fieldsAt? algorithms link.1 = some link.2)
    (hnames : links.map Prod.fst = before ++ name :: after)
    (hbefore : ∀ u ∈ before, ∃ rules, HasRules algorithms u rules)
    (h : HasFault algorithms name fault) : allRules links = .error fault := by
  induction before generalizing links with
  | nil =>
      obtain ⟨link, links, rfl, rfl, _⟩ := List.map_eq_cons_iff.mp hnames
      obtain ⟨hlink, _⟩ := List.forall_mem_cons.mp hfields
      simp only [allRules, ownRules_of_hasFault hlink h]
  | cons u before ih =>
      obtain ⟨link, links, rfl, rfl, hrest⟩ := List.map_eq_cons_iff.mp hnames
      obtain ⟨hlink, hlinks⟩ := List.forall_mem_cons.mp hfields
      obtain ⟨⟨rules, hrules⟩, hbefore⟩ := List.forall_mem_cons.mp hbefore
      simp only [allRules, ownRules_of_hasRules hlink hrules, ih hlinks hrest hbefore]

/-- Algorithms give one thing together, and it is what is read from their links. -/
theorem allRules_of_together {names : List Value} {links : List (Value × Entries)}
    {answer : Except DocumentFault (List Rule)} (hlinks : LinksOf algorithms names links)
    (h : Together algorithms names answer) : allRules links = answer := by
  cases h with
  | rules hall => exact allRules_of_forall hlinks.fields (hlinks.names ▸ hall)
  | fault hnames hbefore hfault =>
      exact allRules_of_fault hlinks.fields (hlinks.names.trans hnames) hbefore hfault

/-! ## Answers at the end of a way -/

/-- What a way that has come to its end gives: the fault there, or what its algorithms
    give together, the last one first. -/
inductive Gives (algorithms : Entries) (passed : List Value) (last : Value) :
    Option DocumentFault → Except DocumentFault (List Rule) → Prop where
  | fault (fault : DocumentFault) : Gives algorithms passed last (some fault) (.error fault)
  | together {answer : Except DocumentFault (List Rule)}
      (h : Together algorithms (passed ++ [last]).reverse answer) :
    Gives algorithms passed last none answer

theorem LinksOf.reverse {names : List Value} {links : List (Value × Entries)}
    (h : LinksOf algorithms names links) : LinksOf algorithms names.reverse links.reverse := by
  refine ⟨?_, ?_⟩
  · rw [List.map_reverse, h.names]
  · exact fun link hlink => h.fields link (List.mem_reverse.mp hlink)

theorem exists_gives {name last : Value} {passed : List Value} {fault : Option DocumentFault}
    (hway : IsWay algorithms name passed last) (hend : EndsWith algorithms passed last fault) :
    ∃ answer, Gives algorithms passed last fault answer := by
  cases fault with
  | some fault => exact ⟨_, .fault fault⟩
  | none =>
      obtain ⟨links, hlinks, _⟩ := chain_of_end hway hend
      have htogether := together_allRules hlinks.reverse.fields
      rw [hlinks.reverse.names] at htogether
      exact ⟨_, .together htogether⟩

/-- The links of some names are determined by the algorithms. -/
theorem LinksOf.unique {names : List Value} {links others : List (Value × Entries)}
    (h : LinksOf algorithms names links) (hother : LinksOf algorithms names others) :
    links = others := by
  induction links generalizing names others with
  | nil =>
      obtain rfl : [] = names := h.names
      exact (List.map_eq_nil_iff.mp hother.names).symm
  | cons link links ih =>
      obtain rfl := h.names
      obtain ⟨other, rest, rfl, hname, hrest⟩ := List.map_eq_cons_iff.mp hother.names
      obtain ⟨hlink, hlinks⟩ := List.forall_mem_cons.mp h.fields
      obtain ⟨hfields, hothers⟩ := List.forall_mem_cons.mp hother.fields
      have hsame : link = other := by
        rw [hname, hlink] at hfields
        exact Prod.ext hname.symm (Option.some.inj hfields)
      rw [hsame, ih ⟨rfl, hlinks⟩ ⟨hrest, hothers⟩]

/-- What the way from a name gives is what is read from its chain. -/
theorem rules_of_end {name last : Value} {passed : List Value} {fault : Option DocumentFault}
    {answer : Except DocumentFault (List Rule)} (hway : IsWay algorithms name passed last)
    (hend : EndsWith algorithms passed last fault)
    (hgives : Gives algorithms passed last fault answer) :
    (chain algorithms name).rules = answer := by
  obtain ⟨links, hlinks, hchain⟩ := chain_of_end hway hend
  rw [hchain]
  cases hgives with
  | fault fault => rfl
  | together htogether => exact allRules_of_together hlinks.reverse htogether

/-! ## Faults that are reported -/

theorem isReported_of_stopsWith {passed : List Value} {last : Value} {fault : DocumentFault}
    (h : StopsWith algorithms passed last (some fault)) : fault.isReported = true := by
  cases h <;> rfl

theorem isReported_of_together {names : List Value} {fault : DocumentFault}
    (h : Together algorithms names (.error fault)) : fault.isReported = true := by
  cases h with
  | fault _ _ hfault => cases hfault <;> rfl

/-- The faults that an algorithm gives can be reported, unless the way from it ends at a
    name that cannot be a key. -/
theorem isReported_or_noKey {passed : List Value} {last : Value} {fault : Option DocumentFault}
    {bad : DocumentFault} (hend : EndsWith algorithms passed last fault)
    (hgives : Gives algorithms passed last fault (.error bad)) :
    bad.isReported = true ∨ last.isKey = false ∧ fault = some .badName ∧ bad = .badName := by
  cases hgives with
  | fault =>
      cases hend with
      | noKey hkey => exact Or.inr ⟨hkey, rfl, rfl⟩
      | stops _ hstops => exact Or.inl (isReported_of_stopsWith hstops)
  | together htogether => exact Or.inl (isReported_of_together htogether)

/-! ## Faults that escape -/

/-- The faults of an algorithm that are not reported: the machine gives out on the way from its
    name, or the way ends at a name that cannot be a key, or what it gives is a fault that the
    machine cannot write. -/
inductive EscapesOnWay (m : Machine) (algorithms : Entries) (name : Value) :
    DocumentFault → Prop where
  | gaveOut {passed : List Value} {last : Value} {fault : Option DocumentFault}
      {links : List (Value × Entries)} {shortage : Shortage}
      (hway : IsWay algorithms name passed last) (hend : EndsWith algorithms passed last fault)
      (hlinks : LinksOf algorithms (linkedNames passed last fault) links)
      (h : m.resolving links fault.isNone = some shortage) :
    EscapesOnWay m algorithms name (.gaveOut shortage)
  | noKey {passed : List Value} {last : Value} {links : List (Value × Entries)}
      (hway : IsWay algorithms name passed last) (hlast : last.isKey = false)
      (hlinks : LinksOf algorithms passed links) (hroom : m.resolving links false = none) :
    EscapesOnWay m algorithms name .badName
  | unwritable {passed : List Value} {last : Value} {fault : Option DocumentFault}
      {links : List (Value × Entries)} {bad : DocumentFault} {shortage : Shortage}
      (hway : IsWay algorithms name passed last) (hend : EndsWith algorithms passed last fault)
      (hlinks : LinksOf algorithms (linkedNames passed last fault) links)
      (hroom : m.resolving links fault.isNone = none)
      (hgives : Gives algorithms passed last fault (.error bad))
      (h : m.writingAll bad.values = some shortage) :
    EscapesOnWay m algorithms name (.gaveOut shortage)

/-- The faults of a document that are not reported: an algorithm is not there and some
    name cannot be listed, for it is no text, or the algorithm is there and its fault
    escapes on the way. -/
inductive Escapes (m : Machine) (document name : Value) : DocumentFault → Prop where
  | unlisted {algorithms : Entries} (hdocument : Document.algorithms document = .ok algorithms)
      (hname : Value.lookup name algorithms = none) (h : ∃ e ∈ algorithms, e.1.text? = none) :
    Escapes m document name .badName
  | onWay {algorithms : Entries} {fault : DocumentFault}
      (hdocument : Document.algorithms document = .ok algorithms)
      (hname : Value.lookup name algorithms ≠ none)
      (h : EscapesOnWay m algorithms name fault) :
    Escapes m document name fault

variable {m : Machine}

theorem raised_of_written {bad : DocumentFault} (h : m.writingAll bad.values = none) :
    bad.raised m = bad := by
  rw [DocumentFault.raised, h]

theorem raised_of_shortage {bad : DocumentFault} {shortage : Shortage}
    (h : m.writingAll bad.values = some shortage) : bad.raised m = .gaveOut shortage := by
  rw [DocumentFault.raised, h]

/-- The machine is asked about the links of the way, which are those of the chain. -/
theorem resolving_of_end {name last : Value} {passed : List Value} {fault : Option DocumentFault}
    {links : List (Value × Entries)} (hway : IsWay algorithms name passed last)
    (hend : EndsWith algorithms passed last fault)
    (hlinks : LinksOf algorithms (linkedNames passed last fault) links) :
    m.resolving (chain algorithms name).links (chain algorithms name).fault.isNone =
      m.resolving links fault.isNone := by
  obtain ⟨others, hothers, hchain⟩ := chain_of_end hway hend
  rw [hchain, hothers.unique hlinks]

theorem resolve_of_escapesOnWay {name : Value} {fault : DocumentFault}
    (h : EscapesOnWay m algorithms name fault) :
    resolve m algorithms name = .error fault ∧ fault.isReported = false := by
  cases h with
  | gaveOut hway hend hlinks hshort =>
      rw [← resolving_of_end hway hend hlinks] at hshort
      exact ⟨Chain.answered_of_shortage hshort _, rfl⟩
  | @noKey passed last links hway hlast hlinks hroom =>
      have hend : EndsWith algorithms passed last (some .badName) := .noKey hlast
      have hchain := resolving_of_end (m := m) hway hend hlinks
      refine ⟨?_, rfl⟩
      rw [resolve, rules_of_end hway hend (.fault _),
        Chain.answered_of_room (hchain.trans hroom)]
      rfl
  | unwritable hway hend hlinks hroom hgives hshort =>
      rw [← resolving_of_end hway hend hlinks] at hroom
      refine ⟨?_, rfl⟩
      rw [resolve, rules_of_end hway hend hgives, Chain.answered_of_room hroom,
        ← raised_of_shortage hshort]
      rfl

theorem escapesOnWay_of_resolve {name : Value} {fault : DocumentFault}
    (h : resolve m algorithms name = .error fault) (hfault : fault.isReported = false) :
    EscapesOnWay m algorithms name fault := by
  obtain ⟨passed, last, atEnd, hway, hend⟩ := exists_end algorithms name
  obtain ⟨answer, hgives⟩ := exists_gives hway hend
  obtain ⟨links, hlinks, hchain⟩ := chain_of_end hway hend
  have hasked := resolving_of_end (m := m) hway hend hlinks
  rw [resolve, rules_of_end hway hend hgives] at h
  cases hroom : m.resolving links atEnd.isNone with
  | some shortage =>
      rw [Chain.answered_of_shortage (hasked.trans hroom)] at h
      cases h
      exact .gaveOut hway hend hlinks hroom
  | none =>
      rw [Chain.answered_of_room (hasked.trans hroom)] at h
      cases answer with
      | ok rules => cases h
      | error bad =>
          obtain rfl : bad.raised m = fault := Except.error.inj h
          cases hwriting : m.writingAll bad.values with
          | some shortage =>
              rw [raised_of_shortage hwriting]
              exact .unwritable hway hend hlinks hroom hgives hwriting
          | none =>
              rw [raised_of_written hwriting] at hfault ⊢
              rcases isReported_or_noKey hend hgives with hreported | ⟨hlast, rfl, rfl⟩
              · rw [hreported] at hfault
                cases hfault
              · exact .noKey hway hlast hlinks hroom

/-- Names can be listed unless one of them is no text. -/
theorem mapM_text?_eq_none_iff :
    (algorithms.mapM fun e => e.1.text?) = none ↔ ∃ e ∈ algorithms, e.1.text? = none := by
  induction algorithms with
  | nil => simp
  | cons e algorithms ih =>
      rw [List.mapM_cons, List.exists_mem_cons_iff, ← ih]
      cases e.1.text? with
      | none => simp
      | some text => cases algorithms.mapM fun e => e.1.text? <;> simp

/-- What is not there is reported unless some name is no text. -/
theorem unreported_iff_of_missing {document : Value} {name : List Char} {fault : DocumentFault}
    (hdocument : Document.algorithms document = .ok algorithms)
    (h : Value.lookup (.text name) algorithms = none) :
    (rules m document (.text name) = .error fault ∧ fault.isReported = false) ↔
      fault = .badName ∧ ∃ e ∈ algorithms, e.1.text? = none := by
  have hkey : (Value.text name).isKey = true := rfl
  rw [← mapM_text?_eq_none_iff]
  simp only [rules, hdocument, require, hkey, h, Bool.not_true, Bool.false_eq_true, if_false]
  cases algorithms.mapM fun e => e.1.text? with
  | none =>
      constructor
      · rintro ⟨hfault, _⟩
        exact ⟨(Except.error.inj hfault).symm, rfl⟩
      · rintro ⟨rfl, _⟩
        exact ⟨rfl, rfl⟩
  | some names =>
      have hwriting : m.writingAll (DocumentFault.unknown (.text name) names).values = none := by
        rw [DocumentFault.values, Machine.writingAll, List.findSome?_singleton, m.writing_text]
      constructor
      · rintro ⟨hfault, hreported⟩
        obtain rfl := Except.error.inj hfault
        rw [raised_of_written hwriting] at hreported
        cases hreported
      · rintro ⟨_, hnone⟩
        cases hnone

theorem rules_of_lookup {document : Value} {name : List Char}
    (hdocument : Document.algorithms document = .ok algorithms)
    (h : Value.lookup (.text name) algorithms ≠ none) :
    rules m document (.text name) = resolve m algorithms (.text name) := by
  have hkey : (Value.text name).isKey = true := rfl
  obtain ⟨body, hbody⟩ := Option.ne_none_iff_exists'.mp h
  simp only [rules, hdocument, require, hkey, hbody, Bool.not_true, Bool.false_eq_true, if_false]

/-- A document without a map of algorithms is reported. -/
theorem isReported_of_algorithms {document : Value} {fault : DocumentFault}
    (h : Document.algorithms document = .error fault) : fault.isReported = true := by
  rw [Document.algorithms.eq_def] at h
  split at h
  · split at h <;> cases h <;> rfl
  · cases h
    rfl

/-- A fault that is not reported is one that escapes. -/
theorem unreported_iff_escapes (document : Value) (name : List Char) (fault : DocumentFault) :
    (rules m document (.text name) = .error fault ∧ fault.isReported = false) ↔
      Escapes m document (.text name) fault := by
  constructor
  · rintro ⟨hrules, hfault⟩
    cases hdocument : Document.algorithms document with
    | error bad =>
        rw [rules, hdocument] at hrules
        cases hrules
        rw [isReported_of_algorithms hdocument] at hfault
        cases hfault
    | ok algorithms =>
        by_cases hlookup : Value.lookup (.text name) algorithms = none
        · obtain ⟨rfl, hnames⟩ :=
            (unreported_iff_of_missing hdocument hlookup).mp ⟨hrules, hfault⟩
          exact .unlisted hdocument hlookup hnames
        · rw [rules_of_lookup hdocument hlookup] at hrules
          exact .onWay hdocument hlookup (escapesOnWay_of_resolve hrules hfault)
  · intro h
    cases h with
    | unlisted hdocument hlookup hnames =>
        exact (unreported_iff_of_missing hdocument hlookup).mpr ⟨rfl, hnames⟩
    | onWay hdocument hlookup hescapes =>
        rw [rules_of_lookup hdocument hlookup]
        exact resolve_of_escapesOnWay hescapes

/-- An algorithm asked for by a text has rules, or else a fault that is reported, exactly
    if no fault escapes, and this on every machine. A fault that escapes is what one gets. -/
theorem answered_or_reported_iff_no_escape (m : Machine) (document : Value) (name : List Char) :
    (((∃ rs, rules m document (.text name) = .ok rs) ∨
        ∃ fault, rules m document (.text name) = .error fault ∧ fault.isReported = true) ↔
      ∀ fault, ¬ Escapes m document (.text name) fault) ∧
    ∀ fault, Escapes m document (.text name) fault →
      rules m document (.text name) = .error fault ∧ fault.isReported = false := by
  have hiff := unreported_iff_escapes (m := m) document name
  refine ⟨⟨?_, ?_⟩, fun fault => (hiff fault).mpr⟩
  · rintro hanswer fault hescapes
    obtain ⟨hrules, hfault⟩ := (hiff fault).mpr hescapes
    rcases hanswer with ⟨rs, hrs⟩ | ⟨fault', hrules', hreported⟩
    · rw [hrules] at hrs
      cases hrs
    · obtain rfl : fault = fault' := Except.error.inj (hrules.symm.trans hrules')
      rw [hfault] at hreported
      cases hreported
  · intro hnone
    cases hrules : rules m document (.text name) with
    | ok rs => exact Or.inl ⟨rs, rfl⟩
    | error fault =>
        refine Or.inr ⟨fault, rfl, ?_⟩
        cases hreported : fault.isReported with
        | true => rfl
        | false => exact absurd ((hiff fault).mp ⟨hrules, hreported⟩) (hnone fault)

/-- An algorithm extends a list: the way from its name ends there, and the fault is one
    that is not reported, also where nothing gives out. -/
theorem answered_or_reported_iff_no_escape_list :
    ∃ document name, Escapes .unlimited document (.text name) .badName ∧
      ¬ ((∃ rs, rules .unlimited document (.text name) = .ok rs) ∨
        ∃ fault, rules .unlimited document (.text name) = .error fault ∧
          fault.isReported = true) := by
  let parent : Value := .list [.text "a".toList]
  have hway : IsWay [heir parent] heirName [heirName] parent :=
    ⟨rfl, List.isChain_pair.mpr rfl, List.pairwise_singleton _ _⟩
  have hescapes : Escapes .unlimited (ofAlgorithms [heir parent]) heirName .badName :=
    .onWay rfl (Option.some_ne_none _) (.noKey hway rfl (linksOf_singleton rfl) rfl)
  exact ⟨_, _, hescapes, fun h =>
    (answered_or_reported_iff_no_escape .unlimited _ _).1.mp h .badName hescapes⟩

/-- Two documents with names that cannot be used and are not reported: the only algorithm
    is named by a number and another one is asked for, and an algorithm extends a list. -/
theorem names_escape :
    rules .usual (ofAlgorithms [(.int 1, .map [(.text "rules".toList, .list [])])])
        (.text "x".toList) = .error .badName ∧
      rules .usual (ofAlgorithms [heir (.list [.text "a".toList])]) heirName = .error .badName ∧
      DocumentFault.isReported .badName = false :=
  ⟨rfl, rfl, rfl⟩

end Document

end NormalAlgorithm
