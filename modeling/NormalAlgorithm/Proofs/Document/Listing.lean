/-
  NormalAlgorithm.Proofs.Document.Listing

  Statements in a document and in a listing.

  The same statements can be given as the `rules` of an algorithm or as the lines of a
  listing. A listing trims its lines and skips empty lines and comments, and a document
  does neither. For texts that fill a line and are no comments (`CarriesStatement`) this
  makes no difference:

    * `resolve_agrees_with_listing`: both give the same rules, or both complain about
      the same statement, under the same number.

  What decides is that blanks around a statement have no part in it
  (`Statement.compile_trim`), and that lines are found again (`Text.splitLines_joinWith`).
-/

import NormalAlgorithm.Listing
import NormalAlgorithm.Proofs.Document.Resolve
import NormalAlgorithm.Proofs.Statement.Trim
import NormalAlgorithm.Proofs.Text.Line

namespace NormalAlgorithm.Document

open NormalAlgorithm.Text

/-- A text that is one line with something other than a comment on it. -/
structure CarriesStatement (s : List Char) : Prop where
  noBreak : NoBreak s
  nonempty : trim s ≠ []
  noComment : (trim s).head? ≠ some '#'

instance (s : List Char) : Decidable (CarriesStatement s) :=
  decidable_of_iff (NoBreak s ∧ trim s ≠ [] ∧ (trim s).head? ≠ some '#')
    ⟨fun h => ⟨h.1, h.2.1, h.2.2⟩, fun h => ⟨h.noBreak, h.nonempty, h.noComment⟩⟩

namespace CarriesStatement

variable {s : List Char}

theorem ne_nil (h : CarriesStatement s) : s ≠ [] := by
  rintro rfl
  exact h.nonempty rfl

theorem isSkipped_trim (h : CarriesStatement s) : Listing.isSkipped (trim s) = false := by
  rw [Listing.isSkipped, List.isEmpty_eq_false_iff.mpr h.nonempty,
    beq_eq_false_iff_ne.mpr h.noComment]
  rfl

end CarriesStatement

/-- Statements compile to the same rules as the lines that they make. If one of them does
    not, it is the same one, and the fault on the line tells of the trimmed statement. -/
theorem compileAll_agrees_with_parseLines (name : Value) (n : Nat) {ss : List (List Char)}
    (h : ∀ s ∈ ss, CarriesStatement s) :
    (∃ rules, compileAll name n (ss.map .text) = .ok rules ∧
      Listing.parseLines n ss = .ok rules) ∨
    ∃ before s after cause, ss = before ++ s :: after ∧ Statement.compile s = .error cause ∧
      compileAll name n (ss.map .text) = .error (.badStatement name (before.length + n) cause) ∧
      Listing.parseLines n ss =
        .error ⟨before.length + n, cause.about (.text (trim s))⟩ := by
  induction ss generalizing n with
  | nil => exact Or.inl ⟨[], rfl, rfl⟩
  | cons s ss ih =>
      obtain ⟨hs, hrest⟩ := List.forall_mem_cons.mp h
      rw [List.map_cons, compileAll, Listing.parseLines, Statement.compileValue]
      simp only [hs.isSkipped_trim, Statement.compile_trim, Bool.false_eq_true, if_false]
      cases hcause : Statement.compile s with
      | error cause =>
          refine Or.inr ⟨[], s, ss, cause, rfl, hcause, ?_, ?_⟩
          · rw [List.length_nil, Nat.zero_add]
          · rw [List.length_nil, Nat.zero_add]
            rfl
      | ok rule =>
          rcases ih (n + 1) hrest with ⟨rules, hcompile, hparse⟩ |
            ⟨before, t, after, cause, hss, hcause, hcompile, hparse⟩
          · refine Or.inl ⟨rule :: rules, ?_, ?_⟩
            · simp only [hcompile]
            · simp only [hparse]
              rfl
          · have hnumber : before.length + (n + 1) = (s :: before).length + n := by
              rw [List.length_cons]
              omega
            refine Or.inr ⟨s :: before, t, after, cause, by rw [hss, List.cons_append], hcause,
              ?_, ?_⟩
            · simp only [hcompile, hnumber]
            · simp only [hparse, hnumber]
              rfl

/-- A fault of a text can be written on every machine. -/
theorem writingAll_of_compile {s : List Char} {cause : StatementFault}
    (h : Statement.compile s = .error cause) (m : Machine) : m.writingAll cause.values = none := by
  have htext : m.writingAll [.text s] = none := by
    rw [Machine.writingAll, List.findSome?_cons, m.writing_text, List.findSome?_nil]
  rw [Statement.compile] at h
  split at h
  · cases h
    exact htext
  · split_ifs at h
    · cases h
      exact htext
    · cases h
      exact htext
    · cases h
      exact htext
    · cases h
      exact htext
    · split at h
      · cases h
      · cases h
        rfl

/-- So only the name can keep the fault of a text in a document from being reported. -/
theorem raised_badStatement {s : List Char} {cause : StatementFault}
    (h : Statement.compile s = .error cause) (m : Machine) (name : Value) (n : Nat) :
    (DocumentFault.badStatement name n cause).raised m =
      (m.writing name).elim (.badStatement name n cause) .gaveOut := by
  have hvalues : m.writingAll (DocumentFault.badStatement name n cause).values =
      m.writing name := by
    rw [DocumentFault.values, Machine.writingAll, List.findSome?_append, ← Machine.writingAll,
      writingAll_of_compile h, Option.none_or, List.findSome?_singleton]
  rw [DocumentFault.raised, hvalues]
  cases m.writing name <;> rfl

/-- An algorithm that extends nothing has its own rules only. -/
theorem resolve_of_root {m : Machine} {algorithms fields : Entries} {name : Value}
    (hroom : m.resolving [(name, fields)] true = none) (hname : name.isKey = true)
    (hfields : fieldsAt? algorithms name = some fields)
    (hroot : Value.lookupText "extends" fields = none) :
    resolve m algorithms name = (ownRules name fields).mapError (·.raised m) := by
  have hchain : chain algorithms name = ⟨[(name, fields)], none⟩ := by
    rw [chain, chainFrom_of_fields hname (fun u hu => absurd hu List.not_mem_nil) hfields, hroot]
  rw [resolve, hchain, Chain.answered_of_room hroom, Chain.rules, List.reverse_singleton,
    allRules]
  cases ownRules name fields with
  | error fault => rfl
  | ok rules => simp only [allRules, List.append_nil]

/-- On the usual machine there is always room for one algorithm. -/
theorem resolving_usual_single (link : Value × Entries) (complete : Bool) :
    Machine.usual.resolving [link] complete = none := by
  have hinside : Machine.callsInside complete link.2 ≤ 7 := by
    rw [Machine.callsInside]
    split <;> decide
  have hroom : 0 + 1 + Machine.callsInside complete link.2 ≤ Machine.callRoom := by
    rw [Machine.callRoom]
    omega
  simpa [Machine.usual] using hroom

/-- Statements of an algorithm and as lines of a listing. Either both ways to load them give
    the same rules, or the same statement is at fault in both, with the same number. The
    document's fault also holds the name, so it is given only if the machine can write the
    name, as it can every text. -/
def LoadsAlike (m : Machine) (algorithms : Entries) (name : Value) (ss : List (List Char)) :
    Prop :=
  (∃ rules, resolve m algorithms name = .ok rules ∧
    Listing.parse (joinWith ['\n'] ss) = .ok rules) ∨
  ∃ before s after cause, ss = before ++ s :: after ∧ Statement.compile s = .error cause ∧
    resolve m algorithms name =
      .error ((m.writing name).elim (.badStatement name (before.length + 1) cause) .gaveOut) ∧
    Listing.parse (joinWith ['\n'] ss) =
      .error ⟨before.length + 1, cause.about (.text (trim s))⟩

/-- The statements of an algorithm that extends nothing load alike as lines of a listing, on
    every machine with room for one algorithm; the usual machine is one. -/
theorem resolve_agrees_with_listing {algorithms fields : Entries} {name : Value}
    {ss : List (List Char)} (hname : name.isKey = true)
    (hbody : Value.lookup name algorithms = some (.map fields))
    (hroot : Value.lookupText "extends" fields = none)
    (hrules : Value.lookupText "rules" fields = some (.list (ss.map .text)))
    (hss : ∀ s ∈ ss, CarriesStatement s) :
    LoadsAlike .usual algorithms name ss ∧
      ∀ m : Machine, m.resolving [(name, fields)] true = none →
        LoadsAlike m algorithms name ss := by
  have hfields : fieldsAt? algorithms name = some fields := by
    rw [fieldsAt?, hbody, Option.bind_some, fields?]
  have hstatements : statements? fields = some (ss.map .text) := by
    rw [statements?, hrules]
  have hlines : splitLines (joinWith ['\n'] ss) = ss :=
    splitLines_joinWith fun s hs => ⟨(hss s hs).noBreak, (hss s hs).ne_nil⟩
  have halike : ∀ m : Machine, m.resolving [(name, fields)] true = none →
      LoadsAlike m algorithms name ss := by
    intro m hroom
    rw [LoadsAlike, resolve_of_root hroom hname hfields hroot, ownRules_eq, hstatements,
      Listing.parse, hlines]
    rcases compileAll_agrees_with_parseLines name 1 hss with ⟨rules, hcompile, hparse⟩ |
      ⟨before, s, after, cause, hsplit, hcause, hcompile, hparse⟩
    · exact Or.inl ⟨rules, by simp only [hcompile]; rfl, hparse⟩
    · refine Or.inr ⟨before, s, after, cause, hsplit, hcause, ?_, hparse⟩
      rw [← raised_badStatement hcause]
      simp only [hcompile]
      rfl
  exact ⟨halike .usual (resolving_usual_single _ _), halike⟩

/-- Statements with blanks around them, the second of which has no left side, beside a
    description. -/
theorem resolve_agrees_with_listing_faulty :
    ∃ (algorithms fields : Entries) (name : Value) (ss : List (List Char)),
      name.isKey = true ∧ Value.lookup name algorithms = some (.map fields) ∧
      Value.lookupText "extends" fields = none ∧
      Value.lookupText "rules" fields = some (.list (ss.map .text)) ∧
      (∀ s ∈ ss, CarriesStatement s) ∧
      Listing.parse (joinWith ['\n'] ss) = .error ⟨2, .noLeft (.text "-> b".toList)⟩ ∧
      LoadsAlike .usual algorithms name ss := by
  let ss : List (List Char) := [" !#a => b".toList, "\t-> b ".toList, "c -> d".toList]
  let fields : Entries :=
    [(.text "description".toList, .null), (.text "rules".toList, .list (ss.map .text))]
  have hss : ∀ s ∈ ss, CarriesStatement s := by decide
  exact ⟨[(.text "m".toList, .map fields)], fields, .text "m".toList, ss, rfl, rfl, rfl, rfl, hss,
    rfl, (resolve_agrees_with_listing rfl rfl rfl rfl hss).1⟩

end NormalAlgorithm.Document
