/-
  NormalAlgorithm.Proofs.Ruleset.Edit

  Edits of a ruleset as edits of the list of its rules.

  A position is brought into range first (`Ruleset.place`). After that each edit is one
  on lists:

    * `add_eq`, `remove_eq`: insertion and removal at the place of a position.
    * `get?_eq`, `set?_eq`: the rule at a position that is in range, and its exchange.
    * `insertAt_index`, `removeAt_index`, `ruleAt_index`, `replaceAt_index`: the same for
      the checked operations, whose positions are values that count as integers (`Index`)
      or, for the first two, are absent.
    * `insertAt_and_removeAt_undo`: insertion and removal at the same position undo each
      other. A position is clamped to the length of the list for the one and to its last
      index for the other, and the list is longer by one rule in between, so that both find
      the same place (`remove_add`, `exists_add_of_remove`).
-/

import Mathlib.Data.List.InsertIdx
import NormalAlgorithm.Ruleset.Edit

namespace NormalAlgorithm

/-- A value that counts as an integer. -/
structure Index where
  value : Value
  number : Int
  counts : value.asInt? = some number

/-- The value of a position that may be absent. -/
def Index.valueOrNull : Option Index → Value
  | some i => i.value
  | none => .null

theorem Position.ofValue_index (i : Index) : Position.ofValue i.value = .index i.number := by
  obtain ⟨value, number, counts⟩ := i
  cases value <;> cases counts <;> rfl

theorem take_append_cons_drop_eq_insertIdx {α : Type} (xs : List α) (n : Nat) (x : α) :
    xs.take n ++ x :: xs.drop n = xs.insertIdx (min n xs.length) x := by
  induction xs generalizing n with
  | nil => simp
  | cons y ys ih =>
      cases n with
      | zero => simp
      | succ n => simp [ih, Nat.succ_min_succ]

namespace Ruleset

/-- The place of a position among the places up to the last: below zero it is the first,
    past the last, or without a position, the last. -/
def place (last : Nat) : Option Int → Nat
  | none => last
  | some p => (min (max p 0) last).toNat

theorem place_ofNat (last n : Nat) : place last (some (.ofNat n)) = min n last := by
  rw [place, Int.ofNat_eq_natCast]
  omega

theorem place_negSucc (last n : Nat) : place last (some (.negSucc n)) = 0 := by
  rw [place]
  omega

theorem hasRules_eq (s : Ruleset) : s.hasRules = decide (0 < s.rules.length) := by
  rw [hasRules]
  cases s.rules with
  | nil => rfl
  | cons rule rest => simp

/-! ## Positions that are integers -/

theorem add_eq (s : Ruleset) (rule : Rule) (position : Option Int) :
    s.add rule position = ⟨s.rules.insertIdx (place s.size position) rule⟩ := by
  match position with
  | none => rw [add, place, size, List.insertIdx_length_self]
  | some (.ofNat n) => rw [add, place_ofNat, size, take_append_cons_drop_eq_insertIdx]
  | some (.negSucc n) => rw [add, place_negSucc, List.insertIdx_zero]

theorem remove_eq (s : Ruleset) (position : Option Int) :
    s.remove position = (s.rules[place (s.size - 1) position]?,
      ⟨s.rules.eraseIdx (place (s.size - 1) position)⟩) := by
  match position with
  | none => rfl
  | some (.ofNat n) =>
      rw [place_ofNat]
      rfl
  | some (.negSucc n) =>
      rw [place_negSucc]
      rfl

theorem get?_eq (s : Ruleset) (p : Int) :
    s.get? p = if 0 ≤ p ∧ p < s.size then s.rules[p.toNat]? else none := by
  cases p with
  | ofNat n =>
      rw [get?, Int.ofNat_eq_natCast, Int.toNat_natCast]
      split
      · rfl
      · rename_i hout
        exact List.getElem?_eq_none (by rw [size] at hout; omega)
  | negSucc n =>
      rw [if_neg (by omega)]
      rfl

theorem set?_eq (s : Ruleset) (rule : Rule) (p : Int) :
    s.set? rule p =
      (s.get? p).map fun previous => (previous, ⟨s.rules.set p.toNat rule⟩) := by
  cases p with
  | ofNat n =>
      rw [set?, get?, Int.ofNat_eq_natCast, Int.toNat_natCast]
      cases s.rules[n]? <;> rfl
  | negSucc n => rfl

/-! ## Positions that are values -/

theorem insertAt_index (s : Ruleset) (operand : Operand) (position : Option Index) :
    s.insertAt operand (Index.valueOrNull position) =
      operand.require.map fun rule => s.add rule (position.map Index.number) := by
  rw [insertAt]
  cases operand.require with
  | error fault => rfl
  | ok rule =>
      cases position with
      | none => rfl
      | some i => simp only [Index.valueOrNull, Position.ofValue_index, Except.map, Option.map]

theorem removeAt_index (s : Ruleset) (position : Option Index) :
    s.removeAt (Index.valueOrNull position) =
      .ok (if s.rules = [] then (none, s) else s.remove (position.map Index.number)) := by
  by_cases hempty : s.rules = []
  · simp [removeAt, hasRules, hempty]
  · have hrules : s.hasRules = true := by simp [hasRules, hempty]
    rw [removeAt, hrules, if_neg hempty]
    cases position with
    | none => rfl
    | some i => simp [Index.valueOrNull, Position.ofValue_index]

theorem ruleAt_index (s : Ruleset) (i : Index) : s.ruleAt i.value = .ok (s.get? i.number) := by
  simp only [ruleAt, Position.ofValue_index]

/-- The rule is looked at before the position. -/
theorem replaceAt_index (s : Ruleset) (operand : Operand) (i : Index) :
    s.replaceAt operand i.value =
      match operand.require, s.get? i.number with
      | .error fault, _ => .error fault
      | .ok rule, some previous => .ok (previous, ⟨s.rules.set i.number.toNat rule⟩)
      | .ok _, none => .error (.noRule i.value s.size) := by
  rw [replaceAt]
  cases operand.require with
  | error fault => rfl
  | ok rule =>
      simp only [Position.ofValue_index, set?_eq]
      cases s.get? i.number <;> rfl

/-! ## Undoing an edit -/

theorem place_le (last : Nat) (position : Option Int) : place last position ≤ last := by
  cases position with
  | none => exact Nat.le_refl last
  | some p =>
      rw [place]
      omega

theorem size_add (s : Ruleset) (rule : Rule) (position : Option Int) :
    (s.add rule position).size = s.size + 1 := by
  rw [add_eq]
  exact List.length_insertIdx_of_le_length (place_le s.size position) rule

/-- What was added at a position is what is removed there. -/
theorem remove_add (s : Ruleset) (rule : Rule) (position : Option Int) :
    (s.add rule position).remove position = (some rule, s) := by
  have hle : place s.size position ≤ s.rules.length := place_le s.size position
  -- the last index of the longer list is the length of the shorter one
  rw [remove_eq, size_add, Nat.add_sub_cancel, add_eq]
  simp only [List.getElem?_insertIdx_self, if_pos hle, List.eraseIdx_insertIdx_self]

/-- What was removed at a position has its place there. -/
theorem exists_add_of_remove {s : Ruleset} (hs : s.rules ≠ []) (position : Option Int) :
    ∃ rule s', s.remove position = (some rule, s') ∧ s'.add rule position = s := by
  have hpos : 0 < s.rules.length := List.length_pos_iff.mpr hs
  have hle := place_le (s.size - 1) position
  have hlt : place (s.size - 1) position < s.rules.length := by
    rw [size] at hle ⊢
    omega
  refine ⟨s.rules.get ⟨_, hlt⟩, ⟨s.rules.eraseIdx (place (s.size - 1) position)⟩, ?_, ?_⟩
  · rw [remove_eq, List.getElem?_eq_getElem hlt]
    rfl
  · have hsize : size ⟨s.rules.eraseIdx (place (s.size - 1) position)⟩ = s.size - 1 :=
      List.length_eraseIdx_of_lt hlt
    rw [add_eq, hsize]
    exact congrArg mk (List.insertIdx_eraseIdx_getElem hlt)

/-- Insertion and removal at the same position undo each other, whatever integer the position
    is, in range or not, and also without a position. A rule that is inserted is the one that
    is removed, and the ruleset is what it was before. If the ruleset has rules, one of them is
    removed, and its insertion brings the ruleset back. -/
theorem insertAt_and_removeAt_undo (s : Ruleset) (position : Option Index) :
    (∀ rule, ∃ s', s.insertAt (.rule rule) (Index.valueOrNull position) = .ok s' ∧
      s'.removeAt (Index.valueOrNull position) = .ok (some rule, s)) ∧
    (s.rules ≠ [] → ∃ rule s',
      s.removeAt (Index.valueOrNull position) = .ok (some rule, s') ∧
      s'.insertAt (.rule rule) (Index.valueOrNull position) = .ok s) := by
  constructor
  · intro rule
    refine ⟨s.add rule (position.map Index.number), insertAt_index s (.rule rule) position, ?_⟩
    have hsize : (s.add rule (position.map Index.number)).rules.length = s.size + 1 :=
      size_add s rule _
    have hrules : (s.add rule (position.map Index.number)).rules ≠ [] :=
      List.ne_nil_of_length_eq_add_one hsize
    rw [removeAt_index, if_neg hrules, remove_add]
  · intro hs
    obtain ⟨rule, s', hremove, hadd⟩ := exists_add_of_remove hs (position.map Index.number)
    refine ⟨rule, s', ?_, ?_⟩
    · rw [removeAt_index, if_neg hs, hremove]
    · rw [← hadd]
      exact insertAt_index s' (.rule rule) position

end Ruleset

end NormalAlgorithm
