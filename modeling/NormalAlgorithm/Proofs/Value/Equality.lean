/-
  NormalAlgorithm.Proofs.Value.Equality

  Equality of keys.

  `Value.keyEq` compares kind by kind. It is the same as to compare what the keys stand
  for (`Value.identity?`): numbers of all kinds by their amount, moments by their
  instant, all else by itself. So equality of keys is symmetric and transitive, though
  not reflexive: collections equal nothing.

    * `keyEq_iff`: keys are equal if they stand for the same.
    * `map_lookup_congr`: what is seen of a value depends on what is seen of the map.
    * `length_le_of_distinct_found`: a map has at least as many entries as there are
      different keys found in it.
-/

import Mathlib.Algebra.Field.Rat
import Mathlib.Data.List.Perm.Subperm
import Mathlib.Data.Rat.Cast.Order
import NormalAlgorithm.Value.Equality

namespace NormalAlgorithm

open NormalAlgorithm.Number

/-! ## Amounts -/

/-- What a number amounts to. -/
inductive Amount where
  | infinite (negative : Bool)
  | rational (value : ℚ)
  deriving DecidableEq

namespace Number.Binary64

/-- The rational number that a finite double stands for. -/
def toRat (negative : Bool) (m : Nat) (e : Int) : ℚ :=
  (toFraction negative m e).1 / (toFraction negative m e).2

/-- What a double amounts to, if it is a number at all. -/
def amount? : Binary64 → Option Amount
  | .nan => none
  | .infinite negative => some (.infinite negative)
  | .finite negative m e => some (.rational (toRat negative m e))

theorem denominator_ne_zero (negative : Bool) (m : Nat) (e : Int) :
    ((toFraction negative m e).2 : ℚ) ≠ 0 := by
  rw [Nat.cast_ne_zero, toFraction]
  cases e with
  | ofNat k => exact Nat.one_ne_zero
  | negSucc k => exact Nat.ne_of_gt (Nat.mul_pos Nat.one_pos (Nat.pow_pos Nat.two_pos))

/-- A double equals an integer if it amounts to it. -/
theorem beqInt_iff {x : Binary64} {n : Int} :
    x.beqInt n = true ↔ x.amount? = some (.rational n) := by
  cases x with
  | nan => simp [beqInt, amount?]
  | infinite negative => simp [beqInt, amount?]
  | finite negative m e =>
      simp only [beqInt, amount?, decide_eq_true_eq, Option.some.injEq, Amount.rational.injEq,
        toRat, div_eq_iff (denominator_ne_zero negative m e)]
      norm_cast

/-- Doubles are equal if they amount to the same. -/
theorem beq_iff {x y : Binary64} :
    x.beq y = true ↔ x.amount? ≠ none ∧ x.amount? = y.amount? := by
  cases x with
  | nan => simp [beq, amount?]
  | infinite a => cases y <;> simp [beq, amount?]
  | finite a m e =>
      cases y with
      | nan => simp [beq, amount?]
      | infinite b => simp [beq, amount?]
      | finite b n f =>
          simp only [beq, amount?, decide_eq_true_eq, ne_eq, reduceCtorEq, not_false_eq_true,
            true_and, Option.some.injEq, Amount.rational.injEq, toRat,
            div_eq_div_iff (denominator_ne_zero a m e) (denominator_ne_zero b n f)]
          norm_cast

end Number.Binary64

/-! ## Moments -/

/-- What a moment is equal by: the time of day in a place unknown, or the instant. -/
def Moment.time (m : Moment) : Nat ⊕ Int :=
  match m.offset with
  | none => .inl m.clock
  | some minutes => .inr (Int.ofNat m.clock - minutes * (60 * 1000000))

theorem Moment.same_iff {m n : Moment} : m.same n = true ↔ m.time = n.time := by
  rw [same, time, time]
  cases m.offset <;> cases n.offset <;> simp

/-! ## Keys -/

/-- What a key stands for. -/
inductive Identity where
  | null
  | number (amount : Amount)
  | nan (identity : Nat)
  | text (value : List Char)
  | bytes (value : List UInt8)
  | date (value : Date)
  | moment (time : Nat ⊕ Int)
  deriving DecidableEq

namespace Value

/-- What a value stands for as a key; collections stand for nothing. -/
def identity? : Value → Option Identity
  | .null => some .null
  | .float x => x.amount?.map .number
  | .nan i => some (.nan i)
  | .text s => some (.text s)
  | .bytes bs => some (.bytes bs)
  | .date d => some (.date d)
  | .moment m => some (.moment m.time)
  | v => v.asInt?.map fun n => .number (.rational n)

theorem map_number_eq_iff {x y : Option Amount} :
    x.map Identity.number = y.map Identity.number ↔ x = y :=
  (Option.map_injective fun _ _ h => Identity.number.inj h).eq_iff

/-- Keys are equal if they stand for something, and for the same. -/
theorem keyEq_iff {v w : Value} :
    v.keyEq w = true ↔ v.identity? ≠ none ∧ v.identity? = w.identity? := by
  -- kind by kind: only numbers of two kinds can be equal
  cases v <;> cases w <;>
    simp +contextual [keyEq, identity?, asInt?, Binary64.beqInt_iff, Binary64.beq_iff,
      Moment.same_iff, map_number_eq_iff, -Int.cast_ite]

/-! ## Maps -/

theorem exists_entry_of_lookup {key value : Value} {entries : List (Value × Value)}
    (h : lookup key entries = some value) : ∃ e ∈ entries, e.1.keyEq key = true ∧ e.2 = value := by
  induction entries with
  | nil => cases h
  | cons e entries ih =>
      rw [lookup] at h
      split at h
      · rename_i heq
        exact ⟨e, List.mem_cons_self, heq, Option.some.inj h⟩
      · obtain ⟨e', he', hfound⟩ := ih h
        exact ⟨e', List.mem_cons_of_mem e he', hfound⟩

/-- Maps that agree on their keys and on what is seen of their values agree on what is
    seen of the value under a key. -/
theorem map_lookup_congr {β : Type} {see : Value → β} {entries other : List (Value × Value)}
    (h : other.map (fun e => (e.1, see e.2)) = entries.map fun e => (e.1, see e.2))
    (key : Value) : (lookup key other).map see = (lookup key entries).map see := by
  induction entries generalizing other with
  | nil => rw [List.map_eq_nil_iff.mp h]
  | cons e entries ih =>
      obtain ⟨e', other, rfl, he, hrest⟩ := List.map_eq_cons_iff.mp h
      obtain ⟨hkey, hvalue⟩ := Prod.mk.inj he
      rw [lookup, lookup, hkey]
      split
      · rw [Option.map_some, Option.map_some, hvalue]
      · exact ih hrest

/-- A map has at least as many entries as there are different keys found in it. -/
theorem length_le_of_distinct_found {keys : List Value} {entries : List (Value × Value)}
    (hdistinct : keys.Pairwise fun u v => u.keyEq v = false)
    (hfound : ∀ key ∈ keys, lookup key entries ≠ none) : keys.length ≤ entries.length := by
  have hentry : ∀ key ∈ keys, key.identity? ≠ none ∧
      key.identity? ∈ entries.map fun e => e.1.identity? := by
    intro key hkey
    obtain ⟨value, hvalue⟩ := Option.ne_none_iff_exists'.mp (hfound key hkey)
    obtain ⟨e, he, heq, _⟩ := exists_entry_of_lookup hvalue
    obtain ⟨hsome, hsame⟩ := keyEq_iff.mp heq
    exact ⟨hsame ▸ hsome, List.mem_map.mpr ⟨e, he, hsame⟩⟩
  have hnodup : (keys.map identity?).Nodup := by
    rw [List.Nodup, List.pairwise_map]
    refine hdistinct.imp_of_mem ?_
    intro u v hu _ hne hsame
    rw [keyEq_iff.mpr ⟨(hentry u hu).1, hsame⟩] at hne
    cases hne
  have hsubset : keys.map identity? ⊆ entries.map fun e => e.1.identity? := by
    intro k hk
    obtain ⟨key, hkey, rfl⟩ := List.mem_map.mp hk
    exact (hentry key hkey).2
  have hle := (List.subperm_of_subset hnodup hsubset).length_le
  rwa [List.length_map, List.length_map] at hle

end Value

end NormalAlgorithm
