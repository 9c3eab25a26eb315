/-
  NormalAlgorithm.Proofs.Algorithm.Doubling

  Doubling the letters `a` at the front of a word, by three rules:

      *a -> aa*
      * ->. !
      ! -> *

  The last rule applies to every word, but only a word without a star gets that far. It
  puts a star at the front. The star then passes the letters `a` one by one and leaves two
  for each (`advances_star`), and where no `a` follows, the second rule drops it and ends
  the run.

    * `run_doubles_front`: on every word without a star a run halts explicitly with its
      first letters `a` doubled, after two applications more than there are of these.
-/

import Mathlib.Data.List.Basic
import NormalAlgorithm.Proofs.Runner.Progress

namespace NormalAlgorithm.Doubling

open NormalAlgorithm.Runner

/-! ## The rules -/

/-- The star passes a letter, which is doubled. -/
def pass : Rule :=
  ⟨['*', 'a'], ['a', 'a', '*'], false, List.all_eq_true.mp rfl, List.all_eq_true.mp rfl⟩

/-- The star is dropped, and that is the end. -/
def drop : Rule := ⟨['*'], [], true, List.all_eq_true.mp rfl, Rule.isPlain_of_mem_nil⟩

/-- A star is put at the front. -/
def put : Rule := ⟨[], ['*'], false, Rule.isPlain_of_mem_nil, List.all_eq_true.mp rfl⟩

def ruleset : Ruleset := ⟨[pass, drop, put]⟩

theorem ofListing_ruleset :
    Ruleset.ofListing "*a -> aa*\n* ->. !\n! -> *".toList = .ok ruleset := rfl

variable {t u w : Word}

/-! ## Words with a star -/

/-- Where the only star is not followed by an `a`, the first rule does not apply. -/
theorem not_infix_pass (hu : '*' ∉ u) (ht : '*' ∉ t) (hhead : t.head? ≠ some 'a') :
    ¬ pass.pattern <:+: u ++ '*' :: t := by
  rintro ⟨u', v', hsplit⟩
  have hstar : u ++ '*' :: t = u' ++ '*' :: ('a' :: v') := by
    rw [← hsplit]
    simp [pass]
  obtain ⟨_, _, rfl⟩ := (List.append_cons_inj_of_notMem hu ht).mp hstar
  exact hhead rfl

theorem isFirst_pass (u v : Word) : ruleset.IsFirst (u ++ '*' :: 'a' :: v) pass :=
  ⟨[], [drop, put], rfl, ⟨u, v, by simp [pass]⟩, by simp⟩

theorem isFirst_drop (hu : '*' ∉ u) (ht : '*' ∉ t) (hhead : t.head? ≠ some 'a') :
    ruleset.IsFirst (u ++ '*' :: t) drop := by
  refine ⟨[pass], [put], rfl, ⟨u, t, by simp [drop]⟩, ?_⟩
  intro q hq
  rw [List.mem_singleton.mp hq]
  exact not_infix_pass hu ht hhead

theorem isFirst_put (hw : '*' ∉ w) : ruleset.IsFirst w put := by
  refine ⟨[pass, drop], [], rfl, List.nil_infix, ?_⟩
  intro q hq hinf
  have hstar : '*' ∈ q.pattern := by
    rcases List.mem_pair.mp hq with rfl | rfl <;> decide
  exact hw (hinf.subset hstar)

/-! ## Whole runs -/

/-- By induction on the letters that follow it: the star passes them, whatever stands before
    it, and leaves two for each. -/
theorem advances_star (hu : '*' ∉ u) (t : Word) (k : Nat) :
    ruleset.Advances k (u ++ '*' :: (List.replicate k 'a' ++ t))
      (u ++ List.replicate (2 * k) 'a' ++ '*' :: t) := by
  induction k generalizing u with
  | zero =>
      rw [Nat.mul_zero, List.replicate_zero, List.nil_append, List.append_nil]
      exact .refl _
  | succ k ih =>
      have hrest := ih (u := u ++ ['a', 'a']) (by simp [hu])
      have hdoubled : u ++ List.replicate (2 * (k + 1)) 'a' ++ '*' :: t =
          u ++ ['a', 'a'] ++ List.replicate (2 * k) 'a' ++ '*' :: t := by
        rw [Nat.mul_add, Nat.add_comm, ← List.replicate_append_replicate]
        simp [List.replicate]
      rw [List.replicate_succ, List.cons_append, hdoubled]
      refine .head (.intro (isFirst_pass u _) rfl (by decide) ?_) hrest
      exact ⟨u, List.replicate k 'a' ++ t, isLeftmost_of_notMem hu ['a'] _, by simp [pass]⟩

/-- The rules double the letters `a` at the front of a word without a star: from
    `a … a` (`k` times) before `t`, which is empty or starts with another character, a run
    returns, ended by the terminating rule, with `2 * k` letters before `t` and after `k + 2`
    applications, and is never stalled. -/
theorem run_doubles_front (w t : Word) (k : Nat) (hw : w = List.replicate k 'a' ++ t)
    (hstar : '*' ∉ w) (hhead : t.head? ≠ some 'a') :
    Ruleset.ofListing "*a -> aa*\n* ->. !\n! -> *".toList = .ok ruleset ∧
    ∃ r, Yields ruleset (start w) .run r ∧ r.termination = some .explicit ∧
      r.context = List.replicate (2 * k) 'a' ++ t ∧ r.stepCount = k + 2 ∧
      ∀ m, ((step ruleset)^[m] (start w)).stalled = false := by
  have ht : '*' ∉ t := fun h => hstar (by simp [hw, h])
  have hletters : '*' ∉ List.replicate (2 * k) 'a' := by simp
  have hput : put.Rewrites w ('*' :: w) :=
    ⟨[], w, isLeftmost_of_isPrefix List.nil_prefix, rfl⟩
  have hpass : ruleset.Advances k ('*' :: w) (List.replicate (2 * k) 'a' ++ '*' :: t) := by
    rw [hw]
    exact advances_star (u := []) (by simp) t k
  have hway : ruleset.Advances (k + 1) w (List.replicate (2 * k) 'a' ++ '*' :: t) :=
    .head (.intro (isFirst_put hstar) rfl (by decide) hput) hpass
  have hdrop : drop.Rewrites (List.replicate (2 * k) 'a' ++ '*' :: t)
      (List.replicate (2 * k) 'a' ++ t) :=
    ⟨List.replicate (2 * k) 'a', t, isLeftmost_of_notMem hletters [] t, by simp [drop]⟩
  exact ⟨ofListing_ruleset,
    hway.halts_explicitly (isFirst_drop hletters ht hhead) rfl hdrop⟩

/-- From `aaba` the first two letters are doubled, in four applications. -/
theorem run_doubles_front_two :
    ∃ r, Yields ruleset (start ['a', 'a', 'b', 'a']) .run r ∧ r.termination = some .explicit ∧
      r.context = ['a', 'a', 'a', 'a', 'b', 'a'] ∧ r.stepCount = 4 := by
  obtain ⟨_, r, hrun, hexplicit, hcontext, hcount, _⟩ :=
    run_doubles_front ['a', 'a', 'b', 'a'] ['b', 'a'] 2 rfl (by simp) (by simp)
  exact ⟨r, hrun, hexplicit, hcontext, hcount⟩

end NormalAlgorithm.Doubling
