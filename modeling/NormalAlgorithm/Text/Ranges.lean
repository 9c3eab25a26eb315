/-
  NormalAlgorithm.Text.Ranges

  Character properties given as ascending lists of closed code point ranges.

    * `Ranges.mem`: a search that ends at the first range above the code point.
    * `Ranges.mem_eq_any`: since the ranges ascend, it misses none.
-/

namespace NormalAlgorithm.Text

/-- Whether closed ranges lie in ascending order from a code point on, apart from each
    other. -/
def ascendsFrom : Nat → List (Nat × Nat) → Bool
  | _, [] => true
  | start, (lo, hi) :: rest => decide (start ≤ lo) && decide (lo ≤ hi) && ascendsFrom (hi + 1) rest

/-- Ascending, disjoint, closed ranges of code points. -/
structure Ranges where
  entries : List (Nat × Nat)
  ascending : ascendsFrom 0 entries = true := by decide +kernel

/-- Membership in ascending ranges: the search ends at the first range that starts above
    the code point. -/
def memAscending : List (Nat × Nat) → Nat → Bool
  | [], _ => false
  | (lo, hi) :: rest, n => if n < lo then false else decide (n ≤ hi) || memAscending rest n

/-- Whether a code point lies in one of the ranges. -/
def Ranges.mem (table : Ranges) (n : Nat) : Bool := memAscending table.entries n

/-- Below the start of ascending ranges there is none of them. -/
theorem any_eq_false_of_lt {start n : Nat} {entries : List (Nat × Nat)}
    (h : ascendsFrom start entries = true) (hn : n < start) :
    entries.any (fun r => decide (r.1 ≤ n) && decide (n ≤ r.2)) = false := by
  induction entries generalizing start with
  | nil => rfl
  | cons r rest ih =>
      simp only [ascendsFrom, Bool.and_eq_true, decide_eq_true_eq] at h
      obtain ⟨⟨hlo, hhi⟩, hrest⟩ := h
      have hbelow : decide (r.1 ≤ n) = false := decide_eq_false (by omega)
      rw [List.any_cons, hbelow, Bool.false_and, Bool.false_or]
      exact ih hrest (by omega)

theorem memAscending_eq_any {start : Nat} {entries : List (Nat × Nat)}
    (h : ascendsFrom start entries = true) (n : Nat) :
    memAscending entries n = entries.any (fun r => decide (r.1 ≤ n) && decide (n ≤ r.2)) := by
  induction entries generalizing start with
  | nil => rfl
  | cons r rest ih =>
      simp only [ascendsFrom, Bool.and_eq_true, decide_eq_true_eq] at h
      obtain ⟨⟨_, hhi⟩, hrest⟩ := h
      rw [memAscending, List.any_cons]
      by_cases hlt : n < r.1
      · -- the search ends here, and the ranges that follow lie higher still
        rw [if_pos hlt, any_eq_false_of_lt hrest (by omega), decide_eq_false (by omega : ¬ r.1 ≤ n)]
        rfl
      · rw [if_neg hlt, ih hrest, decide_eq_true (by omega : r.1 ≤ n), Bool.true_and]

/-- A code point is found exactly if it lies in one of the ranges. -/
theorem Ranges.mem_eq_any (table : Ranges) (n : Nat) :
    table.mem n = table.entries.any (fun r => decide (r.1 ≤ n) && decide (n ≤ r.2)) :=
  memAscending_eq_any table.ascending n

end NormalAlgorithm.Text
