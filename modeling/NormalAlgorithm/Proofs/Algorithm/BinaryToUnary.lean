/-
  NormalAlgorithm.Proofs.Algorithm.BinaryToUnary

  Numbers from binary to unary, by three rules:

      |0 -> 0||
      1 -> 0|
      0 -> !

  A word of digits and bars is read from the left: a digit doubles what was read before
  it, and a `1` and a bar add one (`amount`). The first two rules keep the amount
  wherever they are applied. The third does so at the front only, and that is where it is
  applied: with neither `|0` nor `1` in the word, no bar stands before a zero
  (`eq_nil_of_isLeftmost_zero`).

  The first two rules lengthen the word, but what they add is a bar, and there are never
  more bars than the amount (`count_le_amount`). The third takes a digit away. So each
  application brings the number `left` down by one.

    * `advances_bars`: `left w` applications lead from `w` to the bars of its amount.
    * `run_ends_in_bars`: on every binary word a run halts naturally on as many bars as
      the word's value, after that many applications and one for each digit.
-/

import Mathlib.Data.List.Infix
import Mathlib.Data.Nat.Digits.Defs
import NormalAlgorithm.Proofs.Runner.Progress

namespace NormalAlgorithm.BinaryToUnary

open NormalAlgorithm.Runner

/-! ## The rules -/

/-- A bar passes a zero and is doubled. -/
def shift : Rule :=
  ⟨['|', '0'], ['0', '|', '|'], false, List.all_eq_true.mp rfl, List.all_eq_true.mp rfl⟩

/-- A one becomes a zero and a bar. -/
def spell : Rule := ⟨['1'], ['0', '|'], false, List.all_eq_true.mp rfl, List.all_eq_true.mp rfl⟩

/-- A zero is dropped. -/
def erase : Rule := ⟨['0'], [], false, List.all_eq_true.mp rfl, Rule.isPlain_of_mem_nil⟩

def ruleset : Ruleset := ⟨[shift, spell, erase]⟩

theorem ofListing_ruleset :
    Ruleset.ofListing "|0 -> 0||\n1 -> 0|\n0 -> !".toList = .ok ruleset := rfl

theorem mem_ruleset_iff {rule : Rule} :
    rule ∈ ruleset.rules ↔ rule = shift ∨ rule = spell ∨ rule = erase := by
  simp only [ruleset, List.mem_cons, List.not_mem_nil, or_false]

variable {p q u v w : Word}

/-- Where a bar stands before a zero, the first rule applies. -/
theorem isFirst_shift (h : ['|', '0'] <:+: w) : ruleset.IsFirst w shift :=
  ⟨[], [spell, erase], rfl, h, by simp⟩

theorem isFirst_spell (hshift : ¬ ['|', '0'] <:+: w) (h : '1' ∈ w) : ruleset.IsFirst w spell := by
  refine ⟨[shift], [erase], rfl, (List.singleton_infix_iff _ _).mpr h, ?_⟩
  intro q hq
  rwa [List.mem_singleton.mp hq]

theorem isFirst_erase (hshift : ¬ ['|', '0'] <:+: w) (hspell : '1' ∉ w) (h : '0' ∈ w) :
    ruleset.IsFirst w erase := by
  refine ⟨[shift, spell], [], rfl, (List.singleton_infix_iff _ _).mpr h, ?_⟩
  intro q hq
  rcases List.mem_pair.mp hq with rfl | rfl
  · exact hshift
  · rwa [spell, List.singleton_infix_iff]

/-! ## Amounts -/

/-- Words of digits and bars. -/
def IsNumeral (w : Word) : Prop := ∀ c ∈ w, c = '0' ∨ c = '1' ∨ c = '|'

/-- What is read after a character, from what was read before it. -/
def readSign (n : Nat) (c : Char) : Nat :=
  if c = '|' then n + 1 else if c = '1' then 2 * n + 1 else 2 * n

/-- The number a word of digits and bars stands for. -/
def amount (w : Word) : Nat := w.foldl readSign 0

/-- Words that read alike after every number can stand for one another. -/
theorem amount_congr (h : ∀ n, p.foldl readSign n = q.foldl readSign n) (u v : Word) :
    amount (u ++ p ++ v) = amount (u ++ q ++ v) := by
  simp only [amount, List.foldl_append, h]

theorem foldl_readSign_replicate (n k : Nat) :
    (List.replicate k '|').foldl readSign n = n + k := by
  induction k generalizing n with
  | zero => rfl
  | succ k ih =>
      have hread : readSign n '|' = n + 1 := rfl
      rw [List.replicate_succ, List.foldl_cons, hread, ih]
      omega

theorem count_le_foldl_readSign (n : Nat) (w : Word) :
    n + w.count '|' ≤ w.foldl readSign n := by
  induction w generalizing n with
  | nil => exact Nat.le_refl n
  | cons c rest ih =>
      have hrest := ih (readSign n c)
      have hread : n + (if c = '|' then 1 else 0) ≤ readSign n c := by
        rw [readSign]
        by_cases hc : c = '|'
        · rw [if_pos hc, if_pos hc]
        · rw [if_neg hc, if_neg hc]
          split <;> omega
      rw [List.foldl_cons, List.count_cons]
      simp only [beq_iff_eq]
      omega

/-- There are never more bars than the amount. -/
theorem count_le_amount (w : Word) : w.count '|' ≤ amount w := by
  have h := count_le_foldl_readSign 0 w
  rwa [Nat.zero_add] at h

/-- The number of applications until there are bars only. -/
def left (w : Word) : Nat := amount w + w.length - 2 * w.count '|'

theorem left_add_count (w : Word) : left w + 2 * w.count '|' = amount w + w.length := by
  have hamount := count_le_amount w
  have hlength : w.count '|' ≤ w.length := List.count_le_length
  rw [left]
  omega

/-! ## One application -/

/-- What an application does: the word stays a numeral of the same amount, and there is
    one application less to come. -/
structure Goes (w w' : Word) : Prop where
  numeral : IsNumeral w'
  amount_eq : amount w' = amount w
  left_eq : left w = left w' + 1

/-- A replacement that reads like its pattern and has a bar more, and no other character. -/
theorem goes_of_bar (hw : IsNumeral (u ++ p ++ v)) (hq : IsNumeral q)
    (hread : ∀ n, p.foldl readSign n = q.foldl readSign n)
    (hlength : q.length = p.length + 1) (hcount : q.count '|' = p.count '|' + 1) :
    Goes (u ++ p ++ v) (u ++ q ++ v) := by
  have hamount := amount_congr hread u v
  refine ⟨?_, hamount.symm, ?_⟩
  · intro c hc
    simp only [List.mem_append] at hc
    rcases hc with (hc | hc) | hc
    · exact hw c (by simp [hc])
    · exact hq c hc
    · exact hw c (by simp [hc])
  · have hold := left_add_count (u ++ p ++ v)
    have hnew := left_add_count (u ++ q ++ v)
    simp only [List.length_append, List.count_append] at hold hnew
    omega

theorem goes_shift (hw : IsNumeral (u ++ shift.pattern ++ v)) :
    Goes (u ++ shift.pattern ++ v) (u ++ shift.replacement ++ v) := by
  refine goes_of_bar hw (by simp [IsNumeral, shift]) ?_ rfl rfl
  -- a bar before a zero counts twice
  intro n
  have hbefore : shift.pattern.foldl readSign n = 2 * (n + 1) := rfl
  have hafter : shift.replacement.foldl readSign n = 2 * n + 1 + 1 := rfl
  omega

theorem goes_spell (hw : IsNumeral (u ++ spell.pattern ++ v)) :
    Goes (u ++ spell.pattern ++ v) (u ++ spell.replacement ++ v) :=
  goes_of_bar hw (by simp [IsNumeral, spell]) (fun _ => rfl) rfl rfl

/-- A zero at the front doubles nothing. -/
theorem goes_erase (hw : IsNumeral ('0' :: v)) : Goes ('0' :: v) v := by
  have hamount : amount ('0' :: v) = amount v := rfl
  refine ⟨fun c hc => hw c (List.mem_cons_of_mem _ hc), hamount.symm, ?_⟩
  have hold := left_add_count ('0' :: v)
  have hnew := left_add_count v
  have hcount : ('0' :: v).count '|' = v.count '|' := List.count_cons_of_ne (by decide)
  rw [hcount, List.length_cons] at hold
  omega

/-- With neither `|0` nor `1` in a numeral, its first zero stands at the front. -/
theorem eq_nil_of_isLeftmost_zero (hw : IsNumeral w) (hshift : ¬ ['|', '0'] <:+: w)
    (hspell : '1' ∉ w) (h : IsLeftmost ['0'] w u v) : u = [] := by
  rcases List.eq_nil_or_concat u with hnil | ⟨before, c, rfl⟩
  · exact hnil
  -- otherwise look at the character before that zero
  · have hsplit : w = before ++ c :: '0' :: v := by
      rw [h.split]
      simp
    rcases hw c (by simp [hsplit]) with rfl | rfl | rfl
    · have hearlier := h.first before ('0' :: v) (by simp [hsplit])
      rw [List.concat_eq_append, List.length_append, List.length_singleton] at hearlier
      omega
    · exact absurd (by simp [hsplit]) hspell
    · exact absurd ⟨before, v, by simp [hsplit]⟩ hshift

/-- A numeral without digits is the bars of its amount. -/
theorem eq_replicate_amount (hw : IsNumeral w) (hzero : '0' ∉ w) (hone : '1' ∉ w) :
    w = List.replicate (amount w) '|' := by
  have hbars : w = List.replicate w.length '|' := by
    refine List.eq_replicate_of_mem fun c hc => ?_
    rcases hw c hc with rfl | rfl | rfl
    · exact absurd hc hzero
    · exact absurd hc hone
    · rfl
  have hamount : amount w = w.length := by
    rw [hbars, amount, foldl_readSign_replicate, List.length_replicate, Nat.zero_add]
  rw [hamount]
  exact hbars

/-- The first rule that applies makes a move; what it does is seen at the leftmost
    occurrence. -/
theorem exists_move {rule : Rule} (hfirst : ruleset.IsFirst w rule)
    (hgoes : ∀ u v, IsLeftmost rule.pattern w u v → Goes w (u ++ rule.replacement ++ v)) :
    ∃ w', ruleset.Moves w w' ∧ Goes w w' := by
  obtain ⟨u, v, hleft, _⟩ := exists_leftmost_replaceFirst (q := rule.replacement) hfirst.occurs
  have hgoing : rule.terminating = false ∧ rule.pattern ≠ rule.replacement := by
    rcases mem_ruleset_iff.mp hfirst.mem with rfl | rfl | rfl <;> exact ⟨rfl, by decide⟩
  exact ⟨_, .intro hfirst hgoing.1 hgoing.2 ⟨u, v, hleft, rfl⟩, hgoes u v hleft⟩

/-- A numeral is bars only, or a rule applies to it and brings it nearer to them. -/
theorem bars_or_exists_move (hw : IsNumeral w) :
    w = List.replicate (amount w) '|' ∨ ∃ w', ruleset.Moves w w' ∧ Goes w w' := by
  by_cases hshift : ['|', '0'] <:+: w
  · refine Or.inr (exists_move (isFirst_shift hshift) fun u v hleft => ?_)
    rw [hleft.split] at hw ⊢
    exact goes_shift hw
  by_cases hspell : '1' ∈ w
  · refine Or.inr (exists_move (isFirst_spell hshift hspell) fun u v hleft => ?_)
    rw [hleft.split] at hw ⊢
    exact goes_spell hw
  by_cases herase : '0' ∈ w
  · refine Or.inr (exists_move (isFirst_erase hshift hspell herase) fun u v hleft => ?_)
    have hfront : u = [] := eq_nil_of_isLeftmost_zero hw hshift hspell hleft
    subst hfront
    have hsplit : w = '0' :: v := hleft.split
    rw [hsplit] at hw ⊢
    exact goes_erase hw
  · exact Or.inl (eq_replicate_amount hw herase hspell)

/-! ## Whole runs -/

/-- By induction on the applications left: they lead to the bars of the amount. -/
theorem advances_bars (hw : IsNumeral w) :
    ruleset.Advances (left w) w (List.replicate (amount w) '|') := by
  induction hn : left w generalizing w with
  | zero =>
      rcases bars_or_exists_move hw with hbars | ⟨w', _, hgoes⟩
      · rw [← hbars]
        exact .refl w
      · have hleft := hgoes.left_eq
        omega
  | succ n ih =>
      rcases bars_or_exists_move hw with hbars | ⟨w', hmove, hgoes⟩
      · -- bars alone leave nothing to do
        have hleft := left_add_count w
        rw [hbars, List.count_replicate_self, List.length_replicate, ← hbars] at hleft
        omega
      · have hleft := hgoes.left_eq
        have hrest := ih hgoes.numeral (by omega)
        rw [hgoes.amount_eq] at hrest
        exact .head hmove hrest

theorem not_infix_bars (k : Nat) : ∀ q ∈ ruleset.rules, ¬ q.pattern <:+: List.replicate k '|' := by
  have hbar : ∀ c, c ∈ List.replicate k '|' → c = '|' := fun c hc => List.eq_of_mem_replicate hc
  intro q hq hinf
  have hdigit : ∃ c ∈ q.pattern, c ≠ '|' := by
    rcases mem_ruleset_iff.mp hq with rfl | rfl | rfl
    · exact ⟨'0', by decide, by decide⟩
    · exact ⟨'1', by decide, by decide⟩
    · exact ⟨'0', by decide, by decide⟩
  obtain ⟨c, hc, hne⟩ := hdigit
  exact hne (hbar c (hinf.subset hc))

/-- The value of a word of binary digits, the last of which is the units. -/
def value (b : Word) : Nat := Nat.ofDigits 2 (b.reverse.map fun c => if c = '1' then 1 else 0)

theorem value_concat (b : Word) (c : Char) :
    value (b ++ [c]) = (if c = '1' then 1 else 0) + 2 * value b := by
  rw [value, List.reverse_append, List.reverse_singleton, List.singleton_append, List.map_cons,
    Nat.ofDigits_cons, value]

/-- Digits alone stand for their binary value. -/
theorem amount_eq_value {b : Word} (hb : ∀ c ∈ b, c = '0' ∨ c = '1') : amount b = value b := by
  induction b using List.reverseRecOn with
  | nil => rfl
  | append_singleton b c ih =>
      have hrest := ih fun d hd => hb d (List.mem_append_left _ hd)
      have hread : amount (b ++ [c]) = readSign (amount b) c := by
        rw [amount, List.foldl_append]
        rfl
      rw [hread, value_concat, hrest]
      rcases hb c (by simp) with rfl | rfl
      · have hzero : readSign (value b) '0' = 2 * value b := rfl
        simp [hzero]
      · have hone : readSign (value b) '1' = 2 * value b + 1 := rfl
        rw [hone, if_pos rfl, Nat.add_comm]

/-- The rules turn every binary word into the bars of its value, leading zeros and the empty
    word included: a run returns, halted naturally, after as many applications as the value
    and the digits together, and is never stalled. -/
theorem run_ends_in_bars (b : Word) (hb : ∀ c ∈ b, c = '0' ∨ c = '1') :
    Ruleset.ofListing "|0 -> 0||\n1 -> 0|\n0 -> !".toList = .ok ruleset ∧
    ∃ r, Yields ruleset (start b) .run r ∧ r.termination = some .natural ∧
      r.context = List.replicate (value b) '|' ∧ r.stepCount = value b + b.length ∧
      ∀ m, ((step ruleset)^[m] (start b)).stalled = false := by
  have hnumeral : IsNumeral b := fun c hc => (hb c hc).imp_right Or.inl
  have hvalue := amount_eq_value hb
  have hnobar : b.count '|' = 0 := by
    refine List.count_eq_zero.mpr fun hbar => ?_
    rcases hb '|' hbar with h | h <;> cases h
  have hleft : left b = value b + b.length := by
    rw [left, hnobar, hvalue]
    omega
  have hway := advances_bars hnumeral
  rw [hvalue, hleft] at hway
  exact ⟨ofListing_ruleset, hway.halts_naturally (not_infix_bars _)⟩

/-- `0101` becomes five bars in nine applications. -/
theorem run_ends_in_bars_five :
    ∃ r, Yields ruleset (start ['0', '1', '0', '1']) .run r ∧ r.termination = some .natural ∧
      r.context = ['|', '|', '|', '|', '|'] ∧ r.stepCount = 9 := by
  obtain ⟨_, r, hrun, hnatural, hcontext, hcount, _⟩ :=
    run_ends_in_bars ['0', '1', '0', '1'] (by simp)
  exact ⟨r, hrun, hnatural, hcontext, hcount⟩

end NormalAlgorithm.BinaryToUnary
