/-
  NormalAlgorithm.Proofs.Rule.Basic

  Rules: which words make one, and where it is applied.

    * `Rule.ofWords_eq_ok`: words of plain characters make a rule.
    * `occurs_iff_infix`: the search finds an occurrence exactly when there is one.
    * `exists_leftmost_replaceFirst`: the replacement takes the leftmost occurrence.
    * `replaceFirst_eq_self_iff`: when it changes nothing.
    * `Rule.apply_replaces_leftmost`: what a rule does to a word, with and without an
      occurrence of its pattern.

  A word has one leftmost occurrence of a pattern at most (`IsLeftmost.unique`), so to
  apply a rule it is enough to know one (`IsLeftmost.replaceFirst_eq`).
-/

import NormalAlgorithm.Rule.Basic

namespace NormalAlgorithm

open NormalAlgorithm.Text

namespace Rule

/-! ## Building rules -/

theorem charFault?_of_isPlain {side : Side} {w : Word} {c : Char} (hc : isPlain c = true) :
    charFault? side w c = none := by
  simp only [isPlain, Bool.and_eq_true, Bool.not_eq_true', bne_iff_ne] at hc
  obtain ⟨⟨hblank, hempty⟩, hclosing⟩ := hc
  simp [charFault?, hblank, hempty, hclosing]

/-- A side has no fault exactly when all its characters are plain. -/
theorem sideFault?_eq_none_iff {side : Side} {w : Word} :
    sideFault? side w = none ↔ ∀ c ∈ w, isPlain c = true := by
  refine ⟨isPlain_of_sideFault?_eq_none, ?_⟩
  intro h
  have hne : w ≠ [emptyMark, emptyMark] := by
    rintro rfl
    exact absurd (h emptyMark List.mem_cons_self) (by decide)
  rw [sideFault?, if_neg hne, List.findSome?_eq_none_iff]
  intro c hc
  exact charFault?_of_isPlain (h c hc)

/-- The empty word can be a side. -/
theorem isPlain_of_mem_nil : ∀ c ∈ ([] : Word), isPlain c = true := List.forall_mem_nil _

/-- A rule is its two sides and its flag. -/
theorem eq_of_parts {r s : Rule} (hp : r.pattern = s.pattern)
    (hr : r.replacement = s.replacement) (ht : r.terminating = s.terminating) : r = s := by
  cases r
  cases s
  simp only [mk.injEq]
  exact ⟨hp, hr, ht⟩

/-- Words of plain characters make a rule. -/
theorem ofWords_eq_ok {p q : Word} (hp : ∀ c ∈ p, isPlain c = true)
    (hq : ∀ c ∈ q, isPlain c = true) (terminating : Bool) :
    ofWords p q terminating = .ok ⟨p, q, terminating, hp, hq⟩ := by
  unfold ofWords
  split
  · rename_i fault hfault
    rw [sideFault?_eq_none_iff.mpr hp] at hfault
    cases hfault
  · split
    · rename_i fault hfault
      rw [sideFault?_eq_none_iff.mpr hq] at hfault
      cases hfault
    · rfl

end Rule

/-! ## Occurrences -/

/-- The search for a pattern finds an occurrence exactly when there is one. -/
theorem occurs_iff_infix {p w : Word} : occurs p w = true ↔ p <:+: w := by
  induction w with
  | nil => simp [occurs]
  | cons c rest ih =>
      rw [occurs, Bool.or_eq_true, List.isPrefixOf_iff_prefix, ih, List.infix_cons_iff]

/-- The word is `u ++ p ++ v`, and no occurrence of `p` in it starts further left. -/
structure IsLeftmost (p w u v : Word) : Prop where
  split : w = u ++ p ++ v
  first : ∀ u' v', w = u' ++ p ++ v' → u.length ≤ u'.length

/-- A word that starts with the pattern has its leftmost occurrence there. -/
theorem isLeftmost_of_isPrefix {p w : Word} (h : p <+: w) :
    IsLeftmost p w [] (w.drop p.length) := by
  obtain ⟨v, rfl⟩ := h
  refine ⟨?_, fun _ _ _ => Nat.zero_le _⟩
  rw [List.nil_append, List.drop_left]

/-- A pattern that starts with a character has its leftmost occurrence where that character
    stands first. -/
theorem isLeftmost_of_notMem {c : Char} {u : Word} (hu : c ∉ u) (p v : Word) :
    IsLeftmost (c :: p) (u ++ c :: (p ++ v)) u v := by
  refine ⟨by simp, fun u' v' hsplit => Nat.le_of_not_lt fun hshort => ?_⟩
  -- an occurrence further left would start inside `u`
  have hearlier : u' ++ [c] <+: u ++ c :: (p ++ v) := ⟨p ++ v', by simp [hsplit]⟩
  have hbegin : u' ++ [c] <+: u := by
    refine List.prefix_of_prefix_length_le hearlier (List.prefix_append _ _) ?_
    rw [List.length_append, List.length_singleton]
    omega
  exact hu (hbegin.subset (List.mem_append_right _ List.mem_cons_self))

/-- Away from the front, the leftmost occurrence is that in the rest of the word. -/
theorem IsLeftmost.cons {p w u v : Word} {c : Char} (h : IsLeftmost p w u v)
    (hc : ¬ p <+: c :: w) : IsLeftmost p (c :: w) (c :: u) v := by
  refine ⟨by rw [h.split]; rfl, ?_⟩
  intro u' v' hsplit
  cases u' with
  | nil =>
      -- an occurrence at the very front is what `hc` excludes
      exact absurd ⟨v', hsplit.symm⟩ hc
  | cons d u'' =>
      simp only [List.cons_append, List.cons.injEq] at hsplit
      exact Nat.succ_le_succ (h.first u'' v' hsplit.2)

/-- A pattern that occurs has a leftmost occurrence, and that is the one replaced. -/
theorem exists_leftmost_replaceFirst {p q w : Word} (h : p <:+: w) :
    ∃ u v, IsLeftmost p w u v ∧ replaceFirst p q w = u ++ q ++ v := by
  induction w with
  | nil =>
      have hp : p = [] := List.infix_nil.mp h
      subst hp
      exact ⟨[], [], isLeftmost_of_isPrefix (List.prefix_refl []), by simp [replaceFirst]⟩
  | cons c rest ih =>
      rw [replaceFirst]
      by_cases hpre : p <+: c :: rest
      · refine ⟨[], (c :: rest).drop p.length, isLeftmost_of_isPrefix hpre, ?_⟩
        rw [if_pos (List.isPrefixOf_iff_prefix.mpr hpre), List.nil_append]
      · have hrest : p <:+: rest := (List.infix_cons_iff.mp h).resolve_left hpre
        obtain ⟨u, v, hleft, heq⟩ := ih hrest
        refine ⟨c :: u, v, hleft.cons hpre, ?_⟩
        rw [if_neg (fun hb => hpre (List.isPrefixOf_iff_prefix.mp hb)), heq]
        rfl

/-- Two leftmost occurrences start at the same place. -/
theorem IsLeftmost.unique {p w u v u' v' : Word} (h : IsLeftmost p w u v)
    (h' : IsLeftmost p w u' v') : u = u' ∧ v = v' := by
  have hlength : u.length = u'.length :=
    Nat.le_antisymm (h.first u' v' h'.split) (h'.first u v h.split)
  have hsplit : u ++ (p ++ v) = u' ++ (p ++ v') := by
    rw [← List.append_assoc, ← List.append_assoc, ← h.split, ← h'.split]
  obtain ⟨hu, hrest⟩ := List.append_inj hsplit hlength
  exact ⟨hu, List.append_cancel_left hrest⟩

/-- The leftmost occurrence, wherever it was found, is the one replaced. -/
theorem IsLeftmost.replaceFirst_eq {p w u v : Word} (h : IsLeftmost p w u v) (q : Word) :
    replaceFirst p q w = u ++ q ++ v := by
  obtain ⟨u', v', hleft, heq⟩ := exists_leftmost_replaceFirst (q := q) ⟨u, v, h.split.symm⟩
  obtain ⟨rfl, rfl⟩ := h.unique hleft
  exact heq

/-- Without an occurrence there is nothing to replace. -/
theorem replaceFirst_of_not_infix {p w : Word} (h : ¬ p <:+: w) (q : Word) :
    replaceFirst p q w = w := by
  induction w with
  | nil =>
      have hp : p ≠ [] := fun hp => h (hp ▸ List.nil_infix)
      rw [replaceFirst, if_neg]
      rwa [List.isEmpty_iff]
  | cons c rest ih =>
      rw [List.infix_cons_iff, not_or] at h
      rw [replaceFirst, if_neg (fun hb => h.1 (List.isPrefixOf_iff_prefix.mp hb)), ih h.2]

/-- A replacement leaves the word as it was exactly when it puts back what it took. -/
theorem replaceFirst_eq_self_iff {p q w : Word} (h : p <:+: w) :
    replaceFirst p q w = w ↔ p = q := by
  obtain ⟨u, v, hleft, heq⟩ := exists_leftmost_replaceFirst (q := q) h
  rw [heq, hleft.split, List.append_cancel_right_eq, List.append_cancel_left_eq]
  exact eq_comm

/-- Rules work on substrings, leftmost first. A rule applies to a word exactly if the word
    is `u ++ pattern ++ v` for some `u` and `v`. Then there is such a split with the shortest
    `u`, and for that one the rule gives `u ++ replacement ++ v`; where it does not apply,
    the word stays. The empty pattern occurs at the front of every word, the empty one
    included. -/
theorem Rule.apply_replaces_leftmost (r : Rule) (w : Word) :
    (r.occursIn w = true ↔ ∃ u v, w = u ++ r.pattern ++ v) ∧
    (r.occursIn w = true → ∃ u v, IsLeftmost r.pattern w u v) ∧
    (∀ u v, IsLeftmost r.pattern w u v → r.apply w = u ++ r.replacement ++ v) ∧
    (r.occursIn w = false → r.apply w = w) ∧
    (r.pattern = [] → r.occursIn w = true ∧ IsLeftmost r.pattern w [] w ∧
      r.apply w = r.replacement ++ w) := by
  have hocc : r.occursIn w = true ↔ r.pattern <:+: w := occurs_iff_infix
  refine ⟨?_, ?_, ?_, ?_, ?_⟩
  · rw [hocc]
    exact exists_congr fun u => exists_congr fun v => eq_comm
  · intro h
    obtain ⟨u, v, hleft, _⟩ := exists_leftmost_replaceFirst (q := r.replacement) (hocc.mp h)
    exact ⟨u, v, hleft⟩
  · intro u v hleft
    exact hleft.replaceFirst_eq r.replacement
  · intro h
    exact replaceFirst_of_not_infix (fun hinf => Bool.eq_false_iff.mp h (hocc.mpr hinf)) _
  · intro hp
    have hleft : IsLeftmost r.pattern w [] w := by
      rw [hp]
      exact isLeftmost_of_isPrefix List.nil_prefix
    exact ⟨hocc.mpr (hp ▸ List.nil_infix), hleft, hleft.replaceFirst_eq r.replacement⟩

-- the search starts over after a partial occurrence, and characters stand for themselves
example : replaceFirst ['a', 'a', 'b'] ['x'] ['a', 'a', 'a', 'b'] = ['a', 'x'] := by decide

example : replaceFirst ['*', '?'] [] ['a', '?', '*', '?'] = ['a', '?'] := by decide

end NormalAlgorithm
