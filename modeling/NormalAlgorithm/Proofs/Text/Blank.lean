/-
  NormalAlgorithm.Proofs.Text.Blank

  Runs of blanks at the ends of a text.

  `dropBlanks` and `trim` are characterised twice: by what they give on a text
  whose blanks are known (`dropBlanks_append_of_allBlank`, `trim_layout`), and by
  the blanks that stand around what they leave (`exists_blanks_dropBlanks`,
  `exists_blanks_trim`). Readers of statements and listings only use these.
-/

import Mathlib.Data.List.DropRight
import NormalAlgorithm.Text.Blank

namespace NormalAlgorithm.Text

/-- Blanks and nothing else. -/
def AllBlank (w : List Char) : Prop := ∀ c ∈ w, isBlank c = true

/-- No blank anywhere. -/
def NoBlank (s : List Char) : Prop := ∀ c ∈ s, isBlank c = false

instance (w : List Char) : Decidable (AllBlank w) :=
  List.decidableBAll (fun c => isBlank c = true) w

instance (s : List Char) : Decidable (NoBlank s) :=
  List.decidableBAll (fun c => isBlank c = false) s

theorem allBlank_nil : AllBlank [] := by
  intro c hc
  exact absurd hc List.not_mem_nil

theorem AllBlank.append {w w' : List Char} (h : AllBlank w) (h' : AllBlank w') :
    AllBlank (w ++ w') := by
  intro c hc
  rcases List.mem_append.mp hc with hc | hc
  · exact h c hc
  · exact h' c hc

theorem AllBlank.reverse {w : List Char} (h : AllBlank w) : AllBlank w.reverse := by
  intro c hc
  exact h c (List.mem_reverse.mp hc)

theorem NoBlank.reverse {s : List Char} (h : NoBlank s) : NoBlank s.reverse := by
  intro c hc
  exact h c (List.mem_reverse.mp hc)

/-! ## Leading blanks -/

/-- Blanks at the front are dropped, however many. -/
theorem dropBlanks_append_of_allBlank {w s : List Char} (hw : AllBlank w) :
    dropBlanks (w ++ s) = dropBlanks s :=
  List.dropWhile_append_of_pos hw

/-- Nothing is dropped from a text that starts with another character. -/
theorem dropBlanks_cons {c : Char} (hc : isBlank c = false) (s : List Char) :
    dropBlanks (c :: s) = c :: s := by
  simp [dropBlanks, hc]

theorem dropBlanks_append_of_noBlank {s t : List Char} (hs : NoBlank s) (hne : s ≠ []) :
    dropBlanks (s ++ t) = s ++ t := by
  cases s with
  | nil => exact absurd rfl hne
  | cons c rest => exact dropBlanks_cons (hs c List.mem_cons_self) (rest ++ t)

/-- A text without blanks stays as it is. -/
theorem dropBlanks_of_noBlank {s : List Char} (hs : NoBlank s) : dropBlanks s = s := by
  cases s with
  | nil => rfl
  | cons c rest => exact dropBlanks_cons (hs c List.mem_cons_self) rest

/-- Only blanks are dropped. -/
theorem exists_blanks_dropBlanks (s : List Char) :
    ∃ w, AllBlank w ∧ s = w ++ dropBlanks s :=
  ⟨s.takeWhile isBlank, fun _ hc => List.mem_takeWhile_imp hc,
    List.takeWhile_append_dropWhile.symm⟩

/-! ## Blanks at both ends -/

theorem dropBlanksEnd_append_of_allBlank {s w : List Char} (hw : AllBlank w) :
    dropBlanksEnd (s ++ w) = dropBlanksEnd s := by
  have h : (w.reverse ++ s.reverse).dropWhile isBlank = s.reverse.dropWhile isBlank :=
    dropBlanks_append_of_allBlank hw.reverse
  rw [dropBlanksEnd, List.reverse_append, h, dropBlanksEnd]

theorem dropBlanksEnd_of_noBlank {s : List Char} (hs : NoBlank s) : dropBlanksEnd s = s := by
  have h : s.reverse.dropWhile isBlank = s.reverse := dropBlanks_of_noBlank hs.reverse
  rw [dropBlanksEnd, h, List.reverse_reverse]

theorem exists_blanks_dropBlanksEnd (s : List Char) :
    ∃ w, AllBlank w ∧ s = dropBlanksEnd s ++ w := by
  obtain ⟨w, hw, hs⟩ := exists_blanks_dropBlanks s.reverse
  refine ⟨w.reverse, hw.reverse, ?_⟩
  have h := congrArg List.reverse hs
  rw [List.reverse_reverse, List.reverse_append] at h
  exact h

theorem dropBlanksEnd_append_of_noBlank {s t : List Char} (ht : NoBlank t) (hne : t ≠ []) :
    dropBlanksEnd (s ++ t) = s ++ t := by
  have h : (t.reverse ++ s.reverse).dropWhile isBlank = t.reverse ++ s.reverse :=
    dropBlanks_append_of_noBlank ht.reverse (mt List.reverse_eq_nil_iff.mp hne)
  rw [dropBlanksEnd, List.reverse_append, h, List.reverse_append, List.reverse_reverse,
    List.reverse_reverse]

/-- A text that starts and ends with other characters stays as it is. -/
theorem trim_of_noBlank_ends {s t u : List Char} (hs : NoBlank s) (hs' : s ≠ [])
    (hu : NoBlank u) (hu' : u ≠ []) : trim (s ++ t ++ u) = s ++ t ++ u := by
  have hfront : dropBlanks (s ++ t ++ u) = s ++ t ++ u := by
    rw [List.append_assoc, dropBlanks_append_of_noBlank hs hs']
  rw [trim, hfront, dropBlanksEnd_append_of_noBlank hu hu']

/-- Blanks at the end are trimmed, however many. -/
theorem trim_append_of_allBlank {s w : List Char} (hw : AllBlank w) :
    trim (s ++ w) = trim s := by
  rw [trim, trim, dropBlanks, List.dropWhile_append]
  split
  · -- nothing is left of `s`, so nothing is left of the blanks after it either
    rename_i hnil
    have hblanks : w.dropWhile isBlank = [] := List.dropWhile_eq_nil_iff.mpr hw
    rw [dropBlanks, List.isEmpty_iff.mp hnil, hblanks]
  · exact dropBlanksEnd_append_of_allBlank hw

/-- Trimming leaves a run of other characters that stands between blanks. -/
theorem trim_layout {w s w' : List Char} (hw : AllBlank w) (hs : NoBlank s)
    (hw' : AllBlank w') : trim (w ++ s ++ w') = s := by
  rw [trim, List.append_assoc, dropBlanks_append_of_allBlank hw]
  by_cases hne : s = []
  · subst hne
    have hnil := dropBlanks_append_of_allBlank (s := []) hw'
    rw [List.append_nil] at hnil
    rw [List.nil_append, hnil]
    rfl
  · rw [dropBlanks_append_of_noBlank hs hne, dropBlanksEnd_append_of_allBlank hw',
      dropBlanksEnd_of_noBlank hs]

theorem trim_dropBlanks (s : List Char) : trim (dropBlanks s) = trim s := by
  rw [trim, trim, dropBlanks, dropBlanks, List.dropWhile_idempotent]

/-- Only blanks are trimmed. -/
theorem exists_blanks_trim (s : List Char) :
    ∃ w w', AllBlank w ∧ AllBlank w' ∧ s = w ++ trim s ++ w' := by
  obtain ⟨w, hw, hs⟩ := exists_blanks_dropBlanks s
  obtain ⟨w', hw', hs'⟩ := exists_blanks_dropBlanksEnd (dropBlanks s)
  refine ⟨w, w', hw, hw', ?_⟩
  rw [List.append_assoc, trim, ← hs', ← hs]

end NormalAlgorithm.Text
