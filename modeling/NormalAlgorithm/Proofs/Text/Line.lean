/-
  NormalAlgorithm.Proofs.Text.Line

  Lines of a text and the text of lines.

    * `splitLines_joinWith`: lines without a boundary inside, joined by line feeds,
      are found again if none of them is empty.
    * `splitLines_append_newline`: a line feed between two texts ends a line of the first,
      and the lines of the second follow. If the first ends in CR, the two are one boundary.
    * `splitLines_newline_cases`: what a line feed at the end of a text makes of its lines.
    * `splitLines_unifyNewlines`: CR LF and CR are boundaries as LF is, so turning them into LF
      leaves the lines as they are.

  Boundaries are blanks (`isBlank_of_isLineBreak`), so words are such lines.
-/

import NormalAlgorithm.Proofs.Text.Blank
import NormalAlgorithm.Text.Line

namespace NormalAlgorithm.Text

/-- No line boundary anywhere. -/
def NoBreak (s : List Char) : Prop := ∀ c ∈ s, isLineBreak c = false

instance (s : List Char) : Decidable (NoBreak s) :=
  List.decidableBAll (fun c => isLineBreak c = false) s

theorem NoBreak.append {s t : List Char} (hs : NoBreak s) (ht : NoBreak t) :
    NoBreak (s ++ t) := by
  intro c hc
  rcases List.mem_append.mp hc with hc | hc
  · exact hs c hc
  · exact ht c hc

theorem isBlank_of_isLineBreak {c : Char} (h : isLineBreak c = true) : isBlank c = true := by
  simp only [isLineBreak, Bool.or_eq_true, decide_eq_true_eq] at h
  rcases h with ((((((((rfl | rfl) | rfl) | rfl) | rfl) | rfl) | rfl) | rfl) | rfl) | rfl <;>
    decide

theorem NoBlank.noBreak {s : List Char} (h : NoBlank s) : NoBreak s := by
  intro c hc
  rw [Bool.eq_false_iff]
  intro hbreak
  have hblank := h c hc
  rw [isBlank_of_isLineBreak hbreak] at hblank
  cases hblank

/-! ## Splitting -/

/-- A character inside a line goes to the front of the line. -/
theorem splitLines_cons {c : Char} (hc : isLineBreak c = false) (s : List Char) :
    splitLines (c :: s) = consPiece c (splitLines s) := by
  have hreturn : c ≠ '\r' := by
    rintro rfl
    exact absurd hc (by decide)
  -- the equation for this pattern takes long to derive, the one for all patterns does not
  rw [splitLines.eq_def]
  split
  · contradiction
  · rename_i hcons
    exact absurd (List.cons.inj hcons).1 hreturn
  · rename_i hcons
    obtain ⟨rfl, rfl⟩ := List.cons.inj hcons
    rw [hc, if_neg Bool.false_ne_true]

/-- A line feed ends the line before it. -/
theorem splitLines_append_feed {s : List Char} (hs : NoBreak s) (t : List Char) :
    splitLines (s ++ '\n' :: t) = s :: splitLines t := by
  induction s with
  | nil => rfl
  | cons c s ih =>
      obtain ⟨hc, hrest⟩ := List.forall_mem_cons.mp hs
      rw [List.cons_append, splitLines_cons hc, ih hrest, consPiece]

/-- A text without boundaries is one line, unless it is empty. -/
theorem splitLines_of_noBreak {s : List Char} (hs : NoBreak s) (hne : s ≠ []) :
    splitLines s = [s] := by
  induction s with
  | nil => exact absurd rfl hne
  | cons c s ih =>
      obtain ⟨hc, hrest⟩ := List.forall_mem_cons.mp hs
      rw [splitLines_cons hc]
      by_cases hnil : s = []
      · subst hnil
        rfl
      · rw [ih hrest hnil, consPiece]

/-- Lines joined by line feeds are found again. An empty one would not be if it came
    last. -/
theorem splitLines_joinWith {lines : List (List Char)}
    (h : ∀ line ∈ lines, NoBreak line ∧ line ≠ []) :
    splitLines (joinWith ['\n'] lines) = lines := by
  induction lines with
  | nil => rfl
  | cons line rest ih =>
      obtain ⟨⟨hbreak, hne⟩, hrest⟩ := List.forall_mem_cons.mp h
      cases rest with
      | nil => exact splitLines_of_noBreak hbreak hne
      | cons next rest =>
          rw [joinWith, List.append_assoc, List.singleton_append,
            splitLines_append_feed hbreak, ih hrest]
          exact List.cons_ne_nil next rest

/-! ## A line feed between two texts -/

/-- Where CR is not followed by LF, a boundary is one character. -/
theorem splitLines_of_isLineBreak {c : Char} {s : List Char} (hc : isLineBreak c = true)
    (hpair : c = '\r' → s.head? ≠ some '\n') : splitLines (c :: s) = [] :: splitLines s := by
  rw [splitLines.eq_def]
  split
  · contradiction
  · rename_i hcons
    obtain ⟨rfl, rfl⟩ := List.cons.inj hcons
    exact absurd rfl (hpair rfl)
  · rename_i hcons
    obtain ⟨rfl, rfl⟩ := List.cons.inj hcons
    rw [hc, if_pos rfl]

theorem consPiece_ne_nil (c : Char) (pieces : List (List Char)) : consPiece c pieces ≠ [] := by
  cases pieces <;> exact List.cons_ne_nil _ _

theorem consPiece_append {pieces : List (List Char)} (h : pieces ≠ []) (c : Char)
    (more : List (List Char)) : consPiece c (pieces ++ more) = consPiece c pieces ++ more := by
  cases pieces with
  | nil => exact absurd rfl h
  | cons piece rest => rfl

/-- Induction on a text by what it begins with: CR LF, another boundary, or a character
    inside a line. -/
theorem line_induction {P : List Char → Prop} (nil : P [])
    (pair : ∀ s, P s → P ('\r' :: '\n' :: s))
    (boundary : ∀ c s, isLineBreak c = true → (c = '\r' → s.head? ≠ some '\n') → P s → P (c :: s))
    (inside : ∀ c s, isLineBreak c = false → P s → P (c :: s)) (s : List Char) : P s := by
  -- CR LF takes two characters at once, hence the induction on the length
  induction hlen : s.length using Nat.strong_induction_on generalizing s with
  | h length ih =>
      cases s with
      | nil => exact nil
      | cons c rest =>
          rw [List.length_cons] at hlen
          have hrest : P rest := ih rest.length (by omega) rest rfl
          cases hc : isLineBreak c with
          | false => exact inside c rest hc hrest
          | true =>
              by_cases hpair : c = '\r' ∧ rest.head? = some '\n'
              · obtain ⟨rfl, hhead⟩ := hpair
                obtain ⟨tail, rfl⟩ := List.head?_eq_some_iff.mp hhead
                rw [List.length_cons] at hlen
                exact pair tail (ih tail.length (by omega) tail rfl)
              · exact boundary c rest hc (fun hr hn => hpair ⟨hr, hn⟩) hrest

theorem splitLines_ne_nil {s : List Char} (h : s ≠ []) : splitLines s ≠ [] := by
  fun_cases splitLines s with
  | case1 => exact absurd rfl h
  | case2 rest => exact List.cons_ne_nil _ _
  | case3 c rest hpair hc => exact List.cons_ne_nil _ _
  | case4 c rest hpair hc => exact consPiece_ne_nil c _

/-- A boundary stays one when a line feed is put after the text, unless it is a CR at the very
    end. -/
theorem splitLines_boundary_append {c : Char} {s : List Char} (hc : isLineBreak c = true)
    (hpair : c = '\r' → s.head? ≠ some '\n') (hend : ¬ (c = '\r' ∧ s = [])) (t : List Char) :
    splitLines (c :: s ++ '\n' :: t) = [] :: splitLines (s ++ '\n' :: t) := by
  have hseam : c = '\r' → (s ++ '\n' :: t).head? ≠ some '\n' := by
    intro hr
    have hne : s ≠ [] := fun hnil => hend ⟨hr, hnil⟩
    rw [List.head?_append_of_ne_nil _ hne]
    exact hpair hr
  rw [List.cons_append, splitLines_of_isLineBreak hc hseam]

/-- The lines of two texts with a line feed between them: those of the first with the line
    feed, and those of the second. -/
theorem splitLines_append_newline (s t : List Char) :
    splitLines (s ++ '\n' :: t) = splitLines (s ++ ['\n']) ++ splitLines t := by
  induction s using line_induction with
  | nil => rfl
  | pair s ih => exact congrArg ([] :: ·) ih
  | boundary c s hc hpair ih =>
      by_cases hend : c = '\r' ∧ s = []
      · -- the line feed is taken into the boundary before it
        obtain ⟨rfl, rfl⟩ := hend
        rfl
      · rw [splitLines_boundary_append hc hpair hend, splitLines_boundary_append hc hpair hend, ih,
          List.cons_append]
  | inside c s hc ih =>
      have hne : splitLines (s ++ ['\n']) ≠ [] := splitLines_ne_nil (by simp)
      rw [List.cons_append, List.cons_append, splitLines_cons hc, splitLines_cons hc, ih,
        consPiece_append hne]

/-- A line feed at the end of a text ends its last line, or makes an empty one if there is no
    line to end. -/
theorem splitLines_newline_cases (s : List Char) :
    splitLines (s ++ ['\n']) = splitLines s ∨
      splitLines (s ++ ['\n']) = splitLines s ++ [[]] := by
  induction s using line_induction with
  | nil => exact Or.inr rfl
  | pair s ih => exact ih.imp (congrArg ([] :: ·)) (congrArg ([] :: ·))
  | boundary c s hc hpair ih =>
      by_cases hend : c = '\r' ∧ s = []
      · obtain ⟨rfl, rfl⟩ := hend
        exact Or.inl rfl
      · rw [splitLines_boundary_append hc hpair hend, splitLines_of_isLineBreak hc hpair]
        exact ih.imp (congrArg ([] :: ·)) (congrArg ([] :: ·))
  | inside c s hc ih =>
      rw [List.cons_append, splitLines_cons hc, splitLines_cons hc]
      by_cases hnil : s = []
      · subst hnil
        exact Or.inl rfl
      · refine ih.imp (congrArg (consPiece c)) fun hmore => ?_
        rw [hmore, consPiece_append (splitLines_ne_nil hnil)]

/-! ## Line ends turned into line feeds -/

/-- Where CR is not followed by LF, one character is read at a time. -/
theorem unifyNewlines_cons {c : Char} {s : List Char} (hpair : c = '\r' → s.head? ≠ some '\n') :
    unifyNewlines (c :: s) = (if c = '\r' then '\n' else c) :: unifyNewlines s := by
  rw [unifyNewlines.eq_def]
  split
  · contradiction
  · rename_i hcons
    obtain ⟨rfl, rfl⟩ := List.cons.inj hcons
    exact absurd rfl (hpair rfl)
  · rename_i hcons
    obtain ⟨rfl, rfl⟩ := List.cons.inj hcons
    rfl

/-- The lines of a text are the same with its line ends turned into line feeds. -/
theorem splitLines_unifyNewlines (s : List Char) :
    splitLines (unifyNewlines s) = splitLines s := by
  have hfeed : ∀ t, splitLines ('\n' :: t) = [] :: splitLines t :=
    fun t => splitLines_append_feed (s := []) (by decide) t
  induction s using line_induction with
  | nil => rfl
  | pair s ih =>
      have hpair : unifyNewlines ('\r' :: '\n' :: s) = '\n' :: unifyNewlines s := rfl
      rw [hpair, hfeed, ih]
      rfl
  | boundary c s hc hpair ih =>
      rw [unifyNewlines_cons hpair, splitLines_of_isLineBreak hc hpair]
      by_cases hreturn : c = '\r'
      · rw [if_pos hreturn, hfeed, ih]
      · -- another boundary is read as it is, and LF after it does not belong to it
        rw [if_neg hreturn, splitLines_of_isLineBreak hc (fun h => absurd h hreturn), ih]
  | inside c s hc ih =>
      have hreturn : c ≠ '\r' := by
        rintro rfl
        exact absurd hc (by decide)
      rw [unifyNewlines_cons (fun h => absurd h hreturn), if_neg hreturn, splitLines_cons hc, ih,
        splitLines_cons hc]

end NormalAlgorithm.Text
