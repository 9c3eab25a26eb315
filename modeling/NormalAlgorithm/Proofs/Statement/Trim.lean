/-
  NormalAlgorithm.Proofs.Statement.Trim

  Blanks around a statement.

    * `read?_trim`: a statement is read in the same way with and without the blanks at
      its two ends.
    * `compile_trim`: so it makes the same rule, or the same fault, which then tells of
      the trimmed text.

  Leading blanks are dropped before anything else. Those at the end are part of what
  follows the arrow, since the arrow ends with another character (`isReading_append_iff`).
-/

import NormalAlgorithm.Proofs.Statement.Grammar

namespace NormalAlgorithm

/-- The same fault of another statement. -/
def StatementFault.about (v : Value) : StatementFault → StatementFault
  | .unreadable _ => .unreadable v
  | .noLeft _ => .noLeft v
  | .noRight _ => .noRight v
  | .twoMarksLeft _ => .twoMarksLeft v
  | .twoMarksRight _ => .twoMarksRight v
  | .side fault => .side fault

namespace Statement

open NormalAlgorithm.Text

variable {s w : List Char} {p : Reading}

/-! ## Readings -/

theorem readRight?_append_of_allBlank (hw : AllBlank w) : readRight? (s ++ w) = readRight? s := by
  cases hs : dropBlanks s with
  | nil =>
      -- then there are only blanks, with or without those added
      have hall : AllBlank (s ++ w) := AllBlank.append (List.dropWhile_eq_nil_iff.mp hs) hw
      have hnil : dropBlanks (s ++ w) = [] := List.dropWhile_eq_nil_iff.mpr hall
      simp only [readRight?, hs, hnil]
  | cons c rest =>
      have hcons : dropBlanks (s ++ w) = c :: (rest ++ w) := by
        rw [dropBlanks, List.dropWhile_append]
        rw [dropBlanks] at hs
        simp [hs]
      have htail : trim (rest ++ w) = trim rest := trim_append_of_allBlank hw
      have hwhole : trim (c :: (rest ++ w)) = trim (c :: rest) := by
        rw [← List.cons_append]
        exact trim_append_of_allBlank hw
      simp only [readRight?, hs, hcons, List.head?_cons, List.tail_cons]
      split
      · rw [htail]
      · rw [hwhole]

/-- Blanks at the end of a text stand behind every other character in it. -/
theorem exists_eq_append_of_allBlank {front back : List Char} {c : Char} (hw : AllBlank w)
    (hc : isBlank c = false) (h : s ++ w = front ++ c :: back) :
    ∃ rest, s = front ++ c :: rest ∧ back = rest ++ w := by
  have hmem : c ∉ w := by
    intro hcw
    rw [hw c hcw] at hc
    cases hc
  rcases List.append_eq_append_iff.mp h with ⟨between, -, hw'⟩ | ⟨behind, hs, hback⟩
  · exact absurd (by rw [hw']; simp) hmem
  · cases behind with
    | nil => exact absurd (by rw [← List.nil_append w, ← hback]; simp) hmem
    | cons d rest =>
        obtain ⟨rfl, hrest⟩ := List.cons.inj hback
        exact ⟨rest, hs, hrest⟩

theorem Arrow.exists_text_eq (a : Arrow) : ∃ shaft, a.text = [shaft, '>'] := by
  cases a with
  | thin => exact ⟨'-', rfl⟩
  | thick => exact ⟨'=', rfl⟩

/-- Blanks at the end have no part in the readings. -/
theorem isReading_append_iff (hw : AllBlank w) : IsReading (s ++ w) p ↔ IsReading s p := by
  constructor
  · rintro ⟨hl, hr, lay, hlay⟩
    obtain ⟨shaft, harrow⟩ := lay.arrow.exists_text_eq
    have hsplit : s ++ w = (lay.start ++ p.left ++ lay.gap ++ [shaft]) ++ '>' ::
        (lay.afterArrow ++ closingIf p.closing ++ lay.beforeRight ++ p.right ++ lay.finish) := by
      rw [hlay, Layout.write, Layout.tail, harrow]
      simp only [List.append_assoc, List.cons_append, List.nil_append]
    obtain ⟨rest, hs, hrest⟩ := exists_eq_append_of_allBlank hw (by decide) hsplit
    -- what follows the arrow reads the same without the blanks, so it has a layout too
    have hread : readRight? (rest ++ w) = some (p.closing, p.right) :=
      readRight?_eq_some_iff.mpr ⟨hr, lay.afterArrow, lay.beforeRight, lay.finish,
        lay.afterArrow_blank, lay.beforeRight_blank, lay.finish_blank, hrest.symm⟩
    rw [readRight?_append_of_allBlank hw, readRight?_eq_some_iff] at hread
    obtain ⟨_, v, v', v'', hv, hv', hv'', rfl⟩ := hread
    refine ⟨hl, hr, ⟨lay.start, lay.gap, lay.arrow, v, v', v'', lay.start_blank, lay.gap_blank,
      hv, hv', hv''⟩, ?_⟩
    rw [hs, Layout.write, Layout.tail, harrow]
    simp only [List.append_assoc, List.cons_append, List.nil_append]
  · rintro ⟨hl, hr, lay, rfl⟩
    refine ⟨hl, hr, { lay with
      finish := lay.finish ++ w, finish_blank := lay.finish_blank.append hw }, ?_⟩
    simp only [Layout.write, Layout.tail, List.append_assoc]

theorem isReading_trim (s : List Char) : IsReading (trim s) p ↔ IsReading s p := by
  obtain ⟨w, w', hw, hw', hs⟩ := exists_blanks_trim s
  have hlead : IsReading (w ++ trim s) p ↔ IsReading (trim s) p := by
    rw [isReading_iff, isReading_iff, dropBlanks_append_of_allBlank hw]
  calc IsReading (trim s) p
      ↔ IsReading (w ++ trim s) p := hlead.symm
    _ ↔ IsReading (w ++ trim s ++ w') p := (isReading_append_iff hw').symm
    _ ↔ IsReading s p := by rw [← hs]

/-- A statement is read in the same way without the blanks at its ends. -/
theorem read?_trim (s : List Char) : read? (trim s) = read? s := by
  ext p
  rw [read?_eq_some_iff, read?_eq_some_iff]
  have hall := fun q => isReading_trim (p := q) s
  exact ⟨fun h => ⟨(hall p).mp h.reading, fun q hq => h.longest q ((hall q).mpr hq)⟩,
    fun h => ⟨(hall p).mpr h.reading, fun q hq => h.longest q ((hall q).mp hq)⟩⟩

/-! ## Compiling -/

/-- A statement without the blanks at its ends makes the same rule, or the same fault,
    told of what is left. -/
theorem compile_trim (s : List Char) :
    compile (trim s) = (compile s).mapError (·.about (.text (trim s))) := by
  rw [compile, compile, read?_trim]
  cases read? s with
  | none => rfl
  | some p =>
      obtain ⟨left, closing, right⟩ := p
      dsimp only
      split_ifs
      · rfl
      · rfl
      · rfl
      · rfl
      · cases Rule.ofWords (clean left) (clean right) closing <;> rfl

end Statement

end NormalAlgorithm
