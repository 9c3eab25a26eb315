/-
  NormalAlgorithm.Proofs.Statement.Compile

  Compiling statements, against their grammar.

    * `compile_judges_longest_reading`: what becomes of every text. One without a
      reading is refused; any other is judged by its longest reading alone.
    * `compile_layout_eq_ok`: a rule can be written in many ways, with any blanks,
      either arrow and marks at the ends of its sides, and compiles back to itself
      from each of them. `Rule.render` is one of these ways.

  Both rest on `compile_of_longestReading`: the sides of a reading lose their marks
  and are plain then, so that making the rule cannot fail.
-/

import NormalAlgorithm.Proofs.Rule.Basic
import NormalAlgorithm.Proofs.Statement.Grammar

namespace NormalAlgorithm.Statement

open NormalAlgorithm.Text

/-! ## Sides without their marks -/

theorem isPlain_of_mem_clean {s : List Char} (h : IsSide s) : ∀ c ∈ clean s, isPlain c = true := by
  intro c hc
  rw [clean, List.mem_filter, bne_iff_ne] at hc
  exact (h.mem hc.1).resolve_right hc.2

theorem clean_of_plain {w : Word} (hw : ∀ c ∈ w, isPlain c = true) : clean w = w := by
  rw [clean, List.filter_eq_self]
  intro c hc
  rw [bne_iff_ne]
  rintro rfl
  exact absurd (hw emptyMark hc) (by decide)

theorem clean_append (s t : List Char) : clean (s ++ t) = clean s ++ clean t :=
  List.filter_append s t

theorem clean_markIf (b : Bool) : clean (markIf b) = [] := by
  cases b <;> rfl

/-! ## Every text -/

/-- The result of compiling as a caller sees it: the text of the fault, or the
    parts of the rule. -/
def outcome : Except StatementFault Rule → Except String (Word × Word × Bool)
  | .error fault => .error fault.message
  | .ok rule => .ok (rule.pattern, rule.replacement, rule.terminating)

/-- What a statement comes to under a reading: the first complaint about the sides,
    or else the parts of a rule. -/
def verdict (s : List Char) (p : Reading) : Except String (Word × Word × Bool) :=
  if p.left = [] then
    .error ("Invalid statement, there is no LHS: " ++ String.ofList (quoted s))
  else if p.right = [] then
    .error ("Invalid statement, there is no RHS: " ++ String.ofList (quoted s))
  else if p.left = ['!', '!'] then
    .error ("Invalid statement, LHS contains two empty word markers: " ++
      String.ofList (quoted s))
  else if p.right = ['!', '!'] then
    .error ("Invalid statement, RHS contains two empty word markers: " ++
      String.ofList (quoted s))
  else .ok (p.left.filter (· != '!'), p.right.filter (· != '!'), p.closing)

/-- The longest reading of a statement decides: the sides are looked at in order, and
    two sides without a complaint make a rule. -/
theorem compile_of_longestReading {s : List Char} {p : Reading} (h : IsLongestReading s p) :
    compile s =
      if p.left = [] then .error (.noLeft (.text s))
      else if p.right = [] then .error (.noRight (.text s))
      else if p.left = [emptyMark, emptyMark] then .error (.twoMarksLeft (.text s))
      else if p.right = [emptyMark, emptyMark] then .error (.twoMarksRight (.text s))
      else .ok ⟨clean p.left, clean p.right, p.closing,
        isPlain_of_mem_clean h.reading.left_side, isPlain_of_mem_clean h.reading.right_side⟩ := by
  have hrule := Rule.ofWords_eq_ok (isPlain_of_mem_clean h.reading.left_side)
    (isPlain_of_mem_clean h.reading.right_side) p.closing
  rw [compile, read?_eq_some_iff.mpr h]
  simp only [List.isEmpty_iff, hrule]

theorem outcome_of_longestReading {s : List Char} {p : Reading} (h : IsLongestReading s p) :
    outcome (compile s) = verdict s p := by
  have hmarks : [emptyMark, emptyMark] = ['!', '!'] := rfl
  rw [compile_of_longestReading h, verdict, hmarks]
  by_cases hleft : p.left = []
  · rw [if_pos hleft, if_pos hleft]
    rfl
  · rw [if_neg hleft, if_neg hleft]
    by_cases hright : p.right = []
    · rw [if_pos hright, if_pos hright]
      rfl
    · rw [if_neg hright, if_neg hright]
      by_cases hleft' : p.left = ['!', '!']
      · rw [if_pos hleft', if_pos hleft']
        rfl
      · rw [if_neg hleft', if_neg hleft']
        by_cases hright' : p.right = ['!', '!']
        · rw [if_pos hright', if_pos hright']
          rfl
        · rw [if_neg hright', if_neg hright']
          rfl

/-- What becomes of a text. Without a reading it is refused. Otherwise one reading has
    the longest left side, and the text is judged by it: a missing left side, a
    missing right side, a left side of two marks and a right side of two marks are
    complained about, in this order, and any other text makes a rule. -/
theorem compile_judges_longest_reading (s : List Char) :
    ((∀ p, ¬ IsReading s p) ∧
      outcome (compile s) = .error ("Invalid statement: " ++ String.ofList (quoted s))) ∨
    ∃ p, IsLongestReading s p ∧ (∀ q, IsLongestReading s q → q = p) ∧
      outcome (compile s) = verdict s p := by
  cases hread : read? s with
  | none =>
      refine Or.inl ⟨read?_eq_none_iff.mp hread, ?_⟩
      rw [compile, hread]
      rfl
  | some p =>
      have hp := read?_eq_some_iff.mp hread
      exact Or.inr ⟨p, hp, fun q hq => hq.unique hp, outcome_of_longestReading hp⟩

/-! ## Every layout of a rule -/

/-- `Spells side w`: the side stands for the word. The empty word is written as one
    mark, and any other word as itself with optional marks at its ends. -/
inductive Spells : List Char → Word → Prop where
  | empty : Spells [emptyMark] []
  | word (lead trail : Bool) {w : Word} (hne : w ≠ []) :
    Spells (markIf lead ++ w ++ markIf trail) w

theorem Spells.isSide {s : List Char} {w : Word} (h : Spells s w)
    (hw : ∀ c ∈ w, isPlain c = true) : IsSide s := by
  cases h with
  | empty => exact ⟨true, [], false, hw, rfl⟩
  | word lead trail hne => exact ⟨lead, w, trail, hw, rfl⟩

theorem Spells.ne_nil {s : List Char} {w : Word} (h : Spells s w) : s ≠ [] := by
  cases h with
  | empty => exact List.cons_ne_nil _ _
  | word lead trail hne => simp [hne]

theorem Spells.clean_eq {s : List Char} {w : Word} (h : Spells s w)
    (hw : ∀ c ∈ w, isPlain c = true) : clean s = w := by
  cases h with
  | empty => rfl
  | word lead trail hne =>
      rw [clean_append, clean_append, clean_markIf, clean_markIf, clean_of_plain hw,
        List.nil_append, List.append_nil]

theorem Spells.ne_two_marks {s : List Char} {w : Word} (h : Spells s w)
    (hw : ∀ c ∈ w, isPlain c = true) : s ≠ [emptyMark, emptyMark] := by
  intro hs
  have hclean := h.clean_eq hw
  rw [hs] at hclean
  cases h with
  | empty => simp at hs
  | word lead trail hne => exact hne hclean.symm

theorem spells_showSide (w : Word) : Spells (Rule.showSide w) w := by
  cases w with
  | nil => exact Spells.empty
  | cons c rest =>
      have h := Spells.word false false (List.cons_ne_nil c rest)
      simpa [markIf, Rule.showSide] using h

/-- The left side of a reading stands at the front, behind the leading blanks. -/
theorem IsReading.left_isPrefix {s : List Char} {p : Reading} (h : IsReading s p) :
    p.left <+: dropBlanks s := by
  obtain ⟨hl, hr, lay, rfl⟩ := h
  obtain ⟨lay', hlay'⟩ := dropBlanks_write lay hl
  exact ⟨_, hlay'.symm⟩

/-- A left side that is followed by a blank is as long as any, since no left side
    reaches over the blank. -/
theorem isLongestReading_write {lay : Layout} {p : Reading} (hgap : lay.gap ≠ [])
    (hne : p.left ≠ []) (hl : IsSide p.left) (hr : IsSide p.right) :
    IsLongestReading (lay.write p) p := by
  refine ⟨⟨hl, hr, lay, rfl⟩, ?_⟩
  intro q hq
  obtain ⟨b, gap, hb⟩ := List.exists_cons_of_ne_nil hgap
  have hblank : b ∉ q.left := by
    intro hmem
    have h := hq.left_side.noBlank b hmem
    rw [lay.gap_blank b (by rw [hb]; exact List.mem_cons_self)] at h
    cases h
  have hfront : p.left ++ [b] <+: dropBlanks (lay.write p) := by
    rw [Layout.write, List.append_assoc, dropBlanks_append_of_allBlank lay.start_blank,
      dropBlanks_append_of_noBlank hl.noBlank hne, Layout.tail, hb]
    simp
  rcases List.prefix_or_prefix_of_prefix hq.left_isPrefix hfront with h | h
  · rcases List.prefix_concat_iff.mp h with h | h
    · exact absurd (by rw [h]; simp) hblank
    · exact h.length_le
  · exact absurd (h.subset (by simp)) hblank

/-- The statement form of a rule is one of its layouts. -/
def Layout.plain : Layout :=
  ⟨[], [' '], .thin, [], [' '], [], by decide, by decide, by decide, by decide, by decide⟩

theorem render_eq_write (r : Rule) :
    r.render = Layout.plain.write
      ⟨Rule.showSide r.pattern, r.terminating, Rule.showSide r.replacement⟩ := by
  cases h : r.terminating with
  | false => simp [Rule.render, Rule.arrow, Layout.write, Layout.tail, Layout.plain, closingIf, h,
      Arrow.text]
  | true => simp [Rule.render, Rule.arrow, Layout.write, Layout.tail, Layout.plain, closingIf, h,
      Arrow.text]

theorem compile_write {r : Rule} {lay : Layout} {left right : List Char} (hgap : lay.gap ≠ [])
    (hleft : Spells left r.pattern) (hright : Spells right r.replacement) :
    compile (lay.write ⟨left, r.terminating, right⟩) = .ok r := by
  have hlongest := isLongestReading_write (p := ⟨left, r.terminating, right⟩) hgap hleft.ne_nil
    (hleft.isSide r.pattern_plain) (hright.isSide r.replacement_plain)
  rw [compile_of_longestReading hlongest, if_neg hleft.ne_nil, if_neg hright.ne_nil,
    if_neg (hleft.ne_two_marks r.pattern_plain), if_neg (hright.ne_two_marks r.replacement_plain)]
  exact congrArg Except.ok (Rule.eq_of_parts (hleft.clean_eq r.pattern_plain)
    (hright.clean_eq r.replacement_plain) rfl)

/-- The statement form of a rule compiles back to it. -/
theorem compile_render (r : Rule) : compile r.render = .ok r := by
  rw [render_eq_write]
  exact compile_write (List.cons_ne_nil _ _) (spells_showSide _) (spells_showSide _)

/-- A rule compiles back to itself from every way to write it: any blanks, at least
    one of them before the arrow, either arrow, and any spelling of its sides. Its
    statement form is one of these ways. -/
theorem compile_layout_eq_ok (r : Rule) :
    (∀ (lay : Layout) (left right : List Char), lay.gap ≠ [] → Spells left r.pattern →
      Spells right r.replacement → compile (lay.write ⟨left, r.terminating, right⟩) = .ok r) ∧
    compile r.render = .ok r := by
  refine ⟨?_, compile_render r⟩
  intro lay left right hgap hleft hright
  exact compile_write hgap hleft hright

/-- Arrows at the ends of the sides, a mark at either side and blanks of other kinds. -/
theorem compile_layout_eq_ok_arrows :
    compile ['\t', '!', 'a', '-', '>', '\n', '=', '>', ' ', '.', '=', '>', 'b', '!', ' '] =
      .ok ⟨['a', '-', '>'], ['=', '>', 'b'], true, List.all_eq_true.mp rfl,
        List.all_eq_true.mp rfl⟩ := by
  have hleft : Spells ['!', 'a', '-', '>'] ['a', '-', '>'] :=
    .word true false (w := ['a', '-', '>']) (List.cons_ne_nil _ _)
  have hright : Spells ['=', '>', 'b', '!'] ['=', '>', 'b'] :=
    .word false true (w := ['=', '>', 'b']) (List.cons_ne_nil _ _)
  have h := (compile_layout_eq_ok ⟨['a', '-', '>'], ['=', '>', 'b'], true,
    List.all_eq_true.mp rfl, List.all_eq_true.mp rfl⟩).1
    ⟨['\t'], ['\n'], .thick, [' '], [], [' '], by decide, by decide, by decide, by decide,
      by decide⟩ _ _ (List.cons_ne_nil _ _) hleft hright
  simpa [Layout.write, Layout.tail, Arrow.text, closingIf, closingMark] using h

end NormalAlgorithm.Statement
