/-
  NormalAlgorithm.Proofs.CommandLine.Check

  The command `check`: what it shows of a statement that makes a rule.

  The line is a tick and the statement form of the rule. That form goes through escaping and
  through showing, which undo each other but for the backslashes in front of some brackets and
  at the end (`Text.Markup.filter_plain_escape_eq_self_iff`), and the console leaves out the
  characters that would move its cursor.

    * `check_shows_rule_iff`: when the form is shown as it is. Then, and only then, what is shown
      compiles to the rule again.
    * `check_alters_rules`: rules of three kinds that the program shows as others.

  That what is shown otherwise never makes the same rule is seen from the characters that count
  in a statement (`Statement.strokes`): they are the pattern, an arrow and the replacement, in
  this order, and some of them are lost or put at the end.
-/

import NormalAlgorithm.CommandLine.Execute
import NormalAlgorithm.CommandLine.Usual
import NormalAlgorithm.Proofs.Listing.Render
import NormalAlgorithm.Proofs.Report.Console
import NormalAlgorithm.Proofs.Statement.Trim

namespace NormalAlgorithm

open NormalAlgorithm.Text NormalAlgorithm.Text.Markup

open scoped List

/-! ## The characters that count in a statement -/

namespace Statement

/-- Whether a character counts in a statement: blanks and empty word marks do not. -/
def isStroke (c : Char) : Bool := !isBlank c && c != emptyMark

/-- The characters that count in a statement. -/
def strokes (s : List Char) : List Char := s.filter isStroke

theorem strokes_append (s t : List Char) : strokes (s ++ t) = strokes s ++ strokes t :=
  List.filter_append s t

theorem strokes_of_allBlank {w : List Char} (h : AllBlank w) : strokes w = [] := by
  rw [strokes, List.filter_eq_nil_iff]
  intro c hc
  simp [isStroke, h c hc]

theorem strokes_of_noBlank {s : List Char} (h : NoBlank s) : strokes s = clean s := by
  rw [strokes, clean]
  apply List.filter_congr
  intro c hc
  simp [isStroke, h c hc]

theorem strokes_arrow (arrow : Arrow) : strokes arrow.text = arrow.text := by
  cases arrow <;> decide

theorem strokes_closingIf (closing : Bool) : strokes (closingIf closing) = closingIf closing := by
  cases closing <;> decide

/-- What counts in a statement with a reading: the sides without their marks, and what makes the
    arrow. -/
theorem IsReading.strokes_eq {s : List Char} {p : Reading} (h : IsReading s p) :
    ∃ arrow : Arrow, strokes s =
      clean p.left ++ arrow.text ++ closingIf p.closing ++ clean p.right := by
  obtain ⟨hleft, hright, lay, rfl⟩ := h
  refine ⟨lay.arrow, ?_⟩
  simp only [Layout.write, Layout.tail, strokes_append, strokes_of_allBlank lay.start_blank,
    strokes_of_allBlank lay.gap_blank, strokes_of_allBlank lay.afterArrow_blank,
    strokes_of_allBlank lay.beforeRight_blank, strokes_of_allBlank lay.finish_blank,
    strokes_of_noBlank hleft.noBlank, strokes_of_noBlank hright.noBlank, strokes_arrow,
    strokes_closingIf, List.nil_append, List.append_nil, List.append_assoc]

/-- What counts in a statement that makes a rule. -/
theorem strokes_of_compile {s : List Char} {rule : Rule} (h : compile s = .ok rule) :
    ∃ arrow : Arrow, strokes s =
      rule.pattern ++ arrow.text ++ closingIf rule.terminating ++ rule.replacement := by
  cases hread : read? s with
  | none =>
      rw [compile, hread] at h
      cases h
  | some p =>
      have hlongest := read?_eq_some_iff.mp hread
      obtain ⟨arrow, hstrokes⟩ := hlongest.reading.strokes_eq
      rw [compile_of_longestReading hlongest] at h
      split_ifs at h
      obtain rfl := Except.ok.inj h
      exact ⟨arrow, hstrokes⟩

/-- The statement form of a rule has as many characters that count as any other statement that
    makes the rule. -/
theorem length_strokes_eq {s : List Char} {rule : Rule} (h : compile s = .ok rule) :
    (strokes s).length = (strokes rule.render).length := by
  have hlength (arrow : Arrow) : arrow.text.length = 2 := by cases arrow <;> rfl
  obtain ⟨arrow, hs⟩ := strokes_of_compile h
  obtain ⟨arrow', hrender⟩ := strokes_of_compile (compile_render rule)
  rw [hs, hrender]
  simp only [List.length_append, hlength]

/-- A statement ends in as many backslashes as the replacement, if nothing follows it. -/
theorem endsInOneSlash_strokes {s : List Char} {rule : Rule} (h : compile s = .ok rule) :
    endsInOneSlash (strokes s) = endsInOneSlash rule.replacement := by
  obtain ⟨arrow, hs⟩ := strokes_of_compile h
  obtain ⟨shaft, harrow⟩ := arrow.exists_text_eq
  rw [hs, harrow]
  cases rule.terminating with
  | false =>
      have hsplit : rule.pattern ++ [shaft, '>'] ++ closingIf false ++ rule.replacement =
          (rule.pattern ++ [shaft]) ++ '>' :: rule.replacement := by simp [closingIf]
      rw [hsplit, endsInOneSlash_append_cons (by decide)]
  | true =>
      have hsplit : rule.pattern ++ [shaft, '>'] ++ closingIf true ++ rule.replacement =
          (rule.pattern ++ [shaft, '>']) ++ closingMark :: rule.replacement := by simp [closingIf]
      rw [hsplit, endsInOneSlash_append_cons (by decide)]

end Statement

/-! ## Statement forms -/

namespace Rule

theorem endsInOneSlash_showSide (w : Word) : endsInOneSlash (showSide w) = endsInOneSlash w := by
  cases w with
  | nil => rfl
  | cons c rest => rfl

theorem endsInOneSlash_render (r : Rule) :
    endsInOneSlash r.render = endsInOneSlash r.replacement := by
  have hsplit : r.render =
      (showSide r.pattern ++ [' '] ++ arrow r.terminating) ++ ' ' :: showSide r.replacement := by
    rw [render_eq]
    simp
  rw [hsplit, endsInOneSlash_append_cons (by decide), endsInOneSlash_showSide]

/-- The blanks of a statement form are spaces. -/
theorem eq_space_of_mem_render {r : Rule} {c : Char} (hc : c ∈ r.render)
    (hblank : isBlank c = true) : c = ' ' := by
  have hside {w : Word} (hw : ∀ c ∈ w, isPlain c = true) : c ∉ showSide w := by
    intro hmem
    have hnot := noBlank_showSide hw c hmem
    rw [hblank] at hnot
    cases hnot
  have harrow : NoBlank (arrow r.terminating) := by cases r.terminating <;> decide
  rw [render_eq] at hc
  simp only [List.mem_append, List.mem_singleton] at hc
  rcases hc with (hc | (hc | hc) | hc) | hc
  · exact absurd hc (hside r.pattern_plain)
  · exact hc
  · rw [harrow c hc] at hblank
    cases hblank
  · exact hc
  · exact absurd hc (hside r.replacement_plain)

theorem tab_not_mem_render (r : Rule) : '\t' ∉ r.render := by
  intro hmem
  exact absurd (eq_space_of_mem_render hmem (by decide)) (by decide)

end Rule

/-! ## Shown text -/

namespace Report

/-- A text that the console shows as it is. -/
structure ShownAsIs (w : List Char) : Prop where
  /-- It does not end in exactly one backslash. -/
  ending : ¬ ∃ u, w = u ++ ['\\'] ∧ u.getLast? ≠ some '\\'
  /-- Every bracket with a backslash in front of it opens a tag. -/
  brackets : ∀ u v, w = u ++ '\\' :: '[' :: v → OpensTag v
  /-- It holds no character that would move the cursor. -/
  controls : ∀ c ∈ w, isCursorControl c = false

theorem shown_escape_eq_self_iff {w : List Char} : shown (escape w) = w ↔ ShownAsIs w := by
  rw [shown, filter_plain_escape_eq_self_iff (by decide), ← Bool.not_eq_true, endsInOneSlash_iff]
  constructor
  · rintro ⟨hending, hbrackets, hcontrols⟩
    exact ⟨hending, hbrackets, fun c hc => (Bool.not_eq_true' _).mp (hcontrols c hc)⟩
  · rintro ⟨hending, hbrackets, hcontrols⟩
    exact ⟨hending, hbrackets, fun c hc => (Bool.not_eq_true' _).mpr (hcontrols c hc)⟩

/-- Nothing is added to a text that does not end in exactly one backslash. -/
theorem shown_escape_sublist {w : List Char} (h : endsInOneSlash w = false) :
    shown (escape w) <+ w := by
  rw [shown, plain_escape, h, if_neg Bool.false_ne_true, List.append_nil]
  exact List.filter_sublist.trans (plain_escapeAfter_sublist 0 w)

/-- A single backslash at the end is shown as two. -/
theorem exists_shown_escape_eq {w : List Char} (h : endsInOneSlash w = true) :
    ∃ front, shown (escape w) = front ++ ['\\', '\\'] := by
  obtain ⟨u, hu, _⟩ := endsInOneSlash_iff.mp h
  have hlast := getLast?_plain_escapeAfter 0 w
  rw [slashes_zero, List.nil_append, hu, List.getLast?_concat, List.getLast?_eq_some_iff,
    ← hu] at hlast
  obtain ⟨front, hfront⟩ := hlast
  refine ⟨front.filter (!isCursorControl ·), ?_⟩
  rw [shown, plain_escape, h, hfront, if_pos rfl, List.filter_append, List.filter_append,
    List.append_assoc]
  rfl

/-- Nothing but backslashes and characters that would move the cursor is left out. -/
theorem filter_shown_escape {w : List Char} {q : Char → Bool} (hq : q '\\' = false)
    (hcontrols : ∀ c ∈ w, q c = true → isCursorControl c = false) :
    (shown (escape w)).filter q = w.filter q := by
  have hend : (if endsInOneSlash w then ['\\'] else []).filter q = [] := by
    split <;> simp [hq]
  rw [shown, List.filter_comm, plain_escape, List.filter_append, hend, List.append_nil,
    filter_plain_escapeAfter hq, List.filter_eq_self]
  intro c hc
  obtain ⟨hmem, hqc⟩ := List.mem_filter.mp hc
  rw [hcontrols c hmem hqc]
  rfl

end Report

/-! ## Checked statements -/

namespace CommandLine

open NormalAlgorithm.Report

/-- What is shown of a statement form makes the rule again only if it is the form. -/
theorem compile_shown_render_iff (rule : Rule) :
    Statement.compile (shown (escape rule.render)) = .ok rule ↔ ShownAsIs rule.render := by
  constructor
  · intro hcompile
    cases hends : endsInOneSlash rule.render with
    | true =>
        -- the replacement ends in one backslash, and what is shown in two
        obtain ⟨front, hfront⟩ := exists_shown_escape_eq hends
        have hone := Statement.endsInOneSlash_strokes hcompile
        have htwo : Statement.strokes ['\\', '\\'] = ['\\'] ++ ['\\'] := by decide
        rw [← rule.endsInOneSlash_render, hends, hfront, Statement.strokes_append, htwo,
          ← List.append_assoc, endsInOneSlash_concat_slash, List.getLast?_concat] at hone
        simp at hone
    | false =>
        -- no character that counts can be missing, and no other is
        have hstrokes := Statement.length_strokes_eq hcompile
        have hothers : (shown (escape rule.render)).filter (!Statement.isStroke ·) =
            rule.render.filter (!Statement.isStroke ·) := by
          apply filter_shown_escape (by decide)
          intro c hc hstroke
          simp only [Statement.isStroke, Bool.not_and, Bool.not_not, Bool.or_eq_true,
            Bool.not_eq_true', bne_eq_false_iff_eq] at hstroke
          rcases hstroke with hblank | rfl
          · rw [Rule.eq_space_of_mem_render hc hblank]
            decide
          · decide
        have hlength : (shown (escape rule.render)).length = rule.render.length := by
          rw [List.length_eq_length_filter_add Statement.isStroke, hothers,
            List.length_eq_length_filter_add (l := rule.render) Statement.isStroke]
          exact congrArg (· + _) hstrokes
        exact shown_escape_eq_self_iff.mp ((shown_escape_sublist hends).eq_of_length hlength)
  · intro h
    rw [shown_escape_eq_self_iff.mpr h]
    exact Statement.compile_render rule

variable {p : Platform} {w : World} {isEmoji : List Char → Bool} {fits : List Char → Prop}

theorem statementLine_of_ok (hconsole : p.console.Renders isEmoji fits) {s : List Char}
    {rule : Rule} (h : Statement.compile s = .ok rule) (hcodes : HoldsNoCode isEmoji rule.render)
    (hfits : fits ('✓' :: ' ' :: shown (escape rule.render))) :
    statementLine p.console s = '✓' :: ' ' :: shown (escape rule.render) ++ ['\n'] := by
  rw [statementLine, h]
  exact print_mark (w := []) hconsole (by decide) (by decide) (by decide) (by decide) hcodes
    rule.tab_not_mem_render hfits

/-- A command line that checks statements prints what there is to say of them, and nothing else. -/
theorem execute_of_check {args : List Arg} {level : Journal.Level} {statements : List (List Char)}
    (hread : p.readArguments w.files args = .ok ⟨level, .check statements⟩) :
    execute p w args = executeCheck p statements := by
  rw [execute, hread]
  rfl

theorem checkText_append (console : Console) (before : List (List Char)) (s : List Char)
    (after : List (List Char)) :
    checkText console (before ++ s :: after) =
      checkText console before ++ statementLine console s ++ checkText console after := by
  rw [checkText, List.flatMap_append, List.flatMap_cons, ← List.append_assoc]
  rfl

/-- For a statement that makes a rule, `check` prints a tick, a space and a text, on every console
    that renders markup, if the statement form of the rule holds no emoji code and fits. The text
    is that form exactly if the console shows the form as it is. Then it makes the rule again, and
    otherwise it never does. -/
theorem check_shows_rule_iff (p : Platform) (w : World) {isEmoji : List Char → Bool}
    {fits : List Char → Prop} (hconsole : p.console.Renders isEmoji fits) {args : List Arg}
    {level : Journal.Level} {before after : List (List Char)} {s : List Char} {rule : Rule}
    (hread : p.readArguments w.files args = .ok ⟨level, .check (before ++ s :: after)⟩)
    (hrule : Statement.compile s = .ok rule) (hcodes : HoldsNoCode isEmoji rule.render)
    (hfits : fits ('✓' :: ' ' :: shown (escape rule.render))) :
    ∃ text, (execute p w args).events =
        [.printed (checkText p.console before ++ ('✓' :: ' ' :: text ++ ['\n']) ++
          checkText p.console after)] ∧
      (text = rule.render ↔ ShownAsIs rule.render) ∧
      (Statement.compile text = .ok rule ↔ ShownAsIs rule.render) := by
  refine ⟨shown (escape rule.render), ?_, shown_escape_eq_self_iff, compile_shown_render_iff rule⟩
  rw [execute_of_check hread, executeCheck, checkText_append,
    statementLine_of_ok hconsole hrule hcodes hfits]

/-- A world without files, variables and settings. -/
def emptyWorld : World := .start (fun _ => .missing) []

/-- The program's console has no emoji codes. -/
theorem holdsNoCode_usual (s : List Char) : HoldsNoCode (fun _ => false) s := by
  intro name hname
  cases hname

/-- A rule that is shown as it is, with a tag at its start, a backslash in front of another and
    two backslashes at its end. -/
theorem check_shows_rule_iff_tags :
    ∃ rule, Statement.compile "[x]a\\[/b]=>.\\\\".toList = .ok rule ∧ ShownAsIs rule.render ∧
      (execute .usual emptyWorld ["check".toList, "[x]a\\[/b]=>.\\\\".toList]).events =
        [.printed "✓ [x]a\\[/b] ->. \\\\\n".toList] ∧
      Statement.compile "[x]a\\[/b] ->. \\\\".toList = .ok rule := by
  obtain ⟨rule, hrule, hrender⟩ : ∃ rule, Statement.compile "[x]a\\[/b]=>.\\\\".toList = .ok rule ∧
      rule.render = ['[', 'x', ']', 'a', '\\', '[', '/', 'b', ']', ' ', '-', '>', '.', ' ', '\\',
        '\\'] := ⟨_, rfl, rfl⟩
  have hshown : ShownAsIs rule.render := by
    rw [← shown_escape_eq_self_iff, hrender]
    cbv
  have hread : Platform.usual.readArguments emptyWorld.files
      ["check".toList, "[x]a\\[/b]=>.\\\\".toList] =
        .ok ⟨.warning, .check ([] ++ "[x]a\\[/b]=>.\\\\".toList :: [])⟩ := rfl
  obtain ⟨text, hevents, htext, hcompile⟩ :=
    check_shows_rule_iff .usual emptyWorld renders_usual hread hrule (holdsNoCode_usual _) trivial
  have hsame := htext.mpr hshown
  have hagain := hcompile.mpr hshown
  rw [hsame, hrender] at hagain hevents
  exact ⟨rule, hrule, hshown, hevents, hagain⟩

/-- For a statement that makes a rule, `check` prints a text that makes another rule. -/
def ShowsOther (s text : List Char) : Prop :=
  ∃ rule other, Statement.compile s = .ok rule ∧
    (execute .usual emptyWorld ["check".toList, s]).events =
      [.printed ('✓' :: ' ' :: text ++ ['\n'])] ∧
    Statement.compile text = .ok other ∧ other ≠ rule

theorem showsOther_of_ne {s text : List Char} {rule other : Rule}
    (hread : Platform.usual.readArguments emptyWorld.files ["check".toList, s] =
      .ok ⟨.warning, .check [s]⟩)
    (hrule : Statement.compile s = .ok rule) (hshown : shown (escape rule.render) = text)
    (hother : Statement.compile text = .ok other)
    (hne : other.replacement ≠ rule.replacement) : ShowsOther s text := by
  refine ⟨rule, other, hrule, ?_, hother, fun h => hne (congrArg Rule.replacement h)⟩
  have hline := statementLine_of_ok (p := .usual) renders_usual hrule (holdsNoCode_usual _) trivial
  rw [execute_of_check hread, executeCheck, checkText, List.flatMap_singleton, hline, hshown]

/-- A backslash is added at the end, one is lost in front of a bracket that opens no tag, and a
    backspace is lost. -/
theorem check_alters_rules :
    ShowsOther ['a', '-', '>', '\\'] ['a', ' ', '-', '>', ' ', '\\', '\\'] ∧
      ShowsOther ['a', '-', '>', '\\', '[', 'B'] ['a', ' ', '-', '>', ' ', '[', 'B'] ∧
      ShowsOther ['a', '-', '>', '\x08', 'b'] ['a', ' ', '-', '>', ' ', 'b'] := by
  refine ⟨showsOther_of_ne rfl rfl ?_ rfl ?_, showsOther_of_ne rfl rfl ?_ rfl ?_,
    showsOther_of_ne rfl rfl ?_ rfl ?_⟩
  · cbv
  · decide
  · cbv
  · decide
  · cbv
  · decide

end CommandLine

end NormalAlgorithm
