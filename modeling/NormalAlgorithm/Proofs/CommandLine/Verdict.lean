/-
  NormalAlgorithm.Proofs.CommandLine.Verdict

  The command `check` as a whole: every statement has its own verdict, whatever stands before and
  after it.

  A statement that makes no rule is quoted in the text of its fault. That text holds printable
  characters only and ends in a quote, so all that it can lose on a console that renders markup are
  backslashes in front of brackets, and it loses one exactly if the statement would.

    * `message_of_compile_error`: the text of a fault, with the statement in quotes at its end.
    * `shown_message_eq_self_iff`: when the console shows it as it is.
    * `check_judges_each_statement`: the lines and the exit code for any statements.
    * `check_alters_message`: a fault whose text the program shows as another.
-/

import NormalAlgorithm.Proofs.CommandLine.Check
import NormalAlgorithm.Proofs.Text.Quoted

namespace NormalAlgorithm

open NormalAlgorithm.Text NormalAlgorithm.Text.Markup

/-! ## Texts of faults -/

namespace Statement

/-- Why a text can be refused. -/
def reasons : List String :=
  ["Invalid statement: ", "Invalid statement, there is no LHS: ",
    "Invalid statement, there is no RHS: ",
    "Invalid statement, LHS contains two empty word markers: ",
    "Invalid statement, RHS contains two empty word markers: "]

theorem toList_append_quoted (reason : String) (s : List Char) :
    (reason ++ String.ofList (quoted s)).toList = reason.toList ++ quoted s := by
  rw [String.toList_append, String.toList_ofList]

/-- The text of a fault is one of five reasons, and the statement in quotes. -/
theorem message_of_compile_error {s : List Char} {fault : StatementFault}
    (h : compile s = .error fault) :
    ∃ reason ∈ reasons, fault.message.toList = reason.toList ++ quoted s := by
  cases hread : read? s with
  | none =>
      rw [compile, hread] at h
      obtain rfl := Except.error.inj h
      exact ⟨"Invalid statement: ", by simp [reasons], toList_append_quoted _ s⟩
  | some p =>
      rw [compile_of_longestReading (read?_eq_some_iff.mp hread)] at h
      -- every complaint about the sides quotes the statement after a reason of its own
      split_ifs at h <;> obtain rfl := Except.error.inj h <;>
        exact ⟨_, by simp [reasons], toList_append_quoted _ s⟩

theorem visible_of_mem_reasons {reason : String} (h : reason ∈ reasons) :
    Report.isVisible reason.toList = true ∧ '\t' ∉ reason.toList := by
  have hall : reasons.all (fun reason =>
      Report.isVisible reason.toList && !reason.toList.contains '\t') = true := by decide
  have hreason := List.all_eq_true.mp hall reason h
  rw [Bool.and_eq_true, Bool.not_eq_true', List.contains_eq_mem, decide_eq_false_iff_not] at hreason
  exact hreason

end Statement

/-! ## Shown faults -/

namespace Report

theorem isCursorControl_of_isPrintable {c : Char} (h : isPrintable c = true) :
    isCursorControl c = false := by
  rw [Bool.eq_false_iff]
  intro hcontrol
  simp only [isCursorControl, Bool.or_eq_true, decide_eq_true_eq] at hcontrol
  rcases hcontrol with (((rfl | rfl) | rfl) | rfl) | rfl <;> exact absurd h (by decide)

/-- A text in quotes after visible text is shown as it is exactly if no bracket of the text takes
    away a backslash. -/
theorem shown_append_quoted_eq_self_iff {front : List Char} (hfront : isVisible front = true)
    (s : List Char) :
    shown (escape (front ++ quoted s)) = front ++ quoted s ↔ KeepsSlashes s := by
  have hplain := isVisible_iff.mp hfront
  have hquote := (isQuote_quoteFor s).mem_escapeMarks
  have hends : endsInOneSlash (front ++ quoted s) = false := by
    rw [quoted, List.cons_append, ← List.cons_append, ← List.append_assoc]
    exact endsInOneSlash_concat_other (ne_slash_of_mem_escapeMarks hquote) _
  have hcontrols : ∀ c ∈ front ++ quoted s, (!isCursorControl c) = true := by
    intro c hc
    rw [Bool.not_eq_true']
    rcases List.mem_append.mp hc with hc | hc
    · exact (hplain c hc).2
    · exact isCursorControl_of_isPrintable (isPrintable_of_mem_quoted hc)
  rw [shown, filter_plain_escape_eq_self_iff (by decide),
    keepsSlashes_append_quoted_iff fun c hc => (hplain c hc).1.1]
  exact ⟨fun h => h.2.1, fun h => ⟨hends, h, hcontrols⟩⟩

end Report

namespace CommandLine

open NormalAlgorithm.Report

/-- The text of a fault is shown as it is exactly if no bracket of the statement takes away a
    backslash. -/
theorem shown_message_eq_self_iff {s : List Char} {fault : StatementFault}
    (h : Statement.compile s = .error fault) :
    shown (escape fault.message.toList) = fault.message.toList ↔ KeepsSlashes s := by
  obtain ⟨reason, hreason, hmessage⟩ := Statement.message_of_compile_error h
  rw [hmessage]
  exact shown_append_quoted_eq_self_iff (Statement.visible_of_mem_reasons hreason).1 s

variable {p : Platform} {w : World} {isEmoji : List Char → Bool} {fits : List Char → Prop}

theorem tab_not_mem_message {s : List Char} {fault : StatementFault}
    (h : Statement.compile s = .error fault) : '\t' ∉ fault.message.toList := by
  obtain ⟨reason, hreason, hmessage⟩ := Statement.message_of_compile_error h
  rw [hmessage, List.mem_append]
  rintro (hmem | hmem)
  · exact (Statement.visible_of_mem_reasons hreason).2 hmem
  · exact absurd (isPrintable_of_mem_quoted hmem) (by decide)

theorem statementLine_of_error (hconsole : p.console.Renders isEmoji fits) {s : List Char}
    {fault : StatementFault} (h : Statement.compile s = .error fault)
    (hcodes : HoldsNoCode isEmoji fault.message.toList)
    (hfits : fits ('✗' :: ' ' :: shown (escape fault.message.toList))) :
    statementLine p.console s = '✗' :: ' ' :: shown (escape fault.message.toList) ++ ['\n'] := by
  rw [statementLine, h]
  exact print_mark (w := []) hconsole (by decide) (by decide) (by decide) (by decide) hcodes
    (tab_not_mem_message h) hfits

/-! ## Command lines -/

theorem isSound_iff {s : List Char} :
    isSound s = true ↔ ∃ rule, Statement.compile s = .ok rule := by
  rw [isSound]
  cases Statement.compile s with
  | ok rule => exact iff_of_true rfl ⟨rule, rfl⟩
  | error fault =>
      refine iff_of_false Bool.false_ne_true ?_
      rintro ⟨rule, hrule⟩
      cases hrule

/-- A transcript that prints an item for each statement and nothing else, and has the exit code 1
    exactly if one of them makes no rule. -/
structure Judged (item : List Char → List Char) (statements : List (List Char)) (t : Transcript) :
    Prop where
  events : t.events = [.printed (statements.flatMap item)]
  refused : t.exitCode = 1 ↔ ∃ s ∈ statements, ∃ fault, Statement.compile s = .error fault
  accepted : t.exitCode = 0 ↔ ∀ s ∈ statements, ∃ rule, Statement.compile s = .ok rule
  errors : t.errors = []
  abort : t.abort = none

theorem judged_executeCheck (p : Platform) (statements : List (List Char)) :
    Judged (statementLine p.console) statements (executeCheck p statements) := by
  have hcode : (executeCheck p statements).exitCode =
      if statements.all isSound then 0 else 1 := rfl
  cases hall : statements.all isSound with
  | true =>
      have hrules : ∀ s ∈ statements, ∃ rule, Statement.compile s = .ok rule := fun s hs =>
        isSound_iff.mp (List.all_eq_true.mp hall s hs)
      rw [hall, if_pos rfl] at hcode
      refine ⟨rfl, ?_, iff_of_true hcode hrules, rfl, rfl⟩
      rw [hcode]
      refine iff_of_false Nat.zero_ne_one ?_
      rintro ⟨s, hs, fault, hfault⟩
      obtain ⟨rule, hrule⟩ := hrules s hs
      rw [hrule] at hfault
      cases hfault
  | false =>
      obtain ⟨s, hs, hsound⟩ := List.all_eq_false.mp hall
      have hfault : ∃ fault, Statement.compile s = .error fault := by
        rw [isSound_iff] at hsound
        cases hcompile : Statement.compile s with
        | ok rule => exact absurd ⟨rule, hcompile⟩ hsound
        | error fault => exact ⟨fault, rfl⟩
      rw [hall, if_neg Bool.false_ne_true] at hcode
      refine ⟨rfl, iff_of_true hcode ⟨s, hs, hfault⟩, ?_, rfl, rfl⟩
      rw [hcode]
      refine iff_of_false Nat.one_ne_zero ?_
      intro hrules
      exact hsound (isSound_iff.mpr (hrules s hs))

theorem judged_of_check {args : List Arg} {level : Journal.Level} {statements : List (List Char)}
    (hread : p.readArguments w.files args = .ok ⟨level, .check statements⟩) :
    Judged (statementLine p.console) statements (execute p w args) := by
  rw [execute_of_check hread]
  exact judged_executeCheck p statements

/-- What the console prints for a rule and for a fault, after a tick and after a cross. On a console
    that renders markup this is what escaping and showing make of the form of the rule and of the
    text of the fault, as long as these hold no emoji code and fit; and the text of a fault is shown
    as it is exactly if every bracket of the statement with a backslash in front of it opens a
    tag. -/
structure TellsVerdict (console : Console) (item : List Char → List Char) : Prop where
  tick : ∀ s rule, Statement.compile s = .ok rule →
    item s = console.print (styled "green" ['✓'] ++ [' '] ++ console.escape rule.render)
  cross : ∀ s fault, Statement.compile s = .error fault →
    item s = console.print (styled "red" ['✗'] ++ [' '] ++ console.escape fault.message.toList)
  form : ∀ isEmoji fits, console.Renders isEmoji fits →
    ∀ s rule, Statement.compile s = .ok rule → HoldsNoCode isEmoji rule.render →
      fits ('✓' :: ' ' :: shown (escape rule.render)) →
      item s = '✓' :: ' ' :: shown (escape rule.render) ++ ['\n']
  message : ∀ isEmoji fits, console.Renders isEmoji fits →
    ∀ s fault, Statement.compile s = .error fault → HoldsNoCode isEmoji fault.message.toList →
      fits ('✗' :: ' ' :: shown (escape fault.message.toList)) →
      item s = '✗' :: ' ' :: shown (escape fault.message.toList) ++ ['\n'] ∧
        (item s = '✗' :: ' ' :: fault.message.toList ++ ['\n'] ↔ KeepsSlashes s)

theorem tellsVerdict_statementLine (p : Platform) :
    TellsVerdict p.console (statementLine p.console) where
  tick s rule h := by rw [statementLine, h]
  cross s fault h := by rw [statementLine, h]
  form isEmoji fits hconsole s rule h hcodes hfits := statementLine_of_ok hconsole h hcodes hfits
  message isEmoji fits hconsole s fault h hcodes hfits := by
    rw [statementLine_of_error hconsole h hcodes hfits, ← shown_message_eq_self_iff h]
    exact ⟨rfl, by simp⟩

/-- The command `check` judges each statement by itself, on every platform: what it prints for
    statements one after the other is what it prints for the first and then for the others.

    There is an item for each statement, which depends on nothing else. It has a tick and the
    statement form of the rule, or a cross and the text of the fault (`TellsVerdict`). The exit code
    is 1 exactly if a statement makes no rule, wherever it stands, and otherwise 0. -/
theorem check_judges_each_statement (p : Platform) (w : World) {xs ys : List (List Char)}
    {first second both : List Arg} {level level' level'' : Journal.Level}
    (hxs : p.readArguments w.files first = .ok ⟨level, .check xs⟩)
    (hys : p.readArguments w.files second = .ok ⟨level', .check ys⟩)
    (hboth : p.readArguments w.files both = .ok ⟨level'', .check (xs ++ ys)⟩) :
    ∃ item, TellsVerdict p.console item ∧ Judged item xs (execute p w first) ∧
      Judged item ys (execute p w second) ∧ Judged item (xs ++ ys) (execute p w both) ∧
      (execute p w both).text = (execute p w first).text ++ (execute p w second).text := by
  refine ⟨statementLine p.console, tellsVerdict_statementLine p, judged_of_check hxs,
    judged_of_check hys, judged_of_check hboth, ?_⟩
  rw [execute_of_check hxs, execute_of_check hys, execute_of_check hboth]
  simp [Transcript.text, executeCheck, checkText]

/-- The command line that checks statements, whatever these look like. -/
def checkLine (statements : List (List Char)) : List Arg :=
  "check".toList :: ['-', '-'] :: statements

theorem read_checkLine {statements : List (List Char)} (h : statements ≠ []) :
    Platform.usual.readArguments emptyWorld.files (checkLine statements) =
      .ok ⟨.warning, .check statements⟩ := by
  cases statements with
  | nil => exact absurd rfl h
  | cons s rest => rfl

/-- A statement without a reading between two that make rules. -/
theorem check_judges_each_statement_bad_middle :
    let good := ['a', '-', '>', 'b']
    let bad := ['[', 'b', ']']
    let last := ['x', '=', '>', '.', '!']
    let checked := execute .usual emptyWorld (checkLine ([good] ++ [bad, last]))
    checked.exitCode = 1 ∧
      checked.events = [.printed (['✓', ' ', 'a', ' ', '-', '>', ' ', 'b', '\n'] ++
        ('✗' :: ' ' :: ("Invalid statement: ".toList ++ quoted bad) ++ ['\n']) ++
        ['✓', ' ', 'x', ' ', '-', '>', '.', ' ', '!', '\n'])] := by
  intro good bad last checked
  obtain ⟨item, htells, _, _, hjudged, _⟩ :=
    check_judges_each_statement .usual emptyWorld (read_checkLine (List.cons_ne_nil good []))
      (read_checkLine (List.cons_ne_nil bad [last]))
      (read_checkLine (List.cons_ne_nil good [bad, last]))
  have hgood : item good = ['✓', ' ', 'a', ' ', '-', '>', ' ', 'b', '\n'] := by
    obtain ⟨rule, hrule, hrender⟩ : ∃ rule, Statement.compile good = .ok rule ∧
        rule.render = ['a', ' ', '-', '>', ' ', 'b'] := ⟨_, rfl, rfl⟩
    rw [htells.form _ _ renders_usual good rule hrule (holdsNoCode_usual _) trivial, hrender]
    cbv
  have hlast : item last = ['✓', ' ', 'x', ' ', '-', '>', '.', ' ', '!', '\n'] := by
    obtain ⟨rule, hrule, hrender⟩ : ∃ rule, Statement.compile last = .ok rule ∧
        rule.render = ['x', ' ', '-', '>', '.', ' ', '!'] := ⟨_, rfl, rfl⟩
    rw [htells.form _ _ renders_usual last rule hrule (holdsNoCode_usual _) trivial, hrender]
    cbv
  have hbad : item bad = '✗' :: ' ' :: ("Invalid statement: ".toList ++ quoted bad) ++ ['\n'] := by
    have hkeeps : KeepsSlashes (bad ++ []) :=
      (keepsSlashes_append_iff (by simp [bad]) []).mpr keepsSlashes_nil
    have hmessage := htells.message _ _ renders_usual bad (.unreadable (.text bad)) rfl
      (holdsNoCode_usual _) trivial
    rw [hmessage.2.mpr hkeeps]
    exact congrArg (fun text => '✗' :: ' ' :: text ++ ['\n'])
      (Statement.toList_append_quoted "Invalid statement: " bad)
  refine ⟨hjudged.refused.mpr ⟨bad, by simp, .unreadable (.text bad), rfl⟩, ?_⟩
  rw [hjudged.events]
  simp [hgood, hbad, hlast]

/-- A bracket takes away one of the two backslashes in the text of a fault. -/
theorem check_alters_message :
    ∃ fault, Statement.compile ['\\', '[', 'B'] = .error fault ∧
      fault.message.toList = "Invalid statement: ".toList ++ ['\'', '\\', '\\', '[', 'B', '\''] ∧
      (execute .usual emptyWorld ["check".toList, ['\\', '[', 'B']]).events =
        [.printed ('✗' :: ' ' :: "Invalid statement: ".toList ++
          ['\'', '\\', '[', 'B', '\'', '\n'])] := by
  have hfault : Statement.compile ['\\', '[', 'B'] =
      .error (.unreadable (.text ['\\', '[', 'B'])) := rfl
  have hquoted : quoted ['\\', '[', 'B'] = ['\'', '\\', '\\', '[', 'B', '\''] := by decide
  have hmessage : (StatementFault.unreadable (.text ['\\', '[', 'B'])).message.toList =
      "Invalid statement: ".toList ++ ['\'', '\\', '\\', '[', 'B', '\''] := by
    rw [← hquoted]
    exact Statement.toList_append_quoted "Invalid statement: " ['\\', '[', 'B']
  have hreason : "Invalid statement: ".toList = ['I', 'n', 'v', 'a', 'l', 'i', 'd', ' ', 's', 't',
    'a', 't', 'e', 'm', 'e', 'n', 't', ':', ' '] := rfl
  have hshown : shown (escape ("Invalid statement: ".toList ++
      ['\'', '\\', '\\', '[', 'B', '\''])) =
        "Invalid statement: ".toList ++ ['\'', '\\', '[', 'B', '\''] := by
    rw [hreason]
    cbv
  have hline := statementLine_of_error (p := .usual) renders_usual hfault (holdsNoCode_usual _)
    trivial
  refine ⟨_, hfault, hmessage, ?_⟩
  have hread : Platform.usual.readArguments emptyWorld.files ["check".toList, ['\\', '[', 'B']] =
      .ok ⟨.warning, .check [['\\', '[', 'B']]⟩ := rfl
  rw [execute_of_check hread, executeCheck, checkText, List.flatMap_singleton, hline, hmessage,
    hshown]
  rfl

end CommandLine

end NormalAlgorithm
