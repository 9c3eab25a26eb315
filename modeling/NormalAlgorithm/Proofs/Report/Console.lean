/-
  NormalAlgorithm.Proofs.Report.Console

  Lines on the console, put together from marks in a style and from other text.

    * `Console.Renders`: a console that shows marked up text for what it stands for, as long as
      the text holds no emoji code and no tab and fits on a line.
    * `isVisible`: text that is shown as it is, whatever follows it.
    * `holdsNoCode_plain_escape`: escaping and showing a text makes no emoji code.
    * `print_mark`: a line of text after a mark.
-/

import NormalAlgorithm.Proofs.Text.Markup
import NormalAlgorithm.Report.Console

namespace NormalAlgorithm.Report

open NormalAlgorithm.Text NormalAlgorithm.Text.Markup

variable {s t w : List Char}

/-! ## Consoles -/

/-- The text holds no emoji code: a name that stands for an emoji, between colons. -/
def HoldsNoCode (isEmoji : List Char → Bool) (s : List Char) : Prop :=
  ∀ name, isEmoji name = true → ¬ ':' :: (name ++ [':']) <:+: s

/-- A console that escapes text as markup has it, and shows marked up text that holds no emoji
    code and no tab and that fits. -/
structure Console.Renders (console : Console) (isEmoji : List Char → Bool)
    (fits : List Char → Prop) : Prop where
  escape_eq : ∀ s, console.escape s = Markup.escape s
  print_eq : ∀ markup, HoldsNoCode isEmoji (plain markup) → '\t' ∉ plain markup →
    fits (shown markup) → console.print markup = shown markup ++ ['\n']
  /-- The names of emoji have nothing of markup. -/
  isEmoji_plain : ∀ name, isEmoji name = true → ∀ c ∈ name, c ≠ '\\' ∧ c ≠ '['

/-- The program's console has no emoji, and everything fits. -/
theorem renders_usual : Console.usual.Renders (fun _ => false) fun _ => True where
  escape_eq _ := rfl
  print_eq _ _ _ _ := rfl
  isEmoji_plain _ h := by cases h

/-! ## Visible text -/

/-- Text without backslashes, opening brackets and characters that would move the cursor. -/
def isVisible (s : List Char) : Bool := s.all fun c => c != '\\' && c != '[' && !isCursorControl c

/-- Whether the name of a style makes a tag. -/
def isStyle (style : String) : Bool :=
  style.toList.head?.any startsTag && style.toList.tail.all (!isBracket ·)

theorem isVisible_iff :
    isVisible s = true ↔ ∀ c ∈ s, (c ≠ '\\' ∧ c ≠ '[') ∧ isCursorControl c = false := by
  simp [isVisible]

theorem filter_of_isVisible (h : isVisible s = true) : s.filter (!isCursorControl ·) = s := by
  rw [List.filter_eq_self]
  intro c hc
  rw [(isVisible_iff.mp h c hc).2]
  rfl

/-- A style's tags are not shown. -/
theorem plain_styled_append {style : String} (hstyle : isStyle style = true)
    (h : isVisible s = true) (t : List Char) : plain (styled style s ++ t) = s ++ plain t := by
  have hplain := fun c hc => (isVisible_iff.mp h c hc).1
  rw [isStyle, Bool.and_eq_true, List.all_eq_true] at hstyle
  obtain ⟨hstarts, hname⟩ := hstyle
  cases hlist : style.toList with
  | nil =>
      rw [hlist] at hstarts
      cases hstarts
  | cons c name =>
      rw [hlist] at hstarts hname
      have hbrackets : ∀ d ∈ name, isBracket d = false := fun d hd =>
        (Bool.not_eq_true' _).mp (hname d hd)
      exact plain_styled hlist hstarts hbrackets hplain t

/-- A visible front, a mark in a style, a space and other text. -/
theorem plain_mark {style : String} (hstyle : isStyle style = true) (hfront : isVisible w = true)
    (hmark : isVisible s = true) (t : List Char) :
    plain (w ++ styled style s ++ [' '] ++ t) = w ++ s ++ [' '] ++ plain t := by
  have hspace : ∀ c ∈ [' '], c ≠ '\\' ∧ c ≠ '[' := List.forall_mem_singleton.mpr (by decide)
  have hplain := fun c hc => (isVisible_iff.mp hfront c hc).1
  rw [List.append_assoc, List.append_assoc, plain_append hplain, plain_styled_append hstyle hmark,
    plain_append hspace, List.append_assoc, List.append_assoc]

/-! ## Emoji codes -/

/-- A word without backslashes and opening brackets. -/
def IsLoose (w : List Char) : Prop := ∀ c ∈ w, c ≠ '\\' ∧ c ≠ '['

/-- Every loose word in the first text is in the second one, and in front of it if it was in
    front of the first. -/
structure Within (t s : List Char) : Prop where
  front : ∀ w, IsLoose w → w <+: t → w <+: s
  inside : ∀ w, IsLoose w → w <:+: t → w <:+: s

namespace Within

theorem refl (s : List Char) : Within s s := ⟨fun _ _ h => h, fun _ _ h => h⟩

theorem cons (h : Within t s) (c : Char) : Within (c :: t) (c :: s) := by
  have hfront : ∀ w, IsLoose w → w <+: c :: t → w <+: c :: s := by
    intro w hw hwt
    rcases List.prefix_cons_iff.mp hwt with rfl | ⟨rest, rfl, hrest⟩
    · exact List.nil_prefix
    · obtain ⟨_, hloose⟩ := List.forall_mem_cons.mp hw
      exact List.cons_prefix_cons.mpr ⟨rfl, h.front rest hloose hrest⟩
  refine ⟨hfront, fun w hw hwt => ?_⟩
  rcases List.infix_cons_iff.mp hwt with hwt | hwt
  · exact (hfront w hw hwt).isInfix
  · exact List.infix_cons (h.inside w hw hwt)

theorem append_left (h : Within t s) (u : List Char) : Within (u ++ t) (u ++ s) := by
  induction u with
  | nil => exact h
  | cons c u ih => exact ih.cons c

/-- A backslash may be lost in front of a text with which no loose word begins. -/
theorem slash (h : Within t s) (ht : ∀ w, IsLoose w → w <+: t → w = []) :
    Within t ('\\' :: s) := by
  refine ⟨fun w hw hwt => ?_, fun w hw hwt => List.infix_cons (h.inside w hw hwt)⟩
  rw [ht w hw hwt]
  exact List.nil_prefix

end Within

theorem eq_nil_of_prefix_bracket (k : Nat) (hw : IsLoose w) (h : w <+: slashes k ++ '[' :: t) :
    w = [] := by
  cases k with
  | zero =>
      rcases List.prefix_cons_iff.mp h with rfl | ⟨rest, rfl, _⟩
      · rfl
      · exact absurd rfl (hw '[' List.mem_cons_self).2
  | succ k =>
      rcases List.prefix_cons_iff.mp h with rfl | ⟨rest, rfl, _⟩
      · rfl
      · exact absurd rfl (hw '\\' List.mem_cons_self).1

/-- What is shown of an escaped text has no loose word that the text does not have. All that can
    be missing are backslashes in front of brackets. -/
theorem within_plain_escapeAfter (n : Nat) (s : List Char) :
    Within (plain (escapeAfter n s)) (slashes n ++ s) := by
  induction s using markup_induction generalizing n with
  | nil =>
      rw [plain_escapeAfter_nil, List.append_nil]
      exact Within.refl _
  | slash s ih =>
      rw [plain_escapeAfter_slash, ← slashes_succ_append]
      exact ih (n + 1)
  | tag c name s hc hname ih =>
      have hrest := (ih 0).append_left (slashes n ++ '[' :: c :: (name ++ [']']))
      rw [plain_escapeAfter_tag hc hname]
      simpa [slashes_zero] using hrest
  | bracket s hs ih =>
      have hrest (k : Nat) := ((ih 0).cons '[').append_left (slashes k)
      rw [plain_escapeAfter_bracket hs]
      cases n with
      | zero => exact hrest 0
      | succ k =>
          exact (hrest k).slash fun w hw hwt => eq_nil_of_prefix_bracket k hw hwt
  | other c s hslash hopen ih =>
      rw [plain_escapeAfter_other hslash hopen]
      exact ((ih 0).cons c).append_left (slashes n)

theorem infix_of_infix_plain_escape (hw : IsLoose w) (hne : w ≠ [])
    (h : w <:+: plain (escape s)) : w <:+: s := by
  have hinside : w <:+: plain (escapeAfter 0 s) := by
    rw [plain_escape] at h
    split at h
    · rcases List.infix_concat_iff.mp h with h | h
      · -- a suffix that is not empty ends in the backslash
        rcases List.suffix_concat_iff.mp h with rfl | ⟨front, rfl, _⟩
        · exact absurd rfl hne
        · exact absurd rfl (hw '\\' (by simp)).1
      · exact h
    · rwa [List.append_nil] at h
  exact (within_plain_escapeAfter 0 s).inside w hw hinside

namespace HoldsNoCode

variable {isEmoji : List Char → Bool}

/-- A code begins with a colon. -/
theorem append_left (h : HoldsNoCode isEmoji t) (hs : ':' ∉ s) : HoldsNoCode isEmoji (s ++ t) := by
  induction s with
  | nil => exact h
  | cons c s ih =>
      intro name hname hcode
      rcases List.infix_cons_iff.mp hcode with hcode | hcode
      · exact hs (by rw [(List.cons_prefix_cons.mp hcode).1]; exact List.mem_cons_self)
      · exact ih (fun hmem => hs (List.mem_cons_of_mem _ hmem)) name hname hcode

end HoldsNoCode

/-- No code comes of escaping a text and showing it. -/
theorem holdsNoCode_plain_escape {isEmoji : List Char → Bool}
    (hplain : ∀ name, isEmoji name = true → ∀ c ∈ name, c ≠ '\\' ∧ c ≠ '[')
    (h : HoldsNoCode isEmoji s) : HoldsNoCode isEmoji (plain (escape s)) := by
  intro name hname hcode
  have hloose : IsLoose (':' :: (name ++ [':'])) := by
    intro c hc
    rw [List.mem_cons, List.mem_append, List.mem_singleton] at hc
    rcases hc with rfl | hc | rfl
    · decide
    · exact hplain name hname c hc
    · decide
  exact h name hname (infix_of_infix_plain_escape hloose (List.cons_ne_nil _ _) hcode)

theorem tab_not_mem_plain_escape (h : '\t' ∉ s) : '\t' ∉ plain (escape s) := by
  rw [plain_escape, List.mem_append]
  rintro (hmem | hmem)
  · have hsub := plain_escapeAfter_sublist 0 s
    rw [slashes_zero, List.nil_append] at hsub
    exact h (hsub.subset hmem)
  · split at hmem <;> simp at hmem

/-- A line of text after a mark in a style. -/
theorem print_mark {console : Console} {isEmoji : List Char → Bool} {fits : List Char → Prop}
    (hconsole : console.Renders isEmoji fits) {style : String} (hstyle : isStyle style = true)
    (hfront : isVisible w = true) (hmark : isVisible s = true)
    (hlead : ':' ∉ w ++ s ++ [' '] ∧ '\t' ∉ w ++ s ++ [' ']) (hcodes : HoldsNoCode isEmoji t)
    (htab : '\t' ∉ t) (hfits : fits (w ++ s ++ [' '] ++ shown (escape t))) :
    console.print (w ++ styled style s ++ [' '] ++ console.escape t) =
      w ++ s ++ [' '] ++ shown (escape t) ++ ['\n'] := by
  have hplain := plain_mark hstyle hfront hmark (escape t)
  have hshown : shown (w ++ styled style s ++ [' '] ++ escape t) =
      w ++ s ++ [' '] ++ shown (escape t) := by
    rw [shown, hplain, List.filter_append, List.filter_append, List.filter_append,
      filter_of_isVisible hfront, filter_of_isVisible hmark, shown]
    rfl
  have hcode : HoldsNoCode isEmoji (w ++ s ++ [' '] ++ plain (escape t)) :=
    (holdsNoCode_plain_escape hconsole.isEmoji_plain hcodes).append_left hlead.1
  have htabs : '\t' ∉ w ++ s ++ [' '] ++ plain (escape t) := by
    rw [List.mem_append]
    rintro (hmem | hmem)
    · exact hlead.2 hmem
    · exact tab_not_mem_plain_escape htab hmem
  rw [hconsole.escape_eq, hconsole.print_eq _ (hplain ▸ hcode) (hplain ▸ htabs) (hshown ▸ hfits),
    hshown]

end NormalAlgorithm.Report
