/-
  NormalAlgorithm.Proofs.Text.Quoted

  Quoted literals, and what becomes of them as marked up text.

  A character stands in a literal as two backslashes, as it is, or as an escape: a backslash with
  marks that are neither backslashes nor brackets (`quoteChar_cases`). So the brackets of a literal
  are those of the text, and each has a backslash in front of it if it has one there.

    * `isPrintable_of_mem_quoted`: a literal holds printable characters only.
    * `keepsSlashes_append_quoted_iff`: a literal loses a backslash when it is shown exactly if the
      text would.
-/

import NormalAlgorithm.Proofs.Text.Markup
import NormalAlgorithm.Text.Quoted

namespace NormalAlgorithm.Text

open NormalAlgorithm.Text.Markup

variable {quote c : Char}

/-! ## Characters of literals -/

/-- The two quotes. -/
def IsQuote (quote : Char) : Prop := quote = '\'' ∨ quote = '"'

/-- What may follow the backslash of an escape. -/
def escapeMarks : List Char := "'\"tnrxuU0123456789abcdef".toList

theorem isQuote_quoteFor (s : List Char) : IsQuote (quoteFor s) := by
  rw [quoteFor]
  split
  · exact .inr rfl
  · exact .inl rfl

theorem IsQuote.mem_escapeMarks (h : IsQuote quote) : quote ∈ escapeMarks := by
  rcases h with rfl | rfl
  · decide
  · decide

theorem hexDigit_mem_escapeMarks : ∀ n < 16, hexDigit n ∈ escapeMarks := by decide

theorem mem_escapeMarks_of_mem_hexDigits {width n : Nat} (h : c ∈ hexDigits width n) :
    c ∈ escapeMarks := by
  induction width generalizing n with
  | zero => cases h
  | succ width ih =>
      rw [hexDigits, List.mem_append, List.mem_singleton] at h
      rcases h with h | rfl
      · exact ih h
      · exact hexDigit_mem_escapeMarks _ (Nat.mod_lt n (by decide))

/-- The escape of a character that is not printable. -/
theorem exists_marks_of_unprintable (hc : c ≠ quote) (hslash : c ≠ '\\')
    (hprintable : isPrintable c = false) :
    ∃ e marks, quoteChar quote c = '\\' :: e :: marks ∧ ∀ d ∈ e :: marks, d ∈ escapeMarks := by
  have hletter {e : Char} {width : Nat} (he : e ∈ escapeMarks) :
      ∀ d ∈ e :: hexDigits width c.toNat, d ∈ escapeMarks :=
    List.forall_mem_cons.mpr ⟨he, fun _ => mem_escapeMarks_of_mem_hexDigits⟩
  have hplain : ¬ (decide (c = quote) || decide (c = '\\')) = true := by simp [hc, hslash]
  rw [quoteChar, if_neg hplain, hprintable, if_neg Bool.false_ne_true]
  split_ifs
  · exact ⟨'t', [], rfl, List.forall_mem_singleton.mpr (by decide)⟩
  · exact ⟨'n', [], rfl, List.forall_mem_singleton.mpr (by decide)⟩
  · exact ⟨'r', [], rfl, List.forall_mem_singleton.mpr (by decide)⟩
  · exact ⟨'x', _, rfl, hletter (by decide)⟩
  · exact ⟨'u', _, rfl, hletter (by decide)⟩
  · exact ⟨'U', _, rfl, hletter (by decide)⟩

/-- A character stands in a literal as two backslashes, as it is, or as an escape. -/
theorem quoteChar_cases (hquote : IsQuote quote) (c : Char) :
    (c = '\\' ∧ quoteChar quote c = ['\\', '\\']) ∨
    (c ≠ '\\' ∧ isPrintable c = true ∧ quoteChar quote c = [c]) ∨
    (c ≠ '\\' ∧ (IsQuote c ∨ isPrintable c = false) ∧
      ∃ e marks, quoteChar quote c = '\\' :: e :: marks ∧ ∀ d ∈ e :: marks, d ∈ escapeMarks) := by
  by_cases hslash : c = '\\'
  · exact .inl ⟨hslash, by rw [quoteChar, hslash]; simp⟩
  by_cases hc : c = quote
  · subst hc
    refine .inr (.inr ⟨hslash, .inl hquote, c, [], by simp [quoteChar], ?_⟩)
    simpa using hquote.mem_escapeMarks
  cases hprintable : isPrintable c with
  | false => exact .inr (.inr ⟨hslash, .inr rfl, exists_marks_of_unprintable hc hslash hprintable⟩)
  | true =>
      have hne {d : Char} (hd : isPrintable d = false) : c ≠ d := by
        rintro rfl
        rw [hd] at hprintable
        cases hprintable
      have ht : c ≠ '\t' := hne (by decide)
      have hn : c ≠ '\n' := hne (by decide)
      have hr : c ≠ '\r' := hne (by decide)
      exact .inr (.inl ⟨hslash, rfl, by simp [quoteChar, hc, hslash, ht, hn, hr, hprintable]⟩)

theorem isPrintable_of_mem_escapeMarks (h : c ∈ escapeMarks) : isPrintable c = true := by
  have hall : escapeMarks.all isPrintable = true := by decide
  exact List.all_eq_true.mp hall c h

theorem isPrintable_of_mem_quoteChar (hquote : IsQuote quote) {d : Char}
    (h : d ∈ quoteChar quote c) : isPrintable d = true := by
  rcases quoteChar_cases hquote c with ⟨_, heq⟩ | ⟨_, hc, heq⟩ | ⟨_, _, e, marks, heq, hmarks⟩
  · rw [heq] at h
    simp only [List.mem_cons, List.not_mem_nil, or_false, or_self] at h
    subst h
    decide
  · rw [heq, List.mem_singleton] at h
    exact h ▸ hc
  · rw [heq, List.mem_cons] at h
    rcases h with rfl | h
    · decide
    · exact isPrintable_of_mem_escapeMarks (hmarks d h)

/-- A literal holds printable characters only. -/
theorem isPrintable_of_mem_quoted {s : List Char} (h : c ∈ quoted s) : isPrintable c = true := by
  have hquote := isQuote_quoteFor s
  have hprintable := isPrintable_of_mem_escapeMarks hquote.mem_escapeMarks
  rw [quoted] at h
  simp only [List.cons_append, List.mem_cons, List.mem_append, List.mem_flatMap, List.not_mem_nil,
    or_false] at h
  rcases h with rfl | ⟨d, _, h⟩ | rfl
  · exact hprintable
  · exact isPrintable_of_mem_quoteChar hquote h
  · exact hprintable

/-! ## Brackets and tags -/

theorem isBracket_of_mem_escapeMarks (h : c ∈ escapeMarks) : isBracket c = false := by
  have hall : escapeMarks.all (!isBracket ·) = true := by decide
  exact (Bool.not_eq_true' _).mp (List.all_eq_true.mp hall c h)

theorem ne_slash_of_mem_escapeMarks (h : c ∈ escapeMarks) : c ≠ '\\' := by
  rintro rfl
  exact absurd h (by decide)

/-- A character that starts a tag is written as it is. -/
theorem startsTag_of_escaped (h : IsQuote c ∨ isPrintable c = false) : startsTag c = false := by
  rw [Bool.eq_false_iff]
  intro hstarts
  rcases h with (rfl | rfl) | hprintable
  · exact absurd hstarts (by decide)
  · exact absurd hstarts (by decide)
  · simp only [startsTag, Bool.or_eq_true, Bool.and_eq_true, decide_eq_true_eq] at hstarts
    rcases hstarts with ((⟨hlow, hhigh⟩ | rfl) | rfl) | rfl
    · have hlow' : 'a'.toNat ≤ c.toNat := hlow
      have hhigh' : c.toNat ≤ 'z'.toNat := hhigh
      have hsmall : c.toNat < 0x7F := Nat.lt_of_le_of_lt hhigh' (by decide)
      have hvisible : 0x20 ≤ c.toNat := Nat.le_trans (by decide) hlow'
      rw [isPrintable, if_pos hsmall, decide_eq_true hvisible] at hprintable
      cases hprintable
    · exact absurd hprintable (by decide)
    · exact absurd hprintable (by decide)
    · exact absurd hprintable (by decide)

/-- So is a bracket. -/
theorem isBracket_of_escaped (h : IsQuote c ∨ isPrintable c = false) : isBracket c = false := by
  rw [Bool.eq_false_iff]
  intro hbracket
  simp only [isBracket, Bool.or_eq_true, decide_eq_true_eq] at hbracket
  rcases hbracket with rfl | rfl
  · exact absurd h (by simp only [IsQuote]; decide)
  · exact absurd h (by simp only [IsQuote]; decide)

theorem find?_quoteChar (hquote : IsQuote quote) (c : Char) :
    (quoteChar quote c).find? isBracket = [c].find? isBracket := by
  rcases quoteChar_cases hquote c with ⟨rfl, heq⟩ | ⟨_, _, heq⟩ | ⟨_, hc, e, marks, heq, hmarks⟩
  · rw [heq]
    rfl
  · rw [heq]
  · have hnone : (e :: marks).find? isBracket = none := by
      rw [List.find?_eq_none]
      intro d hd
      rw [isBracket_of_mem_escapeMarks (hmarks d hd)]
      exact Bool.false_ne_true
    rw [heq, List.find?_cons_of_neg (by decide), hnone, List.find?_cons_of_neg]
    · rfl
    · rw [isBracket_of_escaped hc]
      exact Bool.false_ne_true

/-- The inside of a literal and its closing quote. -/
def quotedTail (quote : Char) (s : List Char) : List Char := s.flatMap (quoteChar quote) ++ [quote]

theorem quotedTail_cons (quote c : Char) (s : List Char) :
    quotedTail quote (c :: s) = quoteChar quote c ++ quotedTail quote s := by
  rw [quotedTail, List.flatMap_cons, List.append_assoc, quotedTail]

/-- A literal has the brackets of the text. -/
theorem find?_quotedTail (hquote : IsQuote quote) (s : List Char) :
    (quotedTail quote s).find? isBracket = s.find? isBracket := by
  induction s with
  | nil =>
      rcases hquote with rfl | rfl
      · rfl
      · rfl
  | cons c s ih =>
      rw [quotedTail_cons, List.find?_append, find?_quoteChar hquote, ih, ← List.find?_append,
        List.singleton_append]

/-- A literal goes on as a tag where the text does. -/
theorem opensTag_quotedTail_iff (hquote : IsQuote quote) (s : List Char) :
    OpensTag (quotedTail quote s) ↔ OpensTag s := by
  cases s with
  | nil =>
      refine iff_of_false ?_ not_opensTag_nil
      rw [quotedTail, List.flatMap_nil, List.nil_append, opensTag_cons_iff]
      rintro ⟨hstarts, _⟩
      rw [startsTag_of_escaped (.inl hquote)] at hstarts
      cases hstarts
  | cons c s =>
      rw [quotedTail_cons]
      rcases quoteChar_cases hquote c with ⟨rfl, heq⟩ | ⟨_, _, heq⟩ | ⟨_, hc, e, marks, heq, _⟩
      · rw [heq]
        exact iff_of_false (not_opensTag_slash _) (not_opensTag_slash s)
      · rw [heq, List.singleton_append, opensTag_cons_iff, opensTag_cons_iff,
          find?_quotedTail hquote]
      · rw [heq]
        refine iff_of_false (not_opensTag_slash _) ?_
        rw [opensTag_cons_iff, startsTag_of_escaped hc]
        exact fun h => Bool.false_ne_true h.1

/-! ## Backslashes -/

theorem keepsSlashes_append_iff {front : List Char} (hfront : ∀ c ∈ front, c ≠ '\\')
    (s : List Char) : KeepsSlashes (front ++ s) ↔ KeepsSlashes s := by
  induction front with
  | nil => rfl
  | cons c front ih =>
      obtain ⟨hc, hfront⟩ := List.forall_mem_cons.mp hfront
      rw [List.cons_append, keepsSlashes_of_ne hc, ih hfront]

/-- Only a bracket in front asks for a tag after it. -/
theorem opensTag_of_isBracket_eq_false {t v : List Char} (hc : isBracket c = false)
    (h : c :: t = '[' :: v) : OpensTag v := by
  rw [(List.cons.inj h).1] at hc
  cases hc

/-- What a literal has to be in order to keep a backslash in front of it. -/
theorem opensTag_of_bracket_iff (hquote : IsQuote quote) (s : List Char) :
    (∀ v, quotedTail quote s = '[' :: v → OpensTag v) ↔ ∀ v, s = '[' :: v → OpensTag v := by
  cases s with
  | nil =>
      have hbracket := isBracket_of_escaped (.inl hquote)
      exact iff_of_true (fun _ => opensTag_of_isBracket_eq_false hbracket) (fun v hv => by cases hv)
  | cons c s =>
      rw [quotedTail_cons]
      rcases quoteChar_cases hquote c with ⟨rfl, heq⟩ | ⟨_, _, heq⟩ | ⟨_, hc, e, marks, heq, _⟩
      · rw [heq]
        exact iff_of_true (fun _ => opensTag_of_isBracket_eq_false (by decide))
          (fun _ => opensTag_of_isBracket_eq_false (by decide))
      · rw [heq, List.singleton_append]
        constructor
        · rintro h v hv
          obtain ⟨rfl, rfl⟩ := List.cons.inj hv
          exact (opensTag_quotedTail_iff hquote s).mp (h _ rfl)
        · rintro h v hv
          obtain ⟨rfl, rfl⟩ := List.cons.inj hv
          exact (opensTag_quotedTail_iff hquote s).mpr (h s rfl)
      · rw [heq]
        exact iff_of_true (fun _ => opensTag_of_isBracket_eq_false (by decide))
          (fun _ => opensTag_of_isBracket_eq_false (isBracket_of_escaped hc))

theorem keepsSlashes_quotedTail_iff (hquote : IsQuote quote) (s : List Char) :
    KeepsSlashes (quotedTail quote s) ↔ KeepsSlashes s := by
  induction s with
  | nil =>
      refine iff_of_true ?_ keepsSlashes_nil
      rw [quotedTail, List.flatMap_nil, List.nil_append,
        keepsSlashes_of_ne (ne_slash_of_mem_escapeMarks hquote.mem_escapeMarks)]
      exact keepsSlashes_nil
  | cons c s ih =>
      rw [quotedTail_cons]
      rcases quoteChar_cases hquote c with
        ⟨rfl, heq⟩ | ⟨hc, _, heq⟩ | ⟨hc, _, e, marks, heq, hmarks⟩
      · have htwo : ['\\', '\\'] = slashes 2 := rfl
        have hone : '\\' :: s = slashes 1 ++ s := rfl
        rw [heq, htwo, hone, keepsSlashes_slashes_iff, keepsSlashes_slashes_iff, ih,
          opensTag_of_bracket_iff hquote]
        simp
      · rw [heq, List.singleton_append, keepsSlashes_of_ne hc, keepsSlashes_of_ne hc, ih]
      · have hnone : ∀ d ∈ e :: marks, d ≠ '\\' := fun d hd =>
          ne_slash_of_mem_escapeMarks (hmarks d hd)
        have hbracket := isBracket_of_mem_escapeMarks (hmarks e List.mem_cons_self)
        rw [heq, keepsSlashes_of_ne hc, List.cons_append, keepsSlashes_cons_iff,
          keepsSlashes_append_iff hnone, ih]
        exact ⟨And.right, fun h => ⟨fun _ _ => opensTag_of_isBracket_eq_false hbracket, h⟩⟩

/-- A literal loses a backslash when it is shown exactly if the text would. -/
theorem keepsSlashes_append_quoted_iff {front : List Char} (hfront : ∀ c ∈ front, c ≠ '\\')
    (s : List Char) : KeepsSlashes (front ++ quoted s) ↔ KeepsSlashes s := by
  have hquote := isQuote_quoteFor s
  have hquoted : quoted s = quoteFor s :: quotedTail (quoteFor s) s := rfl
  rw [keepsSlashes_append_iff hfront, hquoted,
    keepsSlashes_of_ne (ne_slash_of_mem_escapeMarks hquote.mem_escapeMarks),
    keepsSlashes_quotedTail_iff hquote]

end NormalAlgorithm.Text
