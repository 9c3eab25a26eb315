/-
  NormalAlgorithm.Proofs.Json.Feed

  The control characters in the text of a JSON value.

  A text is written without any, whatever characters it holds, and so are numbers and words. What
  is left are the blanks of the layout. They stand at the seams of a value, whose number does not
  depend on the texts in it.

    * `seams`: the number of places at which a layout puts blanks.
    * `Layout.Feeds`: a layout whose blanks hold a fixed number of line feeds, and no other control
      character.
    * `Faithful.controls_write`: the control characters of a value written in such a layout.
-/

import NormalAlgorithm.Proofs.Json.Layout

namespace NormalAlgorithm.Json

open NormalAlgorithm.Text

/-! ## Control characters -/

/-- The characters below U+0020. -/
def isControl (c : Char) : Bool := c.toNat < 0x20

/-- The control characters of a text. -/
def controls (s : List Char) : List Char := s.filter isControl

@[simp] theorem controls_nil : controls [] = [] := rfl

@[simp] theorem controls_append (s t : List Char) : controls (s ++ t) = controls s ++ controls t :=
  List.filter_append s t

theorem controls_cons {c : Char} (h : isControl c = false) (s : List Char) :
    controls (c :: s) = controls s :=
  List.filter_cons_of_neg (Bool.eq_false_iff.mp h)

theorem controls_eq_nil_iff {s : List Char} : controls s = [] ↔ ∀ c ∈ s, 0x20 ≤ c.toNat := by
  simp [controls, isControl, List.filter_eq_nil_iff]

/-- If the control characters of a text are line feeds, it has as many of these. -/
theorem count_feed_of_controls {s : List Char} {n : Nat}
    (h : controls s = List.replicate n '\n') : s.count '\n' = n := by
  have hcount : (controls s).count '\n' = s.count '\n' := List.count_filter (by decide)
  rw [← hcount, h, List.count_replicate_self]

theorem eq_feed_of_controls {s : List Char} {n : Nat} (h : controls s = List.replicate n '\n')
    {c : Char} (hc : c ∈ s) (hcontrol : c.toNat < 0x20) : c = '\n' := by
  have hmem : c ∈ controls s := List.mem_filter.mpr ⟨hc, decide_eq_true hcontrol⟩
  rw [h] at hmem
  exact List.eq_of_mem_replicate hmem

/-! ## Values that hold no others -/

theorem isControl_hexDigit : ∀ n < 16, isControl (hexDigit n) = false := by decide

theorem controls_hexDigits (width n : Nat) : controls (hexDigits width n) = [] := by
  induction width generalizing n with
  | zero => rfl
  | succ width ih =>
      have hdigit := isControl_hexDigit (n % 16) (Nat.mod_lt n (by decide))
      rw [hexDigits, controls_append, ih, controls_cons hdigit]
      rfl

/-- The letters of escapes are no control characters. -/
theorem isControl_of_unescape? {e c : Char} (h : unescape? e = some c) : isControl e = false := by
  fun_cases unescape? e with
  | case9 => simp_all [unescape?]
  | _ => decide

/-- A character is written without control characters, also if it is one. -/
theorem controls_escapeChar (c : Char) : controls (escapeChar c) = [] := by
  rcases escapeChar_cases c with ⟨e, _, he, hc⟩ | ⟨_, hc⟩ | ⟨_, _, hplain, hc⟩
  · rw [hc, controls_cons (by decide), controls_cons (isControl_of_unescape? he), controls_nil]
  · rw [hc, controls_cons (by decide), controls_cons (by decide), controls_hexDigits]
  · rw [hc, controls_eq_nil_iff]
    simpa using hplain

theorem controls_stringText (s : List Char) : controls (stringText s) = [] := by
  have hescaped : controls (s.flatMap escapeChar) = [] := by
    induction s with
    | nil => rfl
    | cons c s ih =>
        rw [List.flatMap_cons, controls_append, controls_escapeChar, ih, List.nil_append]
  rw [stringText, List.cons_append, controls_cons (by decide), controls_append, hescaped]
  rfl

theorem controls_decimal (n : Nat) : controls (decimal n) = [] := by
  rw [controls_eq_nil_iff]
  intro c hc
  have hdigit := isDigit_of_mem_decimal hc
  rw [Char.isDigit, Bool.and_eq_true, decide_eq_true_eq, decide_eq_true_eq] at hdigit
  have hzero : '0'.toNat ≤ c.toNat := hdigit.1
  exact Nat.le_trans (by decide) hzero

theorem controls_decimalInt (n : Int) : controls (decimalInt n) = [] := by
  cases n with
  | ofNat n => exact controls_decimal n
  | negSucc n => rw [decimalInt, controls_cons (by decide), controls_decimal]

/-! ## Seams -/

mutual

/-- The number of places in a value at which a layout puts blanks. -/
def seams : Json → Nat
  | .arr (x :: xs) => 1 + seams x + seamsOfItems xs + 1
  | .obj ((_, v) :: fs) => 1 + seams v + seamsOfFields fs + 1
  | _ => 0

/-- Those of the items after the first. -/
def seamsOfItems : List Json → Nat
  | [] => 0
  | x :: xs => 1 + seams x + seamsOfItems xs

/-- Those of the fields after the first. -/
def seamsOfFields : List (List Char × Json) → Nat
  | [] => 0
  | (_, v) :: fs => 1 + seams v + seamsOfFields fs

end

/-- The blanks that a layout puts at a seam hold this many line feeds and no other control
    characters. -/
structure Layout.Feeds (l : Layout) (n : Nat) : Prop where
  first : ∀ level, controls (l.first level) = List.replicate n '\n'
  next : ∀ level, controls (l.next level) = List.replicate n '\n'
  last : ∀ level, controls (l.last level) = List.replicate n '\n'

theorem feeds_oneLine : Layout.oneLine.Feeds 0 := ⟨fun _ => rfl, fun _ => rfl, fun _ => rfl⟩

theorem controls_newline (level : Nat) : controls (newline level) = ['\n'] := by
  have hblanks : controls (List.replicate (2 * level) ' ') = [] :=
    List.filter_replicate_of_neg (by decide)
  rw [newline, ← List.singleton_append, controls_append, hblanks]
  rfl

theorem feeds_indented : Layout.indented.Feeds 1 :=
  ⟨controls_newline, controls_newline, controls_newline⟩

variable {l : Layout} {n : Nat}

theorem controls_writeItems {xs : List Json} (hl : l.Feeds n)
    (h : ∀ x ∈ xs, ∀ level, controls (l.write level x) = List.replicate (n * seams x) '\n')
    (level : Nat) :
    controls (l.writeItems level xs) = List.replicate (n * seamsOfItems xs) '\n' := by
  induction xs with
  | nil => rfl
  | cons x xs ih =>
      obtain ⟨hx, hxs⟩ := List.forall_mem_cons.mp h
      have htext : l.writeItems level (x :: xs) =
          [','] ++ l.next level ++ l.write level x ++ l.writeItems level xs := rfl
      have hcomma : controls [','] = [] := by decide
      rw [htext, seamsOfItems]
      simp only [controls_append, hcomma, hl.next level, hx level, ih hxs,
        List.nil_append, List.replicate_append_replicate, Nat.mul_add, Nat.mul_one]

theorem controls_writeFields {fs : List (List Char × Json)} (hl : l.Feeds n)
    (h : ∀ f ∈ fs, ∀ level, controls (l.write level f.2) = List.replicate (n * seams f.2) '\n')
    (level : Nat) :
    controls (l.writeFields level fs) = List.replicate (n * seamsOfFields fs) '\n' := by
  induction fs with
  | nil => rfl
  | cons f fs ih =>
      obtain ⟨hf, hfs⟩ := List.forall_mem_cons.mp h
      have htext : l.writeFields level (f :: fs) =
          [','] ++ l.next level ++ stringText f.1 ++ [':', ' '] ++ l.write level f.2 ++
            l.writeFields level fs := rfl
      have hcomma : controls [','] = [] := by decide
      have hcolon : controls [':', ' '] = [] := by decide
      rw [htext, seamsOfFields]
      simp only [controls_append, hcomma, hcolon, controls_stringText, hl.next level, hf level,
        ih hfs, List.nil_append, List.append_nil, List.replicate_append_replicate, Nat.mul_add,
        Nat.mul_one]

/-- The control characters of a written value are the line feeds of the layout, at each seam. -/
theorem Faithful.controls_write {j : Json} (h : Faithful j) (hl : l.Feeds n) (level : Nat) :
    controls (l.write level j) = List.replicate (n * seams j) '\n' := by
  induction h generalizing level with
  | null => rfl
  | bool b => cases b <;> rfl
  | int i => exact controls_decimalInt i
  | str s => exact controls_stringText s
  | @arr xs _ ih =>
      cases xs with
      | nil => rfl
      | cons x xs =>
          obtain ⟨hx, hxs⟩ := List.forall_mem_cons.mp ih
          have htext : l.write level (.arr (x :: xs)) =
              ['['] ++ l.first (level + 1) ++ l.write (level + 1) x ++
                l.writeItems (level + 1) xs ++ l.last level ++ [']'] := rfl
          have hopen : controls ['['] = [] := by decide
          have hclose : controls [']'] = [] := by decide
          rw [htext, seams]
          simp only [controls_append, hopen, hclose, hl.first, hl.last, hx (level + 1),
            controls_writeItems hl hxs, List.nil_append, List.append_nil,
            List.replicate_append_replicate, Nat.mul_add, Nat.mul_one]
  | @obj fs _ _ ih =>
      cases fs with
      | nil => rfl
      | cons f fs =>
          obtain ⟨hf, hfs⟩ := List.forall_mem_cons.mp ih
          have htext : l.write level (.obj (f :: fs)) =
              ['\x7b'] ++ l.first (level + 1) ++ stringText f.1 ++ [':', ' '] ++
                l.write (level + 1) f.2 ++ l.writeFields (level + 1) fs ++ l.last level ++
                ['\x7d'] := rfl
          have hopen : controls ['\x7b'] = [] := by decide
          have hcolon : controls [':', ' '] = [] := by decide
          have hclose : controls ['\x7d'] = [] := by decide
          rw [htext, seams]
          simp only [controls_append, hopen, hcolon, hclose, controls_stringText, hl.first, hl.last,
            hf (level + 1), controls_writeFields hl hfs, List.nil_append, List.append_nil,
            List.replicate_append_replicate, Nat.mul_add, Nat.mul_one]

/-- On one line there are none. -/
theorem Faithful.controls_compact {j : Json} (h : Faithful j) : controls j.compact = [] := by
  rw [h.compact_eq 0, h.controls_write feeds_oneLine, Nat.zero_mul, List.replicate_zero]

/-- Indented, there is a line feed at every seam. -/
theorem Faithful.controls_pretty {j : Json} (h : Faithful j) :
    controls j.pretty = List.replicate (seams j) '\n' := by
  rw [pretty, h.prettyAt_eq 0, h.controls_write feeds_indented, Nat.one_mul]

end NormalAlgorithm.Json
