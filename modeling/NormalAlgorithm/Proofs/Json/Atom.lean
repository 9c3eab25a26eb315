/-
  NormalAlgorithm.Proofs.Json.Atom

  Texts, integers and words that are written as JSON and read back.

    * `readQuoted_escaped`: a text comes back from between its quotes, whatever characters
      it holds.
    * `readAtom_decimalInt`: an integer comes back if what follows cannot be part of a
      number (`Delimited`).
    * `readValue_of_space`: blanks before a value do not count.
-/

import Mathlib.Data.List.Basic
import NormalAlgorithm.Json.Printer
import NormalAlgorithm.Json.Reader

namespace NormalAlgorithm.Json

open NormalAlgorithm.Text NormalAlgorithm.Number

/-! ## Blanks -/

/-- Text that consists of JSON blanks. -/
def AllSpace (b : List Char) : Prop := ∀ c ∈ b, isSpace c = true

theorem skipSpace_append {b : List Char} (h : AllSpace b) (s : List Char) :
    skipSpace (b ++ s) = skipSpace s :=
  List.dropWhile_append_of_pos h

theorem skipSpace_cons {c : Char} (h : isSpace c = false) (s : List Char) :
    skipSpace (c :: s) = c :: s :=
  List.dropWhile_cons_of_neg (Bool.eq_false_iff.mp h)

theorem skipSpace_append_cons {b : List Char} {c : Char} (hb : AllSpace b)
    (hc : isSpace c = false) (s : List Char) : skipSpace (b ++ c :: s) = c :: s := by
  rw [skipSpace_append hb, skipSpace_cons hc]

theorem readValue_of_space {b : List Char} (h : AllSpace b) (limits : Limits) (depth fuel : Nat)
    (s : List Char) : readValue limits depth fuel (b ++ s) = readValue limits depth fuel s := by
  cases fuel with
  | zero => rfl
  | succ fuel => rw [readValue, readValue, skipSpace_append h]

/-! ## Texts -/

theorem hexDigit?_hexDigit : ∀ n < 16, hexDigit? (hexDigit n) = some n := by decide

theorem readHex4?_hexDigits {n : Nat} (h : n < 65536) (s : List Char) :
    readHex4? (hexDigits 4 n ++ s) = some (n, s) := by
  have hdigit (m : Nat) : hexDigit? (hexDigit (m % 16)) = some (m % 16) :=
    hexDigit?_hexDigit _ (Nat.mod_lt m (by decide))
  have hvalue : ofDigits 16 [n / 16 / 16 / 16 % 16, n / 16 / 16 % 16, n / 16 % 16, n % 16] = n := by
    simp only [ofDigits, List.foldl_cons, List.foldl_nil]
    omega
  simp only [hexDigits, List.nil_append, List.cons_append, readHex4?, hdigit,
    Option.bind_eq_bind, Option.bind_some, hvalue, Option.pure_def]

/-- The escape of a character below U+0020 stands for it. -/
theorem readCodePoint?_hexDigits {c : Char} (h : c.toNat < 0x20) (s : List Char) :
    readCodePoint? (hexDigits 4 c.toNat ++ s) = some (some c, s) := by
  have hlow : ¬ (0xD800 ≤ c.toNat ∧ c.toNat < 0xDC00) := by omega
  have hhigh : ¬ (0xDC00 ≤ c.toNat ∧ c.toNat < 0xE000) := by omega
  simp only [readCodePoint?, readHex4?_hexDigits (Nat.lt_trans h (by decide)),
    Option.bind_eq_bind, Option.bind_some, if_neg hlow, if_neg hhigh, Char.ofNat_toNat,
    Option.pure_def]

/-- A character is written as an escape by a letter, as an escape by its code, or as it is. -/
theorem escapeChar_cases (c : Char) :
    (∃ e, e ≠ 'u' ∧ unescape? e = some c ∧ escapeChar c = ['\\', e]) ∨
    (c.toNat < 0x20 ∧ escapeChar c = '\\' :: 'u' :: hexDigits 4 c.toNat) ∨
    (c ≠ '"' ∧ c ≠ '\\' ∧ 0x20 ≤ c.toNat ∧ escapeChar c = [c]) := by
  by_cases hletter : c ∈ ['"', '\\', '\n', '\r', '\t', '\x08', '\x0C']
  · left
    simp only [List.mem_cons, List.not_mem_nil, or_false] at hletter
    rcases hletter with rfl | rfl | rfl | rfl | rfl | rfl | rfl <;>
      exact ⟨_, by decide, rfl, rfl⟩
  · right
    simp only [List.mem_cons, List.not_mem_nil, or_false, not_or] at hletter
    obtain ⟨hquote, hslash, hn, hr, ht, hb, hf⟩ := hletter
    simp only [escapeChar, hquote, hslash, hn, hr, ht, hb, hf, if_false]
    by_cases hcontrol : c.toNat < 0x20
    · exact Or.inl ⟨hcontrol, if_pos hcontrol⟩
    · exact Or.inr ⟨hquote, hslash, Nat.le_of_not_lt hcontrol, if_neg hcontrol⟩

theorem readString?_letter {c e : Char} (hu : e ≠ 'u') (he : unescape? e = some c) (fuel : Nat)
    (acc : List (Option Char)) (s : List Char) :
    readString? (fuel + 1) acc ('\\' :: e :: s) = readString? fuel (some c :: acc) s := by
  rw [readString?, he]
  exact hu

theorem readString?_plain {c : Char} (hquote : c ≠ '"') (hslash : c ≠ '\\')
    (hcontrol : 0x20 ≤ c.toNat) (fuel : Nat) (acc : List (Option Char)) (s : List Char) :
    readString? (fuel + 1) acc (c :: s) = readString? fuel (some c :: acc) s := by
  have hplain : (decide (c = '\\') || decide (c.toNat < 0x20)) = false := by
    simp [hslash, hcontrol]
  rw [readString?, hplain]
  · rfl
  · exact hquote
  · exact fun _ h => absurd h hslash
  · exact fun _ _ h => absurd h hslash

/-- One character of a text is read back. -/
theorem readString?_escapeChar (c : Char) (fuel : Nat) (acc : List (Option Char))
    (s : List Char) :
    readString? (fuel + 1) acc (escapeChar c ++ s) = readString? fuel (some c :: acc) s := by
  rcases escapeChar_cases c with ⟨e, hu, he, hc⟩ | ⟨hcontrol, hc⟩ |
    ⟨hquote, hslash, hcontrol, hc⟩
  · rw [hc]
    exact readString?_letter hu he fuel acc s
  · simp only [hc, List.cons_append, readString?, readCodePoint?_hexDigits hcontrol]
  · rw [hc]
    exact readString?_plain hquote hslash hcontrol fuel acc s

theorem length_pos_escapeChar (c : Char) : 0 < (escapeChar c).length := by
  rcases escapeChar_cases c with ⟨e, _, _, hc⟩ | ⟨_, hc⟩ | ⟨_, _, _, hc⟩ <;>
    rw [hc, List.length_cons] <;> exact Nat.succ_pos _

theorem length_le_length_flatMap_escapeChar (t : List Char) :
    t.length ≤ (t.flatMap escapeChar).length := by
  induction t with
  | nil => exact Nat.le_refl 0
  | cons c t ih =>
      have hc := length_pos_escapeChar c
      rw [List.flatMap_cons, List.length_append, List.length_cons]
      omega

theorem readString?_escaped (t : List Char) (fuel : Nat) (acc : List (Option Char))
    (s : List Char) :
    readString? (fuel + 1 + t.length) acc (t.flatMap escapeChar ++ '"' :: s) =
      some (acc.reverse ++ t.map some, s) := by
  induction t generalizing acc with
  | nil => simp [readString?]
  | cons c t ih =>
      rw [List.flatMap_cons, List.append_assoc, List.length_cons, ← Nat.add_assoc,
        readString?_escapeChar, ih]
      simp

/-- A text is read back from between its quotes. -/
theorem readQuoted_escaped (t s : List Char) :
    readQuoted (t.flatMap escapeChar ++ '"' :: s) = .ok (t.map some, s) := by
  obtain ⟨fuel, hfuel⟩ : ∃ fuel,
      (t.flatMap escapeChar ++ '"' :: s).length.succ = fuel + 1 + t.length := by
    have hle := length_le_length_flatMap_escapeChar t
    refine ⟨(t.flatMap escapeChar ++ '"' :: s).length - t.length, ?_⟩
    rw [List.length_append]
    omega
  rw [readQuoted, hfuel, readString?_escaped]
  rfl

theorem stringValue_map_some (t : List Char) : stringValue (t.map some) = .str t := by
  have hall : (t.map some).mapM id = some t := by
    rw [List.mapM_map]
    exact List.mapM_pure.trans (congrArg some t.map_id)
  rw [stringValue, hall]

theorem keyOf_map_some (t : List Char) : keyOf (t.map some) = t := by
  rw [keyOf, List.map_map]
  exact t.map_id

/-! ## Integers -/

/-- The characters after which a value cannot go on. -/
def delimiters : List Char := [' ', '\t', '\n', '\r', ',', ']', '\x7d']

/-- Text that cannot belong to a value before it. -/
def Delimited (s : List Char) : Prop := ∀ c ∈ s.head?, c ∈ delimiters

theorem delimited_nil : Delimited [] := by
  intro c hc
  cases hc

theorem delimited_cons {c : Char} (h : c ∈ delimiters) (s : List Char) : Delimited (c :: s) := by
  intro d hd
  cases hd
  exact h

theorem mem_delimiters_of_isSpace {c : Char} (h : isSpace c = true) : c ∈ delimiters := by
  simp only [isSpace, Bool.or_eq_true, decide_eq_true_eq] at h
  rcases h with ((rfl | rfl) | rfl) | rfl <;> decide

/-- Blanks and then such a character end a value too. -/
theorem delimited_append {b : List Char} {c : Char} (hb : AllSpace b) (h : c ∈ delimiters)
    (s : List Char) : Delimited (b ++ c :: s) := by
  cases b with
  | nil => exact delimited_cons h s
  | cons d b => exact delimited_cons (mem_delimiters_of_isSpace (hb d List.mem_cons_self)) _

/-- The value of a digit. -/
def digitOf (c : Char) : Nat := c.toNat - '0'.toNat

theorem asciiDigit?_of_isDigit {c : Char} (h : c.isDigit = true) :
    asciiDigit? c = some (digitOf c) := by
  rw [Char.isDigit, Bool.and_eq_true, decide_eq_true_eq, decide_eq_true_eq] at h
  exact if_pos h

theorem asciiDigit?_of_mem_delimiters {c : Char} (h : c ∈ delimiters) : asciiDigit? c = none := by
  have hnone : delimiters.all (fun c => (asciiDigit? c).isNone) = true := by decide
  exact Option.isNone_iff_eq_none.mp (List.all_eq_true.mp hnone c h)

theorem spanDigits_append {ds s : List Char} (hds : ∀ c ∈ ds, c.isDigit = true)
    (hs : Delimited s) : spanDigits (ds ++ s) = (ds.map digitOf, s) := by
  induction ds with
  | nil =>
      cases s with
      | nil => rfl
      | cons c s =>
          simp only [List.nil_append, spanDigits, asciiDigit?_of_mem_delimiters (hs c rfl),
            List.map_nil]
  | cons d ds ih =>
      obtain ⟨hd, hds⟩ := List.forall_mem_cons.mp hds
      simp only [List.cons_append, spanDigits, asciiDigit?_of_isDigit hd, ih hds, List.map_cons]

theorem ofDigits_decimal (n : Nat) : ofDigits 10 ((decimal n).map digitOf) = n := by
  have hvalue := Nat.ofDigitChars_ten_toDigits (n := n)
  rw [Nat.ofDigitChars_eq_foldl] at hvalue
  simp only [decimal, ofDigits, List.foldl_map, digitOf, Nat.mul_comm _ 10]
  exact hvalue

theorem isDigit_of_mem_decimal {n : Nat} {c : Char} (h : c ∈ decimal n) : c.isDigit = true :=
  Nat.isDigit_of_mem_toDigits (by decide) (by decide) h

/-- Only zero is written with a leading zero. -/
theorem head_decimal_ne_zero {n : Nat} (h : 0 < n) : (decimal n).head? ≠ some '0' := by
  induction n using Nat.strongRecOn with
  | _ n ih =>
      rw [decimal, Nat.toDigits_eq_if (by decide)]
      split
      · intro hzero
        have hn : n.digitChar = '0' := Option.some.inj hzero
        rw [Nat.digitChar_eq_zero] at hn
        omega
      · rw [List.head?_append_of_ne_nil _ Nat.toDigits_ne_nil]
        exact ih (n / 10) (by omega) (by omega)

theorem spanDigits_decimal (n : Nat) {s : List Char} (hs : Delimited s) :
    spanDigits (decimal n ++ s) = ((decimal n).map digitOf, s) :=
  spanDigits_append (fun _ => isDigit_of_mem_decimal) hs

theorem head?_decimal_of_append {n : Nat} {s rest : List Char} {c : Char}
    (h : decimal n ++ s = c :: rest) : (decimal n).head? = some c := by
  have hhead : (decimal n ++ s).head? = (decimal n).head? :=
    List.head?_append_of_ne_nil _ Nat.toDigits_ne_nil
  rw [← hhead, h, List.head?_cons]

theorem isDigit_of_decimal_append {n : Nat} {s rest : List Char} {c : Char}
    (h : decimal n ++ s = c :: rest) : c.isDigit = true :=
  isDigit_of_mem_decimal (List.mem_of_head? (head?_decimal_of_append h))

theorem Delimited.head_ne {c d : Char} {s : List Char} (h : Delimited (c :: s))
    (hd : d ∉ delimiters) : c ≠ d := by
  rintro rfl
  exact hd (h c rfl)

theorem readFraction_of_delimited {s : List Char} (hs : Delimited s) : readFraction s = none := by
  cases s with
  | nil => rfl
  | cons c s =>
      have hne : c ≠ '.' := hs.head_ne (by decide)
      unfold readFraction
      split
      · rename_i heq
        exact absurd (List.cons.inj heq).1 hne
      · rfl

theorem readMarkedExponent_of_delimited {s : List Char} (hs : Delimited s) :
    readMarkedExponent s = none := by
  cases s with
  | nil => rfl
  | cons c s =>
      have hlower : c ≠ 'e' := hs.head_ne (by decide)
      have hupper : c ≠ 'E' := hs.head_ne (by decide)
      rw [readMarkedExponent, decide_eq_false hlower, decide_eq_false hupper]
      rfl

theorem digits_decimal_ne_nil (n : Nat) : ((decimal n).map digitOf).isEmpty = false := by
  rw [List.isEmpty_eq_false_iff, ne_eq, List.map_eq_nil_iff]
  exact Nat.toDigits_ne_nil

/-- An integer is read back. -/
theorem readNumber?_decimalInt (n : Int) {s : List Char} (hs : Delimited s) :
    readNumber? .none (decimalInt n ++ s) = some (.int n, s) := by
  cases n with
  | ofNat n =>
    rcases Nat.eq_zero_or_pos n with rfl | hpos
    · rw [show decimalInt (Int.ofNat 0) ++ s = '0' :: s from rfl, readNumber?]
      simp only [readFraction_of_delimited hs, Option.map_none, Option.getD_none,
        readMarkedExponent_of_delimited hs]
      rfl
    · rw [decimalInt, readNumber?, spanDigits_decimal n hs]
      · simp only [digits_decimal_ne_nil, readFraction_of_delimited hs, Option.map_none,
          Option.getD_none, readMarkedExponent_of_delimited hs, ofDigits_decimal]
        rfl
      · exact fun _ h => absurd (isDigit_of_decimal_append h) (by decide)
      · exact fun _ h => head_decimal_ne_zero hpos (head?_decimal_of_append h)
  | negSucc n =>
      rw [decimalInt, List.cons_append, readNumber?, spanDigits_decimal (n + 1) hs]
      · simp only [digits_decimal_ne_nil, readFraction_of_delimited hs, Option.map_none,
          Option.getD_none, readMarkedExponent_of_delimited hs, ofDigits_decimal]
        rfl
      · exact fun _ h => head_decimal_ne_zero (Nat.succ_pos n) (head?_decimal_of_append h)

/-- What starts with a digit, or with a minus sign and a digit, is no word. -/
theorem readLiteral?_of_isDigit {c : Char} (h : c.isDigit = true) (s : List Char) :
    readLiteral? (c :: s) = none ∧ readLiteral? ('-' :: c :: s) = none := by
  have hne : ∀ d, d.isDigit = false → d ≠ c := by
    rintro d hd rfl
    rw [hd] at h
    cases h
  have hn := hne 'n' rfl
  have ht := hne 't' rfl
  have hf := hne 'f' rfl
  have hN := hne 'N' rfl
  have hI := hne 'I' rfl
  have hminus := hne '-' rfl
  simp [readLiteral?, literals, dropExact?, hn, ht, hf, hN, hI, hminus]

/-- An integer starts with a digit, or with a minus sign and a digit. -/
theorem decimalInt_append_cases (n : Int) (s : List Char) :
    ∃ c rest, c.isDigit = true ∧
      (decimalInt n ++ s = c :: rest ∨ decimalInt n ++ s = '-' :: c :: rest) := by
  have hdecimal (n : Nat) : ∃ c rest, decimal n ++ s = c :: rest :=
    List.exists_cons_of_ne_nil (List.append_ne_nil_of_left_ne_nil Nat.toDigits_ne_nil s)
  cases n with
  | ofNat n =>
      obtain ⟨c, rest, h⟩ := hdecimal n
      exact ⟨c, rest, isDigit_of_decimal_append h, Or.inl h⟩
  | negSucc n =>
      obtain ⟨c, rest, h⟩ := hdecimal (n + 1)
      exact ⟨c, rest, isDigit_of_decimal_append h, Or.inr (congrArg ('-' :: ·) h)⟩

theorem decimalInt_ne_nil (n : Int) : decimalInt n ≠ [] := by
  cases n with
  | ofNat n => exact Nat.toDigits_ne_nil
  | negSucc n => exact List.cons_ne_nil _ _

theorem readLiteral?_decimalInt (n : Int) (s : List Char) :
    readLiteral? (decimalInt n ++ s) = none := by
  obtain ⟨c, rest, hc, h | h⟩ := decimalInt_append_cases n s
  · rw [h]
    exact (readLiteral?_of_isDigit hc rest).1
  · rw [h]
    exact (readLiteral?_of_isDigit hc rest).2

theorem readAtom_decimalInt (n : Int) {s : List Char} (hs : Delimited s) :
    readAtom .none (decimalInt n ++ s) = .ok (.int n, s) := by
  rw [readAtom, readLiteral?_decimalInt, Option.orElse_none, readNumber?_decimalInt n hs]

/-! ## Values that hold no others -/

/-- A text with its quotes is read back as a value. -/
theorem readValue_stringText (t : List Char) (limits : Limits) (depth fuel : Nat)
    (s : List Char) :
    readValue limits depth (fuel + 1) (stringText t ++ s) = .ok (.str t, s) := by
  have htext : stringText t ++ s = '"' :: (t.flatMap escapeChar ++ '"' :: s) := by
    rw [stringText, List.cons_append, List.cons_append, List.append_assoc, List.singleton_append]
  rw [htext, readValue, skipSpace_cons rfl]
  simp only [readQuoted_escaped, Except.map, stringValue_map_some]

/-- What opens neither a text nor a collection is read as a word or a number. -/
theorem readValue_eq_readAtom {c : Char} (hc : c.isDigit = true ∨ c = '-') (limits : Limits)
    (depth fuel : Nat) (s : List Char) :
    readValue limits depth (fuel + 1) (c :: s) = readAtom limits (c :: s) := by
  have hne : ∀ d, d.isDigit = false → d ≠ '-' → c ≠ d := by
    rintro d hd hminus rfl
    rcases hc with hc | hc
    · rw [hd] at hc
      cases hc
    · exact hminus hc
  have hspace : isSpace c = false := by
    simp [isSpace, hne ' ', hne '\t', hne '\n', hne '\r']
  rw [readValue, skipSpace_cons hspace]
  split
  · rename_i heq
    exact absurd (List.cons.inj heq).1 (hne '"' rfl (by decide))
  · rename_i heq
    exact absurd (List.cons.inj heq).1 (hne '[' rfl (by decide))
  · rename_i heq
    exact absurd (List.cons.inj heq).1 (hne '\x7b' rfl (by decide))
  · rfl

theorem readValue_decimalInt (n : Int) (depth fuel : Nat) {s : List Char} (hs : Delimited s) :
    readValue .none depth (fuel + 1) (decimalInt n ++ s) = .ok (.int n, s) := by
  have hatom := readAtom_decimalInt n hs
  obtain ⟨c, rest, hc, h | h⟩ := decimalInt_append_cases n s
  · rw [h] at hatom ⊢
    rw [readValue_eq_readAtom (Or.inl hc), hatom]
  · rw [h] at hatom ⊢
    rw [readValue_eq_readAtom (Or.inr rfl), hatom]

theorem readValue_null (limits : Limits) (depth fuel : Nat) (s : List Char) :
    readValue limits depth (fuel + 1) (atomText .null ++ s) = .ok (.null, s) := rfl

theorem readValue_bool (b : Bool) (limits : Limits) (depth fuel : Nat) (s : List Char) :
    readValue limits depth (fuel + 1) (atomText (.bool b) ++ s) = .ok (.bool b, s) := by
  cases b <;> rfl

end NormalAlgorithm.Json
