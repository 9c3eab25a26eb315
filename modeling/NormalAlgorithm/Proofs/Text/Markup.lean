/-
  NormalAlgorithm.Proofs.Text.Markup

  Escaped text, and what is shown of it.

  A text is read from the front: a backslash, a tag, a bracket that opens no tag, or another
  character (`markup_induction`). Escaping and showing have one equation for each of these, with
  the backslashes in front counted. They undo each other but in two places. A bracket that opens
  no tag is not escaped, and yet takes away a backslash in front of it when it is shown. And a
  single backslash at the end is doubled, but not halved when it is shown.

    * `plain_escape`: what is shown of an escaped text.
    * `filter_plain_escape_eq_self_iff`: when that is the text itself.
-/

import Mathlib.Data.List.Basic
import Mathlib.Data.List.TakeWhile
import NormalAlgorithm.Text.Markup

namespace NormalAlgorithm.Text.Markup

open scoped List

variable {n : Nat} {c : Char} {name s t : List Char}

/-! ## Backslashes -/

@[simp] theorem slashes_zero : slashes 0 = [] := rfl

theorem slashes_succ (n : Nat) : slashes (n + 1) = '\\' :: slashes n := rfl

theorem slashes_succ_append (n : Nat) (s : List Char) :
    slashes (n + 1) ++ s = slashes n ++ '\\' :: s := by
  rw [slashes, List.replicate_succ', List.append_assoc]
  rfl

/-! ## Tags -/

/-- Opening and closing brackets. -/
def isBracket (c : Char) : Bool := c = '[' || c = ']'

/-- The text goes on as a tag does after its opening bracket. -/
def OpensTag (s : List Char) : Prop :=
  ∃ c name rest, s = c :: (name ++ ']' :: rest) ∧ startsTag c = true ∧
    ∀ d ∈ name, isBracket d = false

/-- A tag starts as tags do, and the first bracket after that closes it. -/
theorem opensTag_cons_iff :
    OpensTag (c :: s) ↔ startsTag c = true ∧ s.find? isBracket = some ']' := by
  constructor
  · rintro ⟨c', name, rest, heq, hc, hname⟩
    obtain ⟨rfl, rfl⟩ := List.cons.inj heq
    refine ⟨hc, List.find?_eq_some_iff_append.mpr ⟨rfl, name, rest, rfl, ?_⟩⟩
    intro d hd
    rw [hname d hd]
    rfl
  · rintro ⟨hc, hfind⟩
    obtain ⟨_, name, rest, rfl, hname⟩ := List.find?_eq_some_iff_append.mp hfind
    exact ⟨c, name, rest, rfl, hc, fun d hd => (Bool.not_eq_true' _).mp (hname d hd)⟩

theorem not_opensTag_nil : ¬ OpensTag [] := by
  rintro ⟨c, name, rest, heq, _⟩
  cases heq

/-- The characters of a tag's name are those that are no brackets. -/
theorem isBracket_eq_false_iff : isBracket c = false ↔ (c != '[' && c != ']') = true := by
  simp [isBracket]

theorem tagLength?_of_tag (hc : startsTag c = true) (hname : ∀ d ∈ name, isBracket d = false)
    (s : List Char) : tagLength? (c :: (name ++ ']' :: s)) = some (name.length + 1) := by
  have htake : (name ++ ']' :: s).takeWhile (fun d => d != '[' && d != ']') = name := by
    rw [List.takeWhile_append_of_pos fun d hd => isBracket_eq_false_iff.mp (hname d hd)]
    exact List.append_nil name
  have hclose : (name ++ ']' :: s)[name.length]? = some ']' := by
    rw [List.getElem?_append_right (Nat.le_refl _), Nat.sub_self]
    rfl
  simp only [tagLength?, htake, hclose, hc]
  rfl

theorem tagLength?_eq_none (h : ¬ OpensTag s) : tagLength? s = none := by
  cases s with
  | nil => rfl
  | cons c rest =>
      rw [tagLength?]
      split
      · rename_i htag
        rw [Bool.and_eq_true, beq_iff_eq] at htag
        obtain ⟨hc, hclose⟩ := htag
        -- what comes after the name starts with the closing bracket
        have hsplit :=
          List.takeWhile_append_dropWhile (p := fun d => d != '[' && d != ']') (l := rest)
        generalize hname : rest.takeWhile (fun d => d != '[' && d != ']') = name at *
        generalize rest.dropWhile (fun d => d != '[' && d != ']') = after at *
        rw [← hsplit, List.getElem?_append_right (Nat.le_refl _), Nat.sub_self,
          ← List.head?_eq_getElem?, List.head?_eq_some_iff] at hclose
        obtain ⟨tail, rfl⟩ := hclose
        refine absurd ⟨c, name, tail, by rw [hsplit], hc, ?_⟩ h
        intro d hd
        rw [← hname] at hd
        have hplain := List.mem_takeWhile_imp hd
        exact isBracket_eq_false_iff.mpr hplain
      · rfl

/-! ## Reading from the front -/

/-- Induction on a text by what it begins with: a backslash, a tag, a bracket that opens no tag,
    or another character. -/
theorem markup_induction {P : List Char → Prop} (nil : P [])
    (slash : ∀ s, P s → P ('\\' :: s))
    (tag : ∀ c name s, startsTag c = true → (∀ d ∈ name, isBracket d = false) → P s →
      P ('[' :: c :: (name ++ ']' :: s)))
    (bracket : ∀ s, ¬ OpensTag s → P s → P ('[' :: s))
    (other : ∀ c s, c ≠ '\\' → c ≠ '[' → P s → P (c :: s)) (s : List Char) : P s := by
  -- a tag takes several characters at once, hence the induction on the length
  induction hlen : s.length using Nat.strongRecOn generalizing s with
  | ind length ih =>
      cases s with
      | nil => exact nil
      | cons c rest =>
          rw [List.length_cons] at hlen
          have hrest : P rest := ih rest.length (by omega) rest rfl
          by_cases hslash : c = '\\'
          · exact hslash ▸ slash rest hrest
          by_cases hopen : c = '['
          · subst hopen
            by_cases htag : OpensTag rest
            · obtain ⟨c, name, after, rfl, hc, hname⟩ := htag
              refine tag c name after hc hname (ih after.length ?_ after rfl)
              simp only [List.length_cons, List.length_append] at hlen
              omega
            · exact bracket rest htag hrest
          · exact other c rest hslash hopen hrest

theorem escapeAfter_nil (n : Nat) : escapeAfter n [] = slashes n := by
  rw [escapeAfter]

theorem escapeAfter_slash (n : Nat) (s : List Char) :
    escapeAfter n ('\\' :: s) = escapeAfter (n + 1) s := by
  rw [escapeAfter, if_pos rfl]

/-- The text of a tag after its opening bracket, and what follows it. -/
theorem take_tag (c : Char) (name s : List Char) :
    (c :: (name ++ ']' :: s)).take (name.length + 1 + 1) = c :: (name ++ [']']) := by
  rw [List.take_succ_cons, List.take_length_add_append]
  rfl

theorem drop_tag (c : Char) (name s : List Char) :
    (c :: (name ++ ']' :: s)).drop (name.length + 1 + 1) = s := by
  rw [List.drop_succ_cons, List.drop_length_add_append]
  rfl

/-- A tag is escaped, and the backslashes in front of it are doubled. -/
theorem escapeAfter_tag (hc : startsTag c = true) (hname : ∀ d ∈ name, isBracket d = false)
    (n : Nat) (s : List Char) :
    escapeAfter n ('[' :: c :: (name ++ ']' :: s)) =
      slashes (2 * n + 1) ++ '[' :: c :: (name ++ ']' :: escapeAfter 0 s) := by
  rw [escapeAfter, if_neg (by decide), if_pos rfl, tagLength?_of_tag hc hname]
  dsimp only
  rw [take_tag, drop_tag]
  simp

theorem escapeAfter_bracket (h : ¬ OpensTag s) (n : Nat) :
    escapeAfter n ('[' :: s) = slashes n ++ '[' :: escapeAfter 0 s := by
  rw [escapeAfter, if_neg (by decide), if_pos rfl, tagLength?_eq_none h]

theorem escapeAfter_other (hslash : c ≠ '\\') (hopen : c ≠ '[') (n : Nat) (s : List Char) :
    escapeAfter n (c :: s) = slashes n ++ c :: escapeAfter 0 s := by
  rw [escapeAfter, if_neg hslash, if_neg hopen]

theorem plainAfter_nil (n : Nat) : plainAfter n [] = slashes n := by
  rw [plainAfter]

theorem plainAfter_slash (n : Nat) (s : List Char) :
    plainAfter n ('\\' :: s) = plainAfter (n + 1) s := by
  rw [plainAfter, if_pos rfl]

/-- Of the backslashes in front of a tag half are shown, and the tag itself if one is left
    over. -/
theorem plainAfter_tag (hc : startsTag c = true) (hname : ∀ d ∈ name, isBracket d = false)
    (n : Nat) (s : List Char) :
    plainAfter n ('[' :: c :: (name ++ ']' :: s)) =
      slashes (n / 2) ++ (if n % 2 = 1 then '[' :: c :: (name ++ [']']) else []) ++
        plainAfter 0 s := by
  rw [plainAfter, if_neg (by decide), if_pos rfl, tagLength?_of_tag hc hname]
  dsimp only
  rw [take_tag, drop_tag]

theorem plainAfter_bracket (h : ¬ OpensTag s) (n : Nat) :
    plainAfter n ('[' :: s) = slashes (n - 1) ++ '[' :: plainAfter 0 s := by
  rw [plainAfter, if_neg (by decide), if_pos rfl, tagLength?_eq_none h]

theorem plainAfter_other (hslash : c ≠ '\\') (hopen : c ≠ '[') (n : Nat) (s : List Char) :
    plainAfter n (c :: s) = slashes n ++ c :: plainAfter 0 s := by
  rw [plainAfter, if_neg hslash, if_neg hopen]

theorem plainAfter_slashes (n m : Nat) (s : List Char) :
    plainAfter n (slashes m ++ s) = plainAfter (n + m) s := by
  induction m generalizing n with
  | zero => rfl
  | succ m ih =>
      rw [slashes_succ, List.cons_append, plainAfter_slash, ih, Nat.add_right_comm, Nat.add_assoc]

/-! ## No new tags -/

theorem find?_slashes_append (n : Nat) (s : List Char) :
    (slashes n ++ s).find? isBracket = s.find? isBracket := by
  induction n with
  | zero => rfl
  | succ n ih => exact ih

/-- Escaping puts backslashes into a text, and so keeps its first bracket. -/
theorem find?_escapeAfter (n : Nat) (s : List Char) :
    (escapeAfter n s).find? isBracket = s.find? isBracket := by
  induction s using markup_induction generalizing n with
  | nil =>
      rw [escapeAfter_nil, ← List.append_nil (slashes n)]
      exact find?_slashes_append n []
  | slash s ih =>
      rw [escapeAfter_slash, ih]
      rfl
  | tag c name s hc hname ih =>
      rw [escapeAfter_tag hc hname, find?_slashes_append]
      rfl
  | bracket s hs ih =>
      rw [escapeAfter_bracket hs, find?_slashes_append]
      rfl
  | other c s hslash hopen ih =>
      rw [escapeAfter_other hslash hopen, find?_slashes_append, List.find?_cons, List.find?_cons,
        ih]

theorem exists_escapeAfter_eq (n : Nat) (s : List Char) :
    ∃ t, escapeAfter n s = slashes n ++ t := by
  induction s using markup_induction generalizing n with
  | nil => exact ⟨[], by rw [escapeAfter_nil, List.append_nil]⟩
  | slash s ih =>
      obtain ⟨t, ht⟩ := ih (n + 1)
      exact ⟨'\\' :: t, by rw [escapeAfter_slash, ht, slashes_succ_append]⟩
  | tag c name s hc hname ih =>
      refine ⟨slashes (n + 1) ++ '[' :: c :: (name ++ ']' :: escapeAfter 0 s), ?_⟩
      rw [escapeAfter_tag hc hname, ← List.append_assoc, slashes, slashes, slashes,
        List.replicate_append_replicate]
      congr 2
      omega
  | bracket s hs ih => exact ⟨_, escapeAfter_bracket hs n⟩
  | other c s hslash hopen ih => exact ⟨_, escapeAfter_other hslash hopen n s⟩

theorem not_opensTag_slash (s : List Char) : ¬ OpensTag ('\\' :: s) := by
  rw [opensTag_cons_iff]
  intro h
  exact absurd h.1 (by decide)

/-- Escaping makes no tag where there was none. -/
theorem not_opensTag_escapeAfter (h : ¬ OpensTag s) : ¬ OpensTag (escapeAfter 0 s) := by
  induction s using markup_induction with
  | nil =>
      rw [escapeAfter_nil]
      exact not_opensTag_nil
  | slash s =>
      obtain ⟨t, ht⟩ := exists_escapeAfter_eq 1 s
      rw [escapeAfter_slash, ht]
      exact not_opensTag_slash t
  | tag c name s hc hname =>
      rw [escapeAfter_tag hc hname]
      exact not_opensTag_slash _
  | bracket s hs =>
      rw [escapeAfter_bracket hs, slashes_zero, List.nil_append, opensTag_cons_iff]
      intro htag
      exact absurd htag.1 (by decide)
  | other c s hslash hopen =>
      rw [opensTag_cons_iff] at h
      rwa [escapeAfter_other hslash hopen, slashes_zero, List.nil_append, opensTag_cons_iff,
        find?_escapeAfter]

/-! ## Escaped text shown -/

theorem plain_escapeAfter_slash (n : Nat) (s : List Char) :
    plain (escapeAfter n ('\\' :: s)) = plain (escapeAfter (n + 1) s) := by
  rw [escapeAfter_slash]

/-- An escaped tag is shown with the backslashes that were in front of it. -/
theorem plain_escapeAfter_tag (hc : startsTag c = true) (hname : ∀ d ∈ name, isBracket d = false)
    (n : Nat) (s : List Char) :
    plain (escapeAfter n ('[' :: c :: (name ++ ']' :: s))) =
      slashes n ++ '[' :: c :: (name ++ ']' :: plain (escapeAfter 0 s)) := by
  have hhalf : (2 * n + 1) / 2 = n := by omega
  have hodd : (2 * n + 1) % 2 = 1 := by omega
  rw [plain, escapeAfter_tag hc hname, plainAfter_slashes, Nat.zero_add, plainAfter_tag hc hname,
    hhalf, if_pos hodd, plain]
  simp

/-- A bracket that opens no tag is shown with one backslash less than there was in front
    of it. -/
theorem plain_escapeAfter_bracket (h : ¬ OpensTag s) (n : Nat) :
    plain (escapeAfter n ('[' :: s)) = slashes (n - 1) ++ '[' :: plain (escapeAfter 0 s) := by
  rw [plain, escapeAfter_bracket h, plainAfter_slashes, Nat.zero_add,
    plainAfter_bracket (not_opensTag_escapeAfter h), plain]

theorem plain_escapeAfter_other (hslash : c ≠ '\\') (hopen : c ≠ '[') (n : Nat) (s : List Char) :
    plain (escapeAfter n (c :: s)) = slashes n ++ c :: plain (escapeAfter 0 s) := by
  rw [plain, escapeAfter_other hslash hopen, plainAfter_slashes, Nat.zero_add,
    plainAfter_other hslash hopen, plain]

theorem plain_escapeAfter_nil (n : Nat) : plain (escapeAfter n []) = slashes n := by
  rw [plain, escapeAfter_nil, ← List.append_nil (slashes n), plainAfter_slashes, Nat.zero_add,
    plainAfter_nil, List.append_nil]

/-- What is shown of an escaped text is the text, or less. -/
theorem plain_escapeAfter_sublist (n : Nat) (s : List Char) :
    plain (escapeAfter n s) <+ slashes n ++ s := by
  induction s using markup_induction generalizing n with
  | nil => rw [plain_escapeAfter_nil, List.append_nil]
  | slash s ih =>
      rw [plain_escapeAfter_slash, ← slashes_succ_append]
      exact ih (n + 1)
  | tag c name s hc hname ih =>
      rw [plain_escapeAfter_tag hc hname]
      have hrest : plain (escapeAfter 0 s) <+ s := ih 0
      have hname := ((hrest.cons_cons ']').append_left name).cons_cons c
      exact (hname.cons_cons '[').append_left (slashes n)
  | bracket s hs ih =>
      rw [plain_escapeAfter_bracket hs]
      have hrest : plain (escapeAfter 0 s) <+ s := ih 0
      have hfewer : slashes (n - 1) <+ slashes n :=
        (List.replicate_sublist_replicate _).mpr (by omega)
      exact hfewer.append (hrest.cons_cons '[')
  | other c s hslash hopen ih =>
      rw [plain_escapeAfter_other hslash hopen]
      have hrest : plain (escapeAfter 0 s) <+ s := ih 0
      exact (hrest.cons_cons c).append_left (slashes n)

/-- Nothing but backslashes is left out of an escaped text that is shown. -/
theorem filter_plain_escapeAfter {q : Char → Bool} (hq : q '\\' = false) (n : Nat)
    (s : List Char) : (plain (escapeAfter n s)).filter q = s.filter q := by
  have hslashes (n : Nat) : (slashes n).filter q = [] := by
    rw [slashes, List.filter_replicate_of_neg (by simp [hq])]
  induction s using markup_induction generalizing n with
  | nil => rw [plain_escapeAfter_nil, hslashes, List.filter_nil]
  | slash s ih => rw [plain_escapeAfter_slash, ih, List.filter_cons_of_neg (by simp [hq])]
  | tag c name s hc hname ih =>
      rw [plain_escapeAfter_tag hc hname]
      simp only [List.filter_append, hslashes, List.nil_append, List.filter_cons, ih]
  | bracket s hs ih =>
      rw [plain_escapeAfter_bracket hs, List.filter_append, hslashes, List.nil_append,
        List.filter_cons, List.filter_cons, ih]
  | other c s hslash hopen ih =>
      rw [plain_escapeAfter_other hslash hopen, List.filter_append, hslashes, List.nil_append,
        List.filter_cons, List.filter_cons, ih]

/-- The last character is always shown. -/
theorem getLast?_plain_escapeAfter (n : Nat) (s : List Char) :
    (plain (escapeAfter n s)).getLast? = (slashes n ++ s).getLast? := by
  induction s using markup_induction generalizing n with
  | nil => rw [plain_escapeAfter_nil, List.append_nil]
  | slash s ih => rw [plain_escapeAfter_slash, ih, slashes_succ_append]
  | tag c name s hc hname ih =>
      have hrest := ih 0
      rw [slashes_zero, List.nil_append] at hrest
      rw [plain_escapeAfter_tag hc hname]
      simp [List.getLast?_cons, hrest]
  | bracket s hs ih =>
      have hrest := ih 0
      rw [slashes_zero, List.nil_append] at hrest
      rw [plain_escapeAfter_bracket hs]
      simp [List.getLast?_cons, hrest]
  | other c s hslash hopen ih =>
      have hrest := ih 0
      rw [slashes_zero, List.nil_append] at hrest
      rw [plain_escapeAfter_other hslash hopen]
      simp [List.getLast?_cons, hrest]

/-! ## Backslashes in front of brackets -/

/-- Every bracket with a backslash in front of it opens a tag. -/
def KeepsSlashes (s : List Char) : Prop := ∀ u v, s = u ++ '\\' :: '[' :: v → OpensTag v

theorem keepsSlashes_nil : KeepsSlashes [] := by
  intro u v h
  simp at h

theorem keepsSlashes_cons_iff :
    KeepsSlashes (c :: s) ↔ (c = '\\' → ∀ v, s = '[' :: v → OpensTag v) ∧ KeepsSlashes s := by
  constructor
  · intro h
    refine ⟨?_, fun u v hs => h (c :: u) v (by rw [hs, List.cons_append])⟩
    rintro rfl v rfl
    exact h [] v rfl
  · rintro ⟨hfirst, hrest⟩ u v h
    cases u with
    | nil =>
        obtain ⟨hc, hs⟩ := List.cons.inj h
        exact hfirst hc v hs
    | cons d u => exact hrest u v (List.cons.inj h).2

/-- Backslashes matter only to a bracket right after them. -/
theorem keepsSlashes_slashes_iff (n : Nat) :
    KeepsSlashes (slashes n ++ s) ↔
      (n ≠ 0 → ∀ v, s = '[' :: v → OpensTag v) ∧ KeepsSlashes s := by
  induction n with
  | zero => simp
  | succ n ih =>
      rw [slashes_succ, List.cons_append, keepsSlashes_cons_iff, ih]
      cases n with
      | zero => simp
      | succ n => simp [slashes_succ]

theorem keepsSlashes_of_ne (hc : c ≠ '\\') : KeepsSlashes (c :: s) ↔ KeepsSlashes s := by
  rw [keepsSlashes_cons_iff]
  exact ⟨And.right, fun h => ⟨fun hslash => absurd hslash hc, h⟩⟩

/-- No bracket stands inside a tag's name or right after it. -/
theorem keepsSlashes_name_iff (hname : ∀ d ∈ name, isBracket d = false) :
    KeepsSlashes (name ++ ']' :: s) ↔ KeepsSlashes s := by
  induction name with
  | nil => exact keepsSlashes_of_ne (by decide)
  | cons d name ih =>
      obtain ⟨hd, hrest⟩ := List.forall_mem_cons.mp hname
      rw [List.cons_append, keepsSlashes_cons_iff, ih hrest]
      refine ⟨And.right, fun h => ⟨fun _ v hv => ?_, h⟩⟩
      cases name with
      | nil => cases hv
      | cons e name =>
          obtain ⟨rfl, _⟩ := List.cons.inj hv
          exact absurd (hrest '[' List.mem_cons_self) (by decide)

theorem keepsSlashes_tag_iff (hc : startsTag c = true) (hname : ∀ d ∈ name, isBracket d = false) :
    KeepsSlashes ('[' :: c :: (name ++ ']' :: s)) ↔ KeepsSlashes s := by
  have hslash : c ≠ '\\' := by
    rintro rfl
    exact absurd hc (by decide)
  rw [keepsSlashes_of_ne (by decide), keepsSlashes_of_ne hslash, keepsSlashes_name_iff hname]

/-- An escaped text is shown as it was exactly if no bracket takes away a backslash. -/
theorem plain_escapeAfter_eq_iff (n : Nat) (s : List Char) :
    plain (escapeAfter n s) = slashes n ++ s ↔ KeepsSlashes (slashes n ++ s) := by
  induction s using markup_induction generalizing n with
  | nil =>
      rw [plain_escapeAfter_nil, keepsSlashes_slashes_iff, List.append_nil]
      simp [keepsSlashes_nil]
  | slash s ih =>
      rw [plain_escapeAfter_slash, ← slashes_succ_append]
      exact ih (n + 1)
  | tag c name s hc hname ih =>
      have hrest : plain (escapeAfter 0 s) = s ↔ KeepsSlashes s := ih 0
      have htag : ∀ v, '[' :: c :: (name ++ ']' :: s) = '[' :: v → OpensTag v := by
        intro v hv
        exact ⟨c, name, s, (List.cons.inj hv).2.symm, hc, hname⟩
      rw [plain_escapeAfter_tag hc hname, keepsSlashes_slashes_iff, keepsSlashes_tag_iff hc hname]
      simp [hrest, htag]
  | bracket s hs ih =>
      have hrest : plain (escapeAfter 0 s) = s ↔ KeepsSlashes s := ih 0
      have hopen : KeepsSlashes ('[' :: s) ↔ KeepsSlashes s := keepsSlashes_of_ne (by decide)
      rw [plain_escapeAfter_bracket hs, keepsSlashes_slashes_iff, hopen]
      cases n with
      | zero => simp [hrest]
      | succ n =>
          -- one backslash is missing, and nothing after it makes up for that
          have hshort := (plain_escapeAfter_sublist 0 s).length_le
          rw [slashes_zero, List.nil_append] at hshort
          constructor
          · intro heq
            have hlength := congrArg List.length heq
            simp [slashes] at hlength
            omega
          · rintro ⟨hbracket, _⟩
            exact absurd (hbracket (Nat.succ_ne_zero n) s rfl) hs
  | other c s hslash hopen ih =>
      have hrest : plain (escapeAfter 0 s) = s ↔ KeepsSlashes s := ih 0
      rw [plain_escapeAfter_other hslash hopen, keepsSlashes_slashes_iff,
        keepsSlashes_of_ne hslash]
      simp [hrest, hopen]

/-! ## Backslashes at the end -/

theorem endsInOneSlash_concat_slash (u : List Char) :
    endsInOneSlash (u ++ ['\\']) = decide (u.getLast? ≠ some '\\') := by
  rw [endsInOneSlash, List.reverse_append, List.getLast?_eq_head?_reverse]
  cases u.reverse with
  | nil => rfl
  | cons d rest => simp [bne, Bool.beq_eq_decide_eq]

theorem endsInOneSlash_concat_other (hc : c ≠ '\\') (u : List Char) :
    endsInOneSlash (u ++ [c]) = false := by
  rw [endsInOneSlash, List.reverse_append]
  simp [hc]

/-- A text ends in exactly one backslash if that is its last character, and not the one before
    it too. -/
theorem endsInOneSlash_iff :
    endsInOneSlash s = true ↔ ∃ u, s = u ++ ['\\'] ∧ u.getLast? ≠ some '\\' := by
  constructor
  · intro h
    rcases List.eq_nil_or_concat s with rfl | ⟨u, c, rfl⟩
    · cases h
    · rw [List.concat_eq_append] at h ⊢
      by_cases hc : c = '\\'
      · subst hc
        rw [endsInOneSlash_concat_slash, decide_eq_true_eq] at h
        exact ⟨u, rfl, h⟩
      · rw [endsInOneSlash_concat_other hc] at h
        cases h
  · rintro ⟨u, rfl, hu⟩
    rw [endsInOneSlash_concat_slash]
    exact decide_eq_true hu

/-- Of a text only the backslashes after its last other character count. -/
theorem endsInOneSlash_append_cons (hc : c ≠ '\\') (s t : List Char) :
    endsInOneSlash (s ++ c :: t) = endsInOneSlash t := by
  rcases List.eq_nil_or_concat t with rfl | ⟨t, d, rfl⟩
  · exact endsInOneSlash_concat_other hc s
  · have happend : s ++ c :: t.concat d = (s ++ c :: t) ++ [d] := by simp
    rw [happend, List.concat_eq_append]
    by_cases hd : d = '\\'
    · subst hd
      rw [endsInOneSlash_concat_slash, endsInOneSlash_concat_slash]
      cases h : t.getLast? <;> simp [List.getLast?_cons, h, hc]
    · rw [endsInOneSlash_concat_other hd, endsInOneSlash_concat_other hd]

theorem endsInOneSlash_escapeAfter (n : Nat) (s : List Char) :
    endsInOneSlash (escapeAfter n s) = endsInOneSlash (slashes n ++ s) := by
  induction s using markup_induction generalizing n with
  | nil => rw [escapeAfter_nil, List.append_nil]
  | slash s ih => rw [escapeAfter_slash, ih, slashes_succ_append]
  | tag c name s hc hname ih =>
      -- both end as what comes after the closing bracket does
      have hends (front rest : List Char) :
          endsInOneSlash (front ++ '[' :: c :: (name ++ ']' :: rest)) = endsInOneSlash rest := by
        have happend : front ++ '[' :: c :: (name ++ ']' :: rest) =
            (front ++ '[' :: c :: name) ++ ']' :: rest := by simp
        rw [happend, endsInOneSlash_append_cons (by decide)]
      rw [escapeAfter_tag hc hname, hends, hends, ih, slashes_zero, List.nil_append]
  | bracket s hs ih =>
      rw [escapeAfter_bracket hs, endsInOneSlash_append_cons (by decide),
        endsInOneSlash_append_cons (by decide), ih, slashes_zero, List.nil_append]
  | other c s hslash hopen ih =>
      rw [escapeAfter_other hslash hopen, endsInOneSlash_append_cons hslash,
        endsInOneSlash_append_cons hslash, ih, slashes_zero, List.nil_append]

theorem not_opensTag_append_slash (h : ¬ OpensTag s) : ¬ OpensTag (s ++ ['\\']) := by
  cases s with
  | nil => exact not_opensTag_slash []
  | cons c s =>
      have hnone : ['\\'].find? isBracket = none := rfl
      rw [opensTag_cons_iff] at h
      rwa [List.cons_append, opensTag_cons_iff, List.find?_append, hnone, Option.or_none]

/-- A backslash at the end of a text is shown. -/
theorem plainAfter_append_slash (n : Nat) (s : List Char) :
    plainAfter n (s ++ ['\\']) = plainAfter n s ++ ['\\'] := by
  induction s using markup_induction generalizing n with
  | nil =>
      rw [List.nil_append, plainAfter_slash, plainAfter_nil, plainAfter_nil, ← List.append_nil
        (slashes (n + 1)), slashes_succ_append]
  | slash s ih => rw [List.cons_append, plainAfter_slash, plainAfter_slash, ih]
  | tag c name s hc hname ih =>
      have hcons : '[' :: c :: (name ++ ']' :: s) ++ ['\\'] =
          '[' :: c :: (name ++ ']' :: (s ++ ['\\'])) := by simp
      rw [hcons, plainAfter_tag hc hname, plainAfter_tag hc hname, ih, List.append_assoc,
        List.append_assoc, List.append_assoc]
  | bracket s hs ih =>
      rw [List.cons_append, plainAfter_bracket (not_opensTag_append_slash hs),
        plainAfter_bracket hs, ih, List.append_assoc, List.cons_append]
  | other c s hslash hopen ih =>
      rw [List.cons_append, plainAfter_other hslash hopen, plainAfter_other hslash hopen, ih,
        List.append_assoc, List.cons_append]

/-! ## Escaping undone -/

/-- What is shown of an escaped text: one backslash less in front of every bracket that opens no
    tag, and one more at the end if there was exactly one. -/
theorem plain_escape (s : List Char) :
    plain (escape s) =
      plain (escapeAfter 0 s) ++ if endsInOneSlash s then ['\\'] else [] := by
  have hends : endsInOneSlash (escapeAfter 0 s) = endsInOneSlash s := by
    rw [endsInOneSlash_escapeAfter, slashes_zero, List.nil_append]
  rw [escape, hends]
  split
  · rw [plain, plainAfter_append_slash, plain]
  · rw [List.append_nil]

/-- What is shown of an escaped text, with some characters other than the backslash left out, is
    the text itself exactly if none of these are in it, no bracket takes away a backslash, and
    none is added at the end. -/
theorem filter_plain_escape_eq_self_iff {p : Char → Bool} (hp : p '\\' = true) :
    (plain (escape s)).filter p = s ↔
      endsInOneSlash s = false ∧ KeepsSlashes s ∧ ∀ c ∈ s, p c = true := by
  have hkeeps : plain (escapeAfter 0 s) = s ↔ KeepsSlashes s := plain_escapeAfter_eq_iff 0 s
  rw [plain_escape]
  cases hends : endsInOneSlash s with
  | true =>
      -- two backslashes are shown at the end where the text has one
      obtain ⟨u, hu, hlast⟩ := endsInOneSlash_iff.mp hends
      have hshown := getLast?_plain_escapeAfter 0 s
      rw [slashes_zero, List.nil_append, hu, List.getLast?_concat,
        List.getLast?_eq_some_iff] at hshown
      obtain ⟨front, hfront⟩ := hshown
      refine ⟨fun heq => ?_, fun h => by cases h.1⟩
      rw [if_pos rfl, hu, hfront, List.filter_append, List.filter_append] at heq
      simp only [List.filter_cons, hp, if_true, List.filter_nil, List.append_left_inj] at heq
      rw [← heq, List.getLast?_concat] at hlast
      exact absurd rfl hlast
  | false =>
      rw [if_neg Bool.false_ne_true, List.append_nil, ← hkeeps]
      constructor
      · intro heq
        -- nothing is added, so nothing can be missing either
        have hless : plain (escapeAfter 0 s) <+ s := plain_escapeAfter_sublist 0 s
        have hmore : (plain (escapeAfter 0 s)).filter p <+ plain (escapeAfter 0 s) :=
          List.filter_sublist
        rw [heq] at hmore
        have hsame := hless.antisymm hmore
        rw [hsame, List.filter_eq_self] at heq
        exact ⟨rfl, hsame, heq⟩
      · rintro ⟨_, hsame, hall⟩
        rw [hsame, List.filter_eq_self]
        exact hall

/-! ## Styled text -/

theorem plain_append (hs : ∀ c ∈ s, c ≠ '\\' ∧ c ≠ '[') (t : List Char) :
    plain (s ++ t) = s ++ plain t := by
  induction s with
  | nil => rfl
  | cons c s ih =>
      obtain ⟨⟨hslash, hopen⟩, hrest⟩ := List.forall_mem_cons.mp hs
      have htail : plainAfter 0 (s ++ t) = s ++ plainAfter 0 t := ih hrest
      rw [plain, List.cons_append, plainAfter_other hslash hopen, htail]
      rfl

theorem plain_tag (hc : startsTag c = true) (hname : ∀ d ∈ name, isBracket d = false)
    (s : List Char) : plain ('[' :: c :: (name ++ ']' :: s)) = plain s := by
  rw [plain, plainAfter_tag hc hname]
  rfl

theorem isBracket_of_startsTag (hc : startsTag c = true) : isBracket c = false := by
  rw [Bool.eq_false_iff]
  intro h
  simp only [isBracket, Bool.or_eq_true, decide_eq_true_eq] at h
  rcases h with rfl | rfl
  · exact absurd hc (by decide)
  · exact absurd hc (by decide)

/-- A style's tags are not shown. -/
theorem plain_styled {style : String} (hstyle : style.toList = c :: name)
    (hc : startsTag c = true) (hname : ∀ d ∈ name, isBracket d = false)
    (hs : ∀ d ∈ s, d ≠ '\\' ∧ d ≠ '[') (t : List Char) :
    plain (styled style s ++ t) = s ++ plain t := by
  have hclose : ∀ d ∈ c :: name, isBracket d = false :=
    List.forall_mem_cons.mpr ⟨isBracket_of_startsTag hc, hname⟩
  have hlaid : styled style s ++ t =
      '[' :: c :: (name ++ ']' :: (s ++ '[' :: '/' :: ((c :: name) ++ ']' :: t))) := by
    rw [styled, hstyle]
    simp
  rw [hlaid, plain_tag hc hname, plain_append hs, plain_tag (by decide) hclose]

end NormalAlgorithm.Text.Markup
