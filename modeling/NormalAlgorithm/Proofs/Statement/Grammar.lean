/-
  NormalAlgorithm.Proofs.Statement.Grammar

  The grammar of statements, and that the reader finds its longest reading.

  A reading of a text is a split into left side, arrow, optional closing mark and
  right side with blanks between them (`IsReading`). A text may have many: sides
  may hold arrows, so `a->b->c` splits at either. The reader tries the left sides
  from the longest down, and the main statements say that this settles the matter:

    * `read?_eq_some_iff`: the reader gives the reading with the longest left side.
    * `read?_eq_none_iff`: the reader refuses the texts without a reading.

  Since the reader is a function, the longest reading is unique in all its parts.
  The steps are those of the reader: sides (`length_le_sideRun`), what follows the
  arrow (`readRight?_eq_some_iff`), one left side (`readAt?_eq_some_iff`), all left
  sides (`isReading_iff`).
-/

import NormalAlgorithm.Proofs.Text.Blank
import NormalAlgorithm.Statement

namespace NormalAlgorithm.Statement

open NormalAlgorithm.Text

/-! ## Grammar -/

/-- An empty word mark, or nothing. -/
def markIf (present : Bool) : List Char := if present then [emptyMark] else []

/-- A closing mark, or nothing. -/
def closingIf (present : Bool) : List Char := if present then [closingMark] else []

/-- A side: plain characters with an optional mark at either end. -/
def IsSide (s : List Char) : Prop :=
  ∃ lead x trail, (∀ c ∈ x, isPlain c = true) ∧ s = markIf lead ++ x ++ markIf trail

/-- The two arrows. -/
inductive Arrow where
  | thin
  | thick
  deriving DecidableEq, Repr

/-- An arrow as text. -/
def Arrow.text : Arrow → List Char
  | .thin => ['-', '>']
  | .thick => ['=', '>']

/-- How the parts of a statement are laid out: which arrow, and which blanks stand
    between the parts. -/
structure Layout where
  /-- Before the left side. -/
  start : List Char
  /-- Between the left side and the arrow. -/
  gap : List Char
  arrow : Arrow
  /-- After the arrow. -/
  afterArrow : List Char
  /-- Between the closing mark, if there is one, and the right side. -/
  beforeRight : List Char
  /-- After the right side. -/
  finish : List Char
  start_blank : AllBlank start
  gap_blank : AllBlank gap
  afterArrow_blank : AllBlank afterArrow
  beforeRight_blank : AllBlank beforeRight
  finish_blank : AllBlank finish

/-- What follows the left side. -/
def Layout.tail (lay : Layout) (closing : Bool) (right : List Char) : List Char :=
  lay.gap ++ lay.arrow.text ++ lay.afterArrow ++ closingIf closing ++ lay.beforeRight ++ right ++
    lay.finish

/-- The parts of a statement, laid out. -/
def Layout.write (lay : Layout) (p : Reading) : List Char :=
  lay.start ++ p.left ++ lay.tail p.closing p.right

/-- A way to split a text into the parts of a statement. -/
structure IsReading (s : List Char) (p : Reading) : Prop where
  left_side : IsSide p.left
  right_side : IsSide p.right
  laid_out : ∃ lay : Layout, s = lay.write p

/-- A reading with the longest left side. -/
structure IsLongestReading (s : List Char) (p : Reading) : Prop where
  reading : IsReading s p
  longest : ∀ q, IsReading s q → q.left.length ≤ p.left.length

/-! ## Sides -/

theorem isPlain_emptyMark : isPlain emptyMark = false := by decide

theorem isBlank_emptyMark : isBlank emptyMark = false := by decide

theorem isBlank_closingMark : isBlank closingMark = false := by decide

theorem noBlank_of_plain {x : List Char} (hx : ∀ c ∈ x, isPlain c = true) : NoBlank x := by
  intro c hc
  have h := hx c hc
  simp only [isPlain, Bool.and_eq_true, Bool.not_eq_true'] at h
  exact h.1.1

/-- Every character of a side is plain or the mark. -/
theorem IsSide.mem {s : List Char} (h : IsSide s) {c : Char} (hc : c ∈ s) :
    isPlain c = true ∨ c = emptyMark := by
  obtain ⟨lead, x, trail, hx, rfl⟩ := h
  have hmark : ∀ b, c ∈ markIf b → c = emptyMark := by
    intro b hb
    cases b with
    | false => exact absurd hb List.not_mem_nil
    | true => exact List.mem_singleton.mp hb
  rcases List.mem_append.mp hc with hc | hc
  · rcases List.mem_append.mp hc with hc | hc
    · exact Or.inr (hmark lead hc)
    · exact Or.inl (hx c hc)
  · exact Or.inr (hmark trail hc)

theorem IsSide.noBlank {s : List Char} (h : IsSide s) : NoBlank s := by
  intro c hc
  rcases h.mem hc with hp | rfl
  · exact noBlank_of_plain (x := [c]) (by simpa using hp) c List.mem_cons_self
  · exact isBlank_emptyMark

theorem IsSide.closingMark_not_mem {s : List Char} (h : IsSide s) : closingMark ∉ s := by
  intro hc
  rcases h.mem hc with hp | he
  · exact absurd hp (by decide)
  · exact absurd he (by decide)

theorem take_markIf (n : Nat) (b : Bool) : ∃ b', (markIf b).take n = markIf b' := by
  cases n with
  | zero => exact ⟨false, rfl⟩
  | succ n =>
      refine ⟨b, ?_⟩
      cases b with
      | false => rfl
      | true => simp [markIf]

/-- A front of a side is a side. -/
theorem IsSide.take {s : List Char} (h : IsSide s) (n : Nat) : IsSide (s.take n) := by
  obtain ⟨lead, x, trail, hx, rfl⟩ := h
  obtain ⟨lead', hlead⟩ := take_markIf n lead
  obtain ⟨trail', htrail⟩ := take_markIf (n - (markIf lead ++ x).length) trail
  refine ⟨lead', x.take (n - (markIf lead).length), trail', ?_, ?_⟩
  · intro c hc
    exact hx c (List.mem_of_mem_take hc)
  · rw [List.take_append, List.take_append, hlead, htrail]

/-- The longest run of plain characters and an optional mark after it. -/
def bodyRun (s : List Char) : List Char := s.takeWhile isPlain ++ leadingMark (s.dropWhile isPlain)

theorem sideRun_eq (s : List Char) :
    sideRun s = leadingMark s ++ bodyRun (s.drop (leadingMark s).length) := by
  simp only [sideRun, bodyRun, List.append_assoc]

theorem leadingMark_eq_markIf (s : List Char) : ∃ b, leadingMark s = markIf b := by
  cases s with
  | nil => exact ⟨false, rfl⟩
  | cons c rest =>
      by_cases hc : c = emptyMark
      · exact ⟨true, by simp [leadingMark, markIf, hc]⟩
      · exact ⟨false, by simp [leadingMark, markIf, hc]⟩

theorem leadingMark_append_drop (s : List Char) :
    leadingMark s ++ s.drop (leadingMark s).length = s := by
  cases s with
  | nil => rfl
  | cons c rest =>
      by_cases hc : c = emptyMark
      · simp [leadingMark, hc]
      · simp [leadingMark, hc]

theorem bodyRun_isPrefix (s : List Char) : bodyRun s <+: s := by
  refine ⟨(s.dropWhile isPlain).drop (leadingMark (s.dropWhile isPlain)).length, ?_⟩
  rw [bodyRun, List.append_assoc, leadingMark_append_drop, List.takeWhile_append_dropWhile]

/-- The longest side at the front of a text stands there. -/
theorem sideRun_isPrefix (s : List Char) : sideRun s <+: s := by
  obtain ⟨rest, hrest⟩ := bodyRun_isPrefix (s.drop (leadingMark s).length)
  refine ⟨rest, ?_⟩
  rw [sideRun_eq, List.append_assoc, hrest, leadingMark_append_drop]

/-- The longest side at the front of a text is a side. -/
theorem isSide_sideRun (s : List Char) : IsSide (sideRun s) := by
  obtain ⟨lead, hlead⟩ := leadingMark_eq_markIf s
  obtain ⟨trail, htrail⟩ :=
    leadingMark_eq_markIf ((s.drop (leadingMark s).length).dropWhile isPlain)
  refine ⟨lead, (s.drop (leadingMark s).length).takeWhile isPlain, trail, ?_, ?_⟩
  · intro c hc
    exact List.mem_takeWhile_imp hc
  · rw [sideRun_eq, bodyRun, htrail, ← hlead, List.append_assoc]

theorem length_le_bodyRun {x : List Char} (hx : ∀ c ∈ x, isPlain c = true) (trail : Bool)
    (rest : List Char) :
    (x ++ markIf trail).length ≤ (bodyRun (x ++ markIf trail ++ rest)).length := by
  rw [bodyRun, List.append_assoc, List.takeWhile_append_of_pos hx, List.dropWhile_append_of_pos hx]
  cases trail with
  | false =>
      simp only [markIf, Bool.false_eq_true, if_false, List.length_append, List.length_nil]
      omega
  | true =>
      -- the mark is not plain, so the run of plain characters ends with `x`
      simp [markIf, isPlain_emptyMark, leadingMark]

/-- No side at the front of a text is longer than the longest. -/
theorem length_le_sideRun {l s : List Char} (hl : IsSide l) (hs : l <+: s) :
    l.length ≤ (sideRun s).length := by
  obtain ⟨rest, rfl⟩ := hs
  obtain ⟨lead, x, trail, hx, rfl⟩ := hl
  rw [sideRun_eq]
  cases lead with
  | true =>
      have h := length_le_bodyRun hx trail rest
      simp only [markIf, if_true, List.append_assoc, List.cons_append, List.nil_append,
        leadingMark, List.length_cons, List.length_nil, List.drop_succ_cons, List.drop_zero]
        at h ⊢
      omega
  | false =>
      cases x with
      | nil =>
          cases trail with
          | false => exact Nat.zero_le _
          | true => simp [markIf, leadingMark]
      | cons c x' =>
          have hc : c ≠ emptyMark := by
            rintro rfl
            exact absurd (hx emptyMark List.mem_cons_self) (by decide)
          have h := length_le_bodyRun hx trail rest
          simpa [markIf, leadingMark, hc] using h

/-- The check for sides agrees with their form. -/
theorem isSide_eq_true_iff {s : List Char} : isSide s = true ↔ IsSide s := by
  rw [isSide, decide_eq_true_eq]
  constructor
  · intro h
    rw [← h]
    exact isSide_sideRun s
  · intro h
    have hle := length_le_sideRun h (List.prefix_refl s)
    exact (sideRun_isPrefix s).eq_of_length_le hle

/-! ## After the left side -/

theorem dropArrow?_eq_some_iff {s rest : List Char} :
    dropArrow? s = some rest ↔ ∃ arrow : Arrow, s = arrow.text ++ rest := by
  constructor
  · intro h
    unfold dropArrow? at h
    split at h
    · rw [Option.some.injEq] at h
      exact ⟨.thin, by rw [h]; rfl⟩
    · rw [Option.some.injEq] at h
      exact ⟨.thick, by rw [h]; rfl⟩
    · cases h
  · rintro ⟨arrow, rfl⟩
    cases arrow <;> rfl

theorem Arrow.noBlank_text (a : Arrow) : NoBlank a.text := by
  cases a <;> decide

theorem Arrow.text_ne_nil (a : Arrow) : a.text ≠ [] := by
  cases a <;> simp [Arrow.text]

/-- A text that is a side between blanks, with whether a closing mark stood before it. -/
def sideAfter (closing : Bool) (s : List Char) : Option (Bool × List Char) :=
  if isSide (trim s) then some (closing, trim s) else none

theorem sideAfter_eq_some_iff {closing closing' : Bool} {s right : List Char} :
    sideAfter closing s = some (closing', right) ↔
      closing' = closing ∧ IsSide right ∧
        ∃ w w', AllBlank w ∧ AllBlank w' ∧ s = w ++ right ++ w' := by
  constructor
  · intro h
    rw [sideAfter] at h
    by_cases hside : isSide (trim s) = true
    · rw [if_pos hside, Option.some.injEq, Prod.mk.injEq] at h
      obtain ⟨hclosing, rfl⟩ := h
      exact ⟨hclosing.symm, isSide_eq_true_iff.mp hside, exists_blanks_trim s⟩
    · rw [if_neg hside] at h
      cases h
  · rintro ⟨rfl, hside, w, w', hw, hw', rfl⟩
    have htrim := trim_layout hw hside.noBlank hw'
    rw [sideAfter, htrim, if_pos (isSide_eq_true_iff.mpr hside)]

theorem readRight?_of_closing {s rest : List Char} (h : dropBlanks s = closingMark :: rest) :
    readRight? s = sideAfter true rest := by
  simp [readRight?, sideAfter, h]

theorem readRight?_of_not_closing {s : List Char} (h : (dropBlanks s).head? ≠ some closingMark) :
    readRight? s = sideAfter false s := by
  have hb : ((dropBlanks s).head? == some closingMark) = false := beq_eq_false_iff_ne.mpr h
  simp only [readRight?, sideAfter, hb, Bool.false_eq_true, if_false, trim_dropBlanks]

/-- The text after an arrow is read as closing mark and right side exactly when it
    is laid out so. -/
theorem readRight?_eq_some_iff {s right : List Char} {closing : Bool} :
    readRight? s = some (closing, right) ↔
      IsSide right ∧ ∃ w w' w'', AllBlank w ∧ AllBlank w' ∧ AllBlank w'' ∧
        s = w ++ closingIf closing ++ w' ++ right ++ w'' := by
  constructor
  · intro h
    by_cases hhead : (dropBlanks s).head? = some closingMark
    · obtain ⟨rest, hrest⟩ := List.head?_eq_some_iff.mp hhead
      rw [readRight?_of_closing hrest, sideAfter_eq_some_iff] at h
      obtain ⟨rfl, hside, w', w'', hw', hw'', rfl⟩ := h
      obtain ⟨w, hw, hs⟩ := exists_blanks_dropBlanks s
      refine ⟨hside, w, w', w'', hw, hw', hw'', ?_⟩
      rw [hs, hrest]
      simp [closingIf]
    · rw [readRight?_of_not_closing hhead, sideAfter_eq_some_iff] at h
      obtain ⟨rfl, hside, w, w', hw, hw', rfl⟩ := h
      refine ⟨hside, w, [], w', hw, allBlank_nil, hw', ?_⟩
      simp [closingIf]
  · rintro ⟨hside, w, w', w'', hw, hw', hw'', rfl⟩
    cases closing with
    | true =>
        have hdrop : dropBlanks (w ++ closingIf true ++ w' ++ right ++ w'')
            = closingMark :: (w' ++ right ++ w'') := by
          rw [List.append_assoc, List.append_assoc, List.append_assoc,
            dropBlanks_append_of_allBlank hw, ← List.append_assoc w']
          exact dropBlanks_cons isBlank_closingMark (w' ++ right ++ w'')
        rw [readRight?_of_closing hdrop, sideAfter_eq_some_iff]
        exact ⟨rfl, hside, w', w'', hw', hw'', rfl⟩
    | false =>
        -- neither blanks nor a side hold the closing mark, so it is not seen
        have hmem : closingMark ∉ w ++ closingIf false ++ w' ++ right ++ w'' := by
          have hblank : ∀ v, AllBlank v → closingMark ∉ v := by
            intro v hv hc
            exact absurd (hv closingMark hc) (by decide)
          simp [closingIf, hblank w hw, hblank w' hw', hblank w'' hw'',
            hside.closingMark_not_mem]
        have hhead : (dropBlanks (w ++ closingIf false ++ w' ++ right ++ w'')).head?
            ≠ some closingMark := by
          intro h
          exact hmem ((List.dropWhile_sublist isBlank).mem (List.mem_of_mem_head? h))
        rw [readRight?_of_not_closing hhead, sideAfter_eq_some_iff]
        refine ⟨rfl, hside, w ++ w', w'', hw.append hw', hw'', ?_⟩
        simp [closingIf]

/-! ## One left side -/

theorem readAt?_eq_some_iff {s : List Char} {n : Nat} {p : Reading} :
    readAt? s n = some p ↔
      p.left = s.take n ∧ IsSide p.right ∧
        ∃ lay : Layout, s.drop n = lay.tail p.closing p.right := by
  constructor
  · intro h
    rw [readAt?] at h
    split at h
    · cases h
    · rename_i rest hrest
      split at h
      · cases h
      · rename_i closing right hright
        rw [Option.some.injEq] at h
        subst h
        obtain ⟨gap, hgap, hdrop⟩ := exists_blanks_dropBlanks (s.drop n)
        obtain ⟨arrow, harrow⟩ := dropArrow?_eq_some_iff.mp hrest
        obtain ⟨hside, w, w', w'', hw, hw', hw'', rfl⟩ := readRight?_eq_some_iff.mp hright
        refine ⟨rfl, hside, ⟨[], gap, arrow, w, w', w'', allBlank_nil, hgap, hw, hw', hw''⟩, ?_⟩
        rw [hdrop, harrow]
        simp only [Layout.tail, List.append_assoc]
  · obtain ⟨left, closing, right⟩ := p
    rintro ⟨rfl, hside, lay, hlay⟩
    have hdrop : dropBlanks (s.drop n) = lay.arrow.text ++
        (lay.afterArrow ++ closingIf closing ++ lay.beforeRight ++ right ++ lay.finish) := by
      rw [hlay, Layout.tail]
      simp only [List.append_assoc]
      rw [dropBlanks_append_of_allBlank lay.gap_blank,
        dropBlanks_append_of_noBlank lay.arrow.noBlank_text lay.arrow.text_ne_nil]
    have harrow := dropArrow?_eq_some_iff.mpr ⟨lay.arrow, hdrop⟩
    have hright : readRight? (lay.afterArrow ++ closingIf closing ++ lay.beforeRight ++ right ++
        lay.finish) = some (closing, right) :=
      readRight?_eq_some_iff.mpr ⟨hside, lay.afterArrow, lay.beforeRight, lay.finish,
        lay.afterArrow_blank, lay.beforeRight_blank, lay.finish_blank, rfl⟩
    simp only [readAt?, harrow, hright]

theorem length_left_of_readAt? {s : List Char} {n : Nat} {p : Reading} (hn : n ≤ s.length)
    (h : readAt? s n = some p) : p.left.length = n := by
  rw [(readAt?_eq_some_iff.mp h).1, List.length_take, Nat.min_eq_left hn]

/-- Behind its leading blanks, a statement starts with its left side. -/
theorem dropBlanks_write (lay : Layout) {p : Reading} (hl : IsSide p.left) :
    ∃ lay' : Layout, dropBlanks (lay.write p) = p.left ++ lay'.tail p.closing p.right := by
  rw [Layout.write, List.append_assoc, dropBlanks_append_of_allBlank lay.start_blank]
  by_cases hne : p.left = []
  · -- the blanks before the arrow are leading blanks too
    refine ⟨{ lay with gap := [], gap_blank := allBlank_nil }, ?_⟩
    rw [hne, List.nil_append, List.nil_append, Layout.tail, Layout.tail]
    simp only [List.append_assoc, List.nil_append]
    rw [dropBlanks_append_of_allBlank lay.gap_blank,
      dropBlanks_append_of_noBlank lay.arrow.noBlank_text lay.arrow.text_ne_nil]
  · exact ⟨lay, dropBlanks_append_of_noBlank hl.noBlank hne⟩

/-! ## All left sides -/

theorem length_sideRun_le (s : List Char) : (sideRun s).length ≤ s.length :=
  (sideRun_isPrefix s).length_le

/-- The readings of a text are those that the reader can find. -/
theorem isReading_iff {s : List Char} {p : Reading} :
    IsReading s p ↔
      ∃ n, n ≤ (sideRun (dropBlanks s)).length ∧ readAt? (dropBlanks s) n = some p := by
  constructor
  · rintro ⟨hl, hr, lay, rfl⟩
    obtain ⟨lay', hlay'⟩ := dropBlanks_write lay hl
    refine ⟨p.left.length, length_le_sideRun hl ⟨_, hlay'.symm⟩, ?_⟩
    rw [readAt?_eq_some_iff, hlay', List.take_left, List.drop_left]
    exact ⟨rfl, hr, lay', rfl⟩
  · rintro ⟨n, hn, h⟩
    obtain ⟨hleft, hr, lay, hlay⟩ := readAt?_eq_some_iff.mp h
    obtain ⟨w, hw, hs⟩ := exists_blanks_dropBlanks s
    refine ⟨?_, hr, { lay with start := w, start_blank := hw }, ?_⟩
    · obtain ⟨rest, hrest⟩ := sideRun_isPrefix (dropBlanks s)
      rw [hleft, ← hrest, List.take_append_of_le_length hn]
      exact (isSide_sideRun _).take n
    · have hsplit := List.take_append_drop n (dropBlanks s)
      rw [← hleft, hlay] at hsplit
      rw [Layout.write, List.append_assoc]
      exact hs.trans (congrArg (w ++ ·) hsplit.symm)

theorem readUpTo?_eq_none_iff {s : List Char} {n : Nat} :
    readUpTo? s n = none ↔ ∀ k, k ≤ n → readAt? s k = none := by
  induction n with
  | zero =>
      constructor
      · intro h k hk
        rw [Nat.le_zero.mp hk]
        exact h
      · intro h
        exact h 0 (Nat.le_refl 0)
  | succ n ih =>
      rw [readUpTo?]
      constructor
      · intro h k hk
        split at h
        · cases h
        · rename_i hnone
          rcases Nat.lt_or_eq_of_le hk with hlt | rfl
          · exact ih.mp h k (Nat.le_of_lt_succ hlt)
          · exact hnone
      · intro h
        rw [h (n + 1) (Nat.le_refl _)]
        exact ih.mpr fun k hk => h k (Nat.le_succ_of_le hk)

/-- The reader settles on the longest left side that works. -/
theorem readUpTo?_eq_some {s : List Char} {n : Nat} {p : Reading} (h : readUpTo? s n = some p) :
    ∃ m, m ≤ n ∧ readAt? s m = some p ∧ ∀ k, k ≤ n → m < k → readAt? s k = none := by
  induction n with
  | zero =>
      refine ⟨0, Nat.le_refl 0, h, ?_⟩
      intro k hk hpos
      omega
  | succ n ih =>
      rw [readUpTo?] at h
      split at h
      · rename_i reading hreading
        rw [Option.some.injEq] at h
        subst h
        refine ⟨n + 1, Nat.le_refl _, hreading, ?_⟩
        intro k hk hlt
        omega
      · rename_i hnone
        obtain ⟨m, hm, hread, hmax⟩ := ih h
        refine ⟨m, Nat.le_succ_of_le hm, hread, ?_⟩
        intro k hk hlt
        rcases Nat.lt_or_eq_of_le hk with hlt' | rfl
        · exact hmax k (Nat.le_of_lt_succ hlt') hlt
        · exact hnone

/-- The reader refuses the texts without a reading. -/
theorem read?_eq_none_iff {s : List Char} : read? s = none ↔ ∀ p, ¬ IsReading s p := by
  rw [read?, readUpTo?_eq_none_iff]
  constructor
  · intro h p hp
    obtain ⟨n, hn, hread⟩ := isReading_iff.mp hp
    rw [h n hn] at hread
    cases hread
  · intro h k hk
    cases hread : readAt? (dropBlanks s) k with
    | none => rfl
    | some p => exact absurd (isReading_iff.mpr ⟨k, hk, hread⟩) (h p)

/-- What the reader gives is the longest reading. -/
theorem isLongestReading_of_read? {s : List Char} {p : Reading} (h : read? s = some p) :
    IsLongestReading s p := by
  obtain ⟨m, hm, hread, hmax⟩ := readUpTo?_eq_some h
  have hlen := length_sideRun_le (dropBlanks s)
  refine ⟨isReading_iff.mpr ⟨m, hm, hread⟩, ?_⟩
  intro q hq
  obtain ⟨n, hn, hreadq⟩ := isReading_iff.mp hq
  rw [length_left_of_readAt? (by omega) hread, length_left_of_readAt? (by omega) hreadq]
  by_contra hlt
  rw [hmax n hn (by omega)] at hreadq
  cases hreadq

/-- Two readings whose left sides are equally long are the same. -/
theorem IsReading.eq_of_length_eq {s : List Char} {p q : Reading} (hp : IsReading s p)
    (hq : IsReading s q) (hlen : p.left.length = q.left.length) : p = q := by
  obtain ⟨m, hm, hreadp⟩ := isReading_iff.mp hp
  obtain ⟨n, hn, hreadq⟩ := isReading_iff.mp hq
  have hle := length_sideRun_le (dropBlanks s)
  rw [length_left_of_readAt? (by omega) hreadp, length_left_of_readAt? (by omega) hreadq] at hlen
  rw [hlen, hreadq, Option.some.injEq] at hreadp
  exact hreadp.symm

/-- A text has at most one longest reading. -/
theorem IsLongestReading.unique {s : List Char} {p q : Reading} (hp : IsLongestReading s p)
    (hq : IsLongestReading s q) : p = q :=
  hp.reading.eq_of_length_eq hq.reading
    (Nat.le_antisymm (hq.longest p hp.reading) (hp.longest q hq.reading))

/-- The reader gives exactly the longest reading. -/
theorem read?_eq_some_iff {s : List Char} {p : Reading} :
    read? s = some p ↔ IsLongestReading s p := by
  refine ⟨isLongestReading_of_read?, ?_⟩
  intro hp
  cases hread : read? s with
  | none => exact absurd hp.reading (read?_eq_none_iff.mp hread p)
  | some q => rw [(isLongestReading_of_read? hread).unique hp]

-- the split at the last arrow wins, though it leaves no right side
example : read? ['a', '-', '>', 'b', '-', '>'] = some ⟨['a', '-', '>', 'b'], false, []⟩ := by
  decide

end NormalAlgorithm.Statement
