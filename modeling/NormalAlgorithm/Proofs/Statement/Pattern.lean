/-
  NormalAlgorithm.Proofs.Statement.Pattern

  The pattern of statements (`STATEMENT_REGEX`), and that the reader gives its match.

  A pattern is matched by backtracking, and repetition and options are greedy. All ends that a
  matcher can come to are listed in the order in which it tries them (`Pattern.ways`), and its match
  is the first of them.

    * `isReading_of_mem_ways`, `exists_way_of_isReading`: the ways through the pattern of statements
      are the readings of a text.
    * `longestFirst_ways`: the ways with the longest left side come first.
    * `read?_eq_match`: the match is what the reader gives.
-/

import NormalAlgorithm.Proofs.Statement.Grammar

namespace NormalAlgorithm.Statement

open NormalAlgorithm.Text

/-! ## Patterns -/

/-- The named groups of the pattern of statements. -/
inductive Group where
  | lhs
  | closing
  | rhs
  deriving DecidableEq

/-- A pattern of text. -/
inductive Pattern where
  /-- A character of a class. -/
  | one (accepts : Char → Bool)
  /-- Characters of a class, as many as possible. -/
  | many (accepts : Char → Bool)
  /-- A pattern or nothing, the pattern if possible. -/
  | optional (p : Pattern)
  | seq (p q : Pattern)
  /-- A pattern whose text is kept under a name. -/
  | group (name : Group) (p : Pattern)
  /-- The end of the text, or a line feed at its end. -/
  | textEnd

instance : Append Pattern := ⟨Pattern.seq⟩

/-- How far a matcher has come: the texts of the groups, the last one first, and what is left. -/
structure Progress where
  found : List (Group × List Char)
  rest : List Char

/-- What can be left of a text behind characters of a class, the longest run of them first. -/
def rests (accepts : Char → Bool) : List Char → List (List Char)
  | [] => [[]]
  | c :: s => if accepts c then rests accepts s ++ [c :: s] else [c :: s]

/-- How far a matcher can come with a pattern, in the order in which it tries. -/
def Pattern.ways : Pattern → Progress → List Progress
  | .one accepts, m =>
    match m.rest with
    | [] => []
    | c :: s => if accepts c then [⟨m.found, s⟩] else []
  | .many accepts, m => (rests accepts m.rest).map (⟨m.found, ·⟩)
  | .optional p, m => p.ways m ++ [m]
  | .seq p q, m => (p.ways m).flatMap q.ways
  | .group name p, m =>
    (p.ways m).map fun e => ⟨(name, m.rest.take (m.rest.length - e.rest.length)) :: e.found, e.rest⟩
  | .textEnd, m => if m.rest = [] ∨ m.rest = ['\n'] then [m] else []

/-- The match of a pattern at the start of a text. -/
def Pattern.match? (p : Pattern) (s : List Char) : Option Progress := (p.ways ⟨[], s⟩).head?

/-- Plain characters, and an empty word mark that may be missing. -/
def bodyPattern : Pattern := .many isPlain ++ .optional (.one (· == emptyMark))

/-- A side: a mark that may be missing in front of them. -/
def sidePattern : Pattern := .optional (.one (· == emptyMark)) ++ bodyPattern

/-- A statement up to its left side. -/
def openingPattern : Pattern := .many isBlank ++ .group .lhs sidePattern

/-- Either arrow. -/
def arrowPattern : Pattern := .one (fun c => c == '-' || c == '=') ++ .one (· == '>')

/-- A statement from behind its left side. -/
def endingPattern : Pattern :=
  .many isBlank ++ arrowPattern ++ .many isBlank ++
    .optional (.group .closing (.one (· == closingMark))) ++ .many isBlank ++
    .group .rhs sidePattern ++ .many isBlank ++ .textEnd

/-- The pattern of statements. -/
def statementPattern : Pattern := openingPattern ++ endingPattern

/-- The parts of a statement from the groups of its match. -/
def Progress.reading (m : Progress) : Reading where
  left := (m.found.lookup .lhs).getD []
  closing := (m.found.lookup .closing).isSome
  right := (m.found.lookup .rhs).getD []

/-! ## Ways -/

variable {m e : Progress} {p q : Pattern} {accepts : Char → Bool} {found : List (Group × List Char)}
  {s : List Char}

theorem mem_rests_iff {r : List Char} :
    r ∈ rests accepts s ↔ ∃ w, (∀ c ∈ w, accepts c = true) ∧ s = w ++ r := by
  induction s with
  | nil =>
      rw [rests, List.mem_singleton]
      constructor
      · rintro rfl
        exact ⟨[], by simp, rfl⟩
      · rintro ⟨w, _, hw⟩
        exact (List.append_eq_nil_iff.mp hw.symm).2
  | cons c s ih =>
      have hself : ∃ w, (∀ c ∈ w, accepts c = true) ∧ c :: s = w ++ c :: s := ⟨[], by simp, rfl⟩
      rw [rests]
      split
      · rename_i hc
        rw [List.mem_append, List.mem_singleton, ih]
        constructor
        · rintro (⟨w, hw, rfl⟩ | rfl)
          · exact ⟨c :: w, List.forall_mem_cons.mpr ⟨hc, hw⟩, rfl⟩
          · exact hself
        · rintro ⟨w, hw, hs⟩
          cases w with
          | nil => exact .inr hs.symm
          | cons d w =>
              obtain ⟨rfl, rfl⟩ := List.cons.inj hs
              exact .inl ⟨w, (List.forall_mem_cons.mp hw).2, rfl⟩
      · rename_i hc
        rw [List.mem_singleton]
        constructor
        · rintro rfl
          exact hself
        · rintro ⟨w, hw, hs⟩
          cases w with
          | nil => exact hs.symm
          | cons d w =>
              obtain ⟨rfl, rfl⟩ := List.cons.inj hs
              exact absurd (List.forall_mem_cons.mp hw).1 hc

theorem mem_ways_one :
    e ∈ (Pattern.one accepts).ways ⟨found, s⟩ ↔
      ∃ c r, accepts c = true ∧ s = c :: r ∧ e = ⟨found, r⟩ := by
  cases s with
  | nil => simp [Pattern.ways]
  | cons c s =>
      by_cases hc : accepts c = true
      · simp [Pattern.ways, hc]
      · simp [Pattern.ways, hc]

theorem mem_ways_many :
    e ∈ (Pattern.many accepts).ways ⟨found, s⟩ ↔
      ∃ w r, (∀ c ∈ w, accepts c = true) ∧ s = w ++ r ∧ e = ⟨found, r⟩ := by
  simp only [Pattern.ways, List.mem_map, mem_rests_iff]
  constructor
  · rintro ⟨r, ⟨w, hw, hs⟩, rfl⟩
    exact ⟨w, r, hw, hs, rfl⟩
  · rintro ⟨w, r, hw, hs, rfl⟩
    exact ⟨r, ⟨w, hw, hs⟩, rfl⟩

theorem mem_ways_optional : e ∈ (Pattern.optional p).ways m ↔ e ∈ p.ways m ∨ e = m := by
  rw [Pattern.ways, List.mem_append, List.mem_singleton]

theorem ways_append : (p ++ q).ways m = (p.ways m).flatMap q.ways := rfl

theorem mem_ways_append : e ∈ (p ++ q).ways m ↔ ∃ e' ∈ p.ways m, e ∈ q.ways e' := by
  rw [ways_append, List.mem_flatMap]

theorem mem_ways_textEnd :
    e ∈ Pattern.textEnd.ways ⟨found, s⟩ ↔ (s = [] ∨ s = ['\n']) ∧ e = ⟨found, s⟩ := by
  rw [Pattern.ways]
  split
  · rename_i h
    rw [List.mem_singleton]
    exact ⟨fun he => ⟨h, he⟩, And.right⟩
  · rename_i h
    exact iff_of_false List.not_mem_nil fun he => h he.1

/-- What is left after a pattern is an end of what was left before it. -/
theorem isSuffix_of_mem_ways (h : e ∈ p.ways m) : e.rest <:+ m.rest := by
  induction p generalizing m e with
  | one accepts =>
      obtain ⟨c, r, _, hs, rfl⟩ := mem_ways_one.mp h
      exact ⟨[c], hs.symm⟩
  | many accepts =>
      obtain ⟨w, r, _, hs, rfl⟩ := mem_ways_many.mp h
      exact ⟨w, hs.symm⟩
  | optional p ih =>
      rcases mem_ways_optional.mp h with h | rfl
      · exact ih h
      · exact List.suffix_refl _
  | seq p q ihp ihq =>
      obtain ⟨e', he', h⟩ := mem_ways_append.mp h
      exact (ihq h).trans (ihp he')
  | group name p ih =>
      rw [Pattern.ways, List.mem_map] at h
      obtain ⟨e', he', rfl⟩ := h
      have hsuffix := ih he'
      exact hsuffix
  | textEnd =>
      obtain ⟨_, rfl⟩ := mem_ways_textEnd.mp h
      exact List.suffix_refl _

theorem mem_ways_group {name : Group} :
    e ∈ (Pattern.group name p).ways ⟨found, s⟩ ↔
      ∃ e' u, e' ∈ p.ways ⟨found, s⟩ ∧ s = u ++ e'.rest ∧ e = ⟨(name, u) :: e'.found, e'.rest⟩ := by
  have htake {u r : List Char} : (u ++ r).take ((u ++ r).length - r.length) = u := by simp
  rw [Pattern.ways, List.mem_map]
  constructor
  · rintro ⟨e', he', rfl⟩
    obtain ⟨u, hu⟩ := isSuffix_of_mem_ways he'
    dsimp only at hu
    refine ⟨e', u, he', hu.symm, ?_⟩
    rw [← hu, htake]
  · rintro ⟨e', u, he', hu, rfl⟩
    refine ⟨e', he', ?_⟩
    dsimp only
    rw [hu, htake]

/-- The groups of a pattern. -/
def Pattern.names : Pattern → List Group
  | .one _ | .many _ | .textEnd => []
  | .optional p => p.names
  | .seq p q => p.names ++ q.names
  | .group name p => name :: p.names

/-- A pattern leaves the texts of other groups as they are. -/
theorem lookup_of_mem_ways {name : Group} (hname : name ∉ p.names) (h : e ∈ p.ways m) :
    e.found.lookup name = m.found.lookup name := by
  induction p generalizing m e with
  | one accepts =>
      obtain ⟨c, r, _, _, rfl⟩ := mem_ways_one.mp h
      rfl
  | many accepts =>
      obtain ⟨w, r, _, _, rfl⟩ := mem_ways_many.mp h
      rfl
  | optional p ih =>
      rcases mem_ways_optional.mp h with h | rfl
      · exact ih hname h
      · rfl
  | seq p q ihp ihq =>
      obtain ⟨e', he', h⟩ := mem_ways_append.mp h
      rw [Pattern.names, List.mem_append, not_or] at hname
      rw [ihq hname.2 h, ihp hname.1 he']
  | group other p ih =>
      obtain ⟨e', u, he', _, rfl⟩ := mem_ways_group.mp h
      rw [Pattern.names, List.mem_cons, not_or] at hname
      rw [List.lookup_cons, beq_false_of_ne hname.1]
      exact ih hname.2 he'
  | textEnd =>
      obtain ⟨_, rfl⟩ := mem_ways_textEnd.mp h
      rfl

/-! ## Parts of a statement -/

theorem mem_ways_mark :
    e ∈ (Pattern.optional (.one (· == emptyMark))).ways ⟨found, s⟩ ↔
      ∃ present r, s = markIf present ++ r ∧ e = ⟨found, r⟩ := by
  rw [mem_ways_optional, mem_ways_one]
  constructor
  · rintro (⟨c, r, hc, hs, rfl⟩ | rfl)
    · rw [eq_of_beq hc] at hs
      exact ⟨true, r, hs, rfl⟩
    · exact ⟨false, s, rfl, rfl⟩
  · rintro ⟨present, r, hs, rfl⟩
    cases present with
    | true => exact .inl ⟨emptyMark, r, beq_self_eq_true _, hs, rfl⟩
    | false => exact .inr (by rw [hs]; rfl)

theorem mem_ways_side :
    e ∈ sidePattern.ways ⟨found, s⟩ ↔ ∃ u r, IsSide u ∧ s = u ++ r ∧ e = ⟨found, r⟩ := by
  simp only [sidePattern, bodyPattern, mem_ways_append]
  constructor
  · rintro ⟨e', he', e'', he'', he⟩
    obtain ⟨lead, r, rfl, rfl⟩ := mem_ways_mark.mp he'
    obtain ⟨x, r, hx, rfl, rfl⟩ := mem_ways_many.mp he''
    obtain ⟨trail, r, rfl, rfl⟩ := mem_ways_mark.mp he
    exact ⟨markIf lead ++ x ++ markIf trail, r, ⟨lead, x, trail, hx, rfl⟩, by simp, rfl⟩
  · rintro ⟨u, r, ⟨lead, x, trail, hx, rfl⟩, rfl, rfl⟩
    refine ⟨⟨found, x ++ (markIf trail ++ r)⟩, mem_ways_mark.mpr ⟨lead, _, by simp, rfl⟩,
      ⟨found, markIf trail ++ r⟩, mem_ways_many.mpr ⟨x, _, hx, rfl, rfl⟩, ?_⟩
    exact mem_ways_mark.mpr ⟨trail, r, rfl, rfl⟩

theorem mem_ways_sideGroup {name : Group} :
    e ∈ (Pattern.group name sidePattern).ways ⟨found, s⟩ ↔
      ∃ u r, IsSide u ∧ s = u ++ r ∧ e = ⟨(name, u) :: found, r⟩ := by
  rw [mem_ways_group]
  constructor
  · rintro ⟨e', v, he', hv, rfl⟩
    obtain ⟨u, r, hu, rfl, rfl⟩ := mem_ways_side.mp he'
    obtain rfl := List.append_cancel_right hv
    exact ⟨u, r, hu, rfl, rfl⟩
  · rintro ⟨u, r, hu, rfl, rfl⟩
    exact ⟨⟨found, r⟩, u, mem_ways_side.mpr ⟨u, r, hu, rfl, rfl⟩, rfl, rfl⟩

/-- The group of a closing mark, if there is one. -/
def closingGroup (present : Bool) : List (Group × List Char) :=
  if present then [(.closing, [closingMark])] else []

theorem mem_ways_closing :
    e ∈ (Pattern.optional (.group .closing (.one (· == closingMark)))).ways ⟨found, s⟩ ↔
      ∃ present r, s = closingIf present ++ r ∧ e = ⟨closingGroup present ++ found, r⟩ := by
  rw [mem_ways_optional, mem_ways_group]
  constructor
  · rintro (⟨e', u, he', hu, rfl⟩ | rfl)
    · obtain ⟨c, r, hc, rfl, rfl⟩ := mem_ways_one.mp he'
      have hsame : [c] ++ r = u ++ r := hu
      rw [← List.append_cancel_right hsame, eq_of_beq hc]
      exact ⟨true, r, rfl, rfl⟩
    · exact ⟨false, s, rfl, rfl⟩
  · rintro ⟨present, r, rfl, rfl⟩
    cases present with
    | true =>
        refine .inl ⟨⟨found, r⟩, [closingMark], mem_ways_one.mpr ?_, rfl, rfl⟩
        exact ⟨closingMark, r, beq_self_eq_true _, rfl, rfl⟩
    | false => exact .inr rfl

theorem mem_ways_arrow :
    e ∈ arrowPattern.ways ⟨found, s⟩ ↔
      ∃ (arrow : Arrow) (r : List Char), s = arrow.text ++ r ∧ e = ⟨found, r⟩ := by
  rw [arrowPattern, mem_ways_append]
  constructor
  · rintro ⟨e', he', he⟩
    obtain ⟨c, r, hc, rfl, rfl⟩ := mem_ways_one.mp he'
    obtain ⟨d, r, hd, rfl, rfl⟩ := mem_ways_one.mp he
    rw [Bool.or_eq_true, beq_iff_eq, beq_iff_eq] at hc
    rw [eq_of_beq hd]
    rcases hc with rfl | rfl
    · exact ⟨.thin, r, rfl, rfl⟩
    · exact ⟨.thick, r, rfl, rfl⟩
  · rintro ⟨arrow, r, rfl, rfl⟩
    have htip : (⟨found, r⟩ : Progress) ∈ (Pattern.one (· == '>')).ways ⟨found, '>' :: r⟩ :=
      mem_ways_one.mpr ⟨'>', r, rfl, rfl, rfl⟩
    cases arrow with
    | thin => exact ⟨_, mem_ways_one.mpr ⟨'-', '>' :: r, rfl, rfl, rfl⟩, htip⟩
    | thick => exact ⟨_, mem_ways_one.mpr ⟨'=', '>' :: r, rfl, rfl, rfl⟩, htip⟩

theorem mem_ways_opening :
    e ∈ openingPattern.ways ⟨found, s⟩ ↔
      ∃ w left r, AllBlank w ∧ IsSide left ∧ s = w ++ left ++ r ∧
        e = ⟨(.lhs, left) :: found, r⟩ := by
  rw [openingPattern, mem_ways_append]
  constructor
  · rintro ⟨e', he', he⟩
    obtain ⟨w, r, hw, rfl, rfl⟩ := mem_ways_many.mp he'
    obtain ⟨left, r, hleft, rfl, rfl⟩ := mem_ways_sideGroup.mp he
    exact ⟨w, left, r, hw, hleft, (List.append_assoc _ _ _).symm, rfl⟩
  · rintro ⟨w, left, r, hw, hleft, rfl, rfl⟩
    refine ⟨⟨found, left ++ r⟩, mem_ways_many.mpr ?_, mem_ways_sideGroup.mpr ?_⟩
    · exact ⟨w, left ++ r, hw, List.append_assoc _ _ _, rfl⟩
    · exact ⟨left, r, hleft, rfl, rfl⟩

theorem mem_ways_ending :
    e ∈ endingPattern.ways ⟨found, s⟩ ↔
      ∃ (lay : Layout) (closing : Bool) (right r : List Char), IsSide right ∧
        (r = [] ∨ r = ['\n']) ∧ s = lay.tail closing right ++ r ∧
        e = ⟨(.rhs, right) :: (closingGroup closing ++ found), r⟩ := by
  simp only [endingPattern, mem_ways_append]
  constructor
  · rintro ⟨_, ⟨_, ⟨_, ⟨_, ⟨_, ⟨_, ⟨_, hgap, harrow⟩, hafter⟩, hclosing⟩, hbefore⟩, hright⟩,
      hfinish⟩, hend⟩
    obtain ⟨gap, r, hgapBlank, rfl, rfl⟩ := mem_ways_many.mp hgap
    obtain ⟨arrow, r, rfl, rfl⟩ := mem_ways_arrow.mp harrow
    obtain ⟨afterArrow, r, hafterBlank, rfl, rfl⟩ := mem_ways_many.mp hafter
    obtain ⟨closing, r, rfl, rfl⟩ := mem_ways_closing.mp hclosing
    obtain ⟨beforeRight, r, hbeforeBlank, rfl, rfl⟩ := mem_ways_many.mp hbefore
    obtain ⟨right, r, hside, rfl, rfl⟩ := mem_ways_sideGroup.mp hright
    obtain ⟨finish, r, hfinishBlank, rfl, rfl⟩ := mem_ways_many.mp hfinish
    obtain ⟨hr, rfl⟩ := mem_ways_textEnd.mp hend
    refine ⟨⟨[], gap, arrow, afterArrow, beforeRight, finish, allBlank_nil, hgapBlank, hafterBlank,
      hbeforeBlank, hfinishBlank⟩, closing, right, r, hside, hr, ?_, rfl⟩
    simp only [Layout.tail, List.append_assoc]
  · rintro ⟨lay, closing, right, r, hright, hr, rfl, rfl⟩
    simp only [Layout.tail, List.append_assoc]
    refine ⟨_, ⟨_, ⟨_, ⟨_, ⟨_, ⟨_, ⟨_, mem_ways_many.mpr ⟨lay.gap, _, lay.gap_blank, rfl, rfl⟩,
      mem_ways_arrow.mpr ⟨lay.arrow, _, rfl, rfl⟩⟩,
      mem_ways_many.mpr ⟨lay.afterArrow, _, lay.afterArrow_blank, rfl, rfl⟩⟩,
      mem_ways_closing.mpr ⟨closing, _, rfl, rfl⟩⟩,
      mem_ways_many.mpr ⟨lay.beforeRight, _, lay.beforeRight_blank, rfl, rfl⟩⟩,
      mem_ways_sideGroup.mpr ⟨right, _, hright, rfl, rfl⟩⟩,
      mem_ways_many.mpr ⟨lay.finish, r, lay.finish_blank, rfl, rfl⟩⟩,
      mem_ways_textEnd.mpr ⟨hr, rfl⟩⟩

/-! ## Ways and readings -/

/-- Every way through the pattern is a reading. -/
theorem isReading_of_mem_ways (h : e ∈ statementPattern.ways ⟨[], s⟩) : IsReading s e.reading := by
  obtain ⟨e', he', he⟩ := mem_ways_append.mp h
  obtain ⟨w, left, r, hw, hleft, rfl, rfl⟩ := mem_ways_opening.mp he'
  obtain ⟨lay, closing, right, r, hright, hr, rfl, rfl⟩ := mem_ways_ending.mp he
  have hreading : Progress.reading ⟨(.rhs, right) :: (closingGroup closing ++ [(.lhs, left)]), r⟩ =
      ⟨left, closing, right⟩ := by
    cases closing <;> rfl
  have hblank : AllBlank r := by
    rcases hr with rfl | rfl <;> decide
  rw [hreading]
  refine ⟨hleft, hright, { lay with
    start := w
    finish := lay.finish ++ r
    start_blank := hw
    finish_blank := lay.finish_blank.append hblank }, ?_⟩
  simp only [Layout.write, Layout.tail, List.append_assoc]

/-- Every reading is a way through the pattern. -/
theorem exists_way_of_isReading {reading : Reading} (h : IsReading s reading) :
    ∃ e ∈ statementPattern.ways ⟨[], s⟩, e.reading = reading := by
  obtain ⟨left, closing, right⟩ := reading
  obtain ⟨hleft, hright, lay, rfl⟩ := h
  refine ⟨⟨(.rhs, right) :: (closingGroup closing ++ [(.lhs, left)]), []⟩,
    mem_ways_append.mpr ⟨⟨[(.lhs, left)], lay.tail closing right⟩, mem_ways_opening.mpr ?_,
      mem_ways_ending.mpr ?_⟩, ?_⟩
  · exact ⟨lay.start, left, _, lay.start_blank, hleft, rfl, rfl⟩
  · exact ⟨lay, closing, right, [], hright, .inl rfl, (List.append_nil _).symm, rfl⟩
  · cases closing <;> rfl

/-! ## The order of ways -/

/-- Ways that come further stand before the others. -/
def FurthestFirst (ways : List Progress) : Prop :=
  ways.Pairwise fun e e' => e.rest.length ≤ e'.rest.length

/-- What is left after a shorter run still has a character of the class in front. -/
theorem pairwise_rests (accepts : Char → Bool) (s : List Char) :
    (rests accepts s).Pairwise fun r r' =>
      ∃ c t, accepts c = true ∧ r' = c :: t ∧ r.length ≤ t.length := by
  induction s with
  | nil => exact List.pairwise_singleton _ _
  | cons c s ih =>
      rw [rests]
      split
      · rename_i hc
        refine List.pairwise_append.mpr ⟨ih, List.pairwise_singleton _ _, ?_⟩
        intro r hr r' hr'
        obtain ⟨w, _, rfl⟩ := mem_rests_iff.mp hr
        rw [List.mem_singleton.mp hr']
        exact ⟨c, w ++ r, hc, rfl, by simp⟩
      · exact List.pairwise_singleton _ _

/-- A single character leaves one way at most. -/
theorem pairwise_ways_one {R : Progress → Progress → Prop} :
    ((Pattern.one accepts).ways m).Pairwise R := by
  rw [Pattern.ways]
  split
  · exact List.Pairwise.nil
  · split
    · exact List.pairwise_singleton _ _
    · exact List.Pairwise.nil

theorem length_le_of_mem_ways (h : e ∈ p.ways m) : e.rest.length ≤ m.rest.length :=
  (isSuffix_of_mem_ways h).length_le

/-- An optional character makes a difference of one at most. -/
theorem furthestFirst_optional (accepts : Char → Bool) (m : Progress) :
    FurthestFirst ((Pattern.optional (.one accepts)).ways m) ∧
      ∀ e ∈ (Pattern.optional (.one accepts)).ways m, m.rest.length ≤ e.rest.length + 1 := by
  obtain ⟨found, s⟩ := m
  constructor
  · refine List.pairwise_append.mpr ⟨pairwise_ways_one, List.pairwise_singleton _ _, ?_⟩
    intro e he e' he'
    rw [List.mem_singleton.mp he']
    exact length_le_of_mem_ways he
  · intro e he
    rcases mem_ways_optional.mp he with he | rfl
    · obtain ⟨c, r, _, rfl, rfl⟩ := mem_ways_one.mp he
      exact Nat.le_refl _
    · exact Nat.le_succ _

theorem furthestFirst_body (m : Progress) : FurthestFirst (bodyPattern.ways m) := by
  refine List.pairwise_flatMap.mpr ⟨fun e _ => (furthestFirst_optional _ e).1, ?_⟩
  rw [Pattern.ways, List.pairwise_map]
  refine (pairwise_rests isPlain m.rest).imp ?_
  rintro r _ ⟨c, t, _, rfl, hlength⟩ e he e' he'
  have hless := length_le_of_mem_ways he
  have hmore := (furthestFirst_optional _ _).2 e' he'
  simp only [List.length_cons] at hless hmore
  omega

/-- Behind a mark only the mark itself can be left. -/
theorem length_le_of_mem_body (h : e ∈ bodyPattern.ways ⟨found, emptyMark :: s⟩) :
    s.length ≤ e.rest.length := by
  obtain ⟨e', he', he⟩ := mem_ways_append.mp h
  obtain ⟨w, r, hw, hs, rfl⟩ := mem_ways_many.mp he'
  have hmore := (furthestFirst_optional _ _).2 e he
  cases w with
  | nil =>
      rw [← show emptyMark :: s = r from hs] at hmore
      exact Nat.le_of_succ_le_succ hmore
  | cons c w =>
      obtain ⟨rfl, _⟩ := List.cons.inj hs
      exact absurd (List.forall_mem_cons.mp hw).1 (by decide)

theorem furthestFirst_side (m : Progress) : FurthestFirst (sidePattern.ways m) := by
  obtain ⟨found, s⟩ := m
  refine List.pairwise_flatMap.mpr ⟨fun e _ => furthestFirst_body e, ?_⟩
  rw [Pattern.ways]
  refine List.pairwise_append.mpr ⟨pairwise_ways_one, List.pairwise_singleton _ _, ?_⟩
  intro e he e' he' x hx y hy
  obtain ⟨c, r, hc, rfl, rfl⟩ := mem_ways_one.mp he
  rw [List.mem_singleton.mp he', eq_of_beq hc] at hy
  have hless := length_le_of_mem_ways hx
  exact hless.trans (length_le_of_mem_body hy)

/-- Ways with a longer left side stand before the others. -/
def LongestFirst (ways : List Progress) : Prop :=
  ways.Pairwise fun e e' => e'.reading.left.length ≤ e.reading.left.length

theorem longestFirst_sideGroup (m : Progress) :
    LongestFirst ((Pattern.group .lhs sidePattern).ways m) := by
  rw [LongestFirst, Pattern.ways, List.pairwise_map]
  refine (furthestFirst_side m).imp ?_
  intro e e' hfurther
  have hleft (u : List Char) (e : Progress) :
      (⟨(.lhs, u) :: e.found, e.rest⟩ : Progress).reading.left = u := rfl
  rw [hleft, hleft, List.length_take, List.length_take]
  omega

theorem longestFirst_opening (s : List Char) : LongestFirst (openingPattern.ways ⟨[], s⟩) := by
  refine List.pairwise_flatMap.mpr ⟨fun e _ => longestFirst_sideGroup e, ?_⟩
  rw [Pattern.ways, List.pairwise_map]
  refine (pairwise_rests isBlank s).imp ?_
  rintro r _ ⟨c, t, hc, rfl, _⟩ e he e' he'
  -- with a blank in front the left side is empty
  obtain ⟨u, r', hu, hs, rfl⟩ := mem_ways_sideGroup.mp he'
  cases u with
  | nil => exact Nat.zero_le _
  | cons d u =>
      obtain ⟨rfl, _⟩ := List.cons.inj hs
      rw [hu.noBlank c List.mem_cons_self] at hc
      cases hc

/-- The ways through the pattern of statements with the longest left sides come first. -/
theorem longestFirst_ways (s : List Char) : LongestFirst (statementPattern.ways ⟨[], s⟩) := by
  have hleft {e e' : Progress} (h : e' ∈ endingPattern.ways e) :
      e'.reading.left = e.reading.left := by
    have hname : Group.lhs ∉ endingPattern.names := by decide
    rw [Progress.reading, Progress.reading, lookup_of_mem_ways hname h]
  refine List.pairwise_flatMap.mpr ⟨fun e _ => ?_, ?_⟩
  · refine List.pairwise_of_forall_mem_list fun x hx y hy => ?_
    rw [hleft hx, hleft hy]
  · refine (longestFirst_opening s).imp ?_
    intro e e' hlonger x hx y hy
    rw [hleft hx, hleft hy]
    exact hlonger

/-- The reader gives the match of the pattern of statements. -/
theorem read?_eq_match (s : List Char) :
    read? s = (statementPattern.match? s).map Progress.reading := by
  have horder := longestFirst_ways s
  rw [Pattern.match?]
  cases hways : statementPattern.ways ⟨[], s⟩ with
  | nil =>
      refine read?_eq_none_iff.mpr fun reading hreading => ?_
      obtain ⟨e, he, _⟩ := exists_way_of_isReading hreading
      rw [hways] at he
      cases he
  | cons first others =>
      have hfirst : first ∈ statementPattern.ways ⟨[], s⟩ := hways ▸ List.mem_cons_self
      refine read?_eq_some_iff.mpr ⟨isReading_of_mem_ways hfirst, fun reading hreading => ?_⟩
      obtain ⟨e, he, rfl⟩ := exists_way_of_isReading hreading
      rw [hways] at he horder
      rcases List.mem_cons.mp he with rfl | he
      · exact Nat.le_refl _
      · exact (List.pairwise_cons.mp horder).1 e he

end NormalAlgorithm.Statement
