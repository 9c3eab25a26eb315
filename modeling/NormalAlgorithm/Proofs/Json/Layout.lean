/-
  NormalAlgorithm.Proofs.Json.Layout

  JSON values written in any layout are read back.

  A layout says which blanks stand after an opening bracket, after a comma and before a
  closing bracket, level by level. The two printers are one, with a layout each
  (`Faithful.compact_eq`, `Faithful.prettyAt_eq`), so one proof serves both.

    * `Faithful`: a value without doubles, whose texts are whole and whose objects have
      each key once.
    * `parse?_compact`, `parse?_pretty`: the text of such a value is read as the value.

  The reader works with fuel. A text never needs more of it than it has characters
  (`Layout.Reads`).
-/

import NormalAlgorithm.Proofs.Json.Atom

namespace NormalAlgorithm.Json

open NormalAlgorithm.Text

/-! ## Values that are written without loss -/

/-- A value without doubles and broken texts, whose objects have each key once. -/
inductive Faithful : Json → Prop where
  | null : Faithful .null
  | bool (b : Bool) : Faithful (.bool b)
  | int (n : Int) : Faithful (.int n)
  | str (s : List Char) : Faithful (.str s)
  | arr {xs : List Json} (h : ∀ x ∈ xs, Faithful x) : Faithful (.arr xs)
  | obj {fs : List (List Char × Json)} (hkeys : (fs.map Prod.fst).Nodup)
      (h : ∀ f ∈ fs, Faithful f.2) : Faithful (.obj fs)

/-! ## Layouts -/

/-- Blanks between the parts of a value, by the level at which they stand. -/
structure Layout where
  /-- After an opening bracket. -/
  first : Nat → List Char
  /-- After a comma. -/
  next : Nat → List Char
  /-- Before a closing bracket. -/
  last : Nat → List Char
  first_space : ∀ level, AllSpace (first level)
  next_space : ∀ level, AllSpace (next level)
  last_space : ∀ level, AllSpace (last level)

namespace Layout

mutual

/-- The text of a value. -/
def write (l : Layout) (level : Nat) : Json → List Char
  | .arr (x :: xs) =>
    '[' :: l.first (level + 1) ++ write l (level + 1) x ++ writeItems l (level + 1) xs ++
      l.last level ++ [']']
  | .obj ((k, v) :: fs) =>
    '\x7b' :: l.first (level + 1) ++ stringText k ++ [':', ' '] ++ write l (level + 1) v ++
      writeFields l (level + 1) fs ++ l.last level ++ ['\x7d']
  | j => atomText j

/-- The items after the first. -/
def writeItems (l : Layout) (level : Nat) : List Json → List Char
  | [] => []
  | x :: xs => ',' :: l.next level ++ write l level x ++ writeItems l level xs

/-- The fields after the first. -/
def writeFields (l : Layout) (level : Nat) : List (List Char × Json) → List Char
  | [] => []
  | (k, v) :: fs =>
    ',' :: l.next level ++ stringText k ++ [':', ' '] ++ write l level v ++ writeFields l level fs

end

/-- All on one line. -/
def oneLine : Layout where
  first _ := []
  next _ := [' ']
  last _ := []
  first_space _ := by simp [AllSpace]
  next_space _ := by simp [AllSpace, isSpace]
  last_space _ := by simp [AllSpace]

theorem allSpace_newline (level : Nat) : AllSpace (newline level) := by
  intro c hc
  rcases List.mem_cons.mp hc with rfl | hc
  · rfl
  · rw [List.eq_of_mem_replicate hc]
    rfl

/-- Each item and field on a line of its own. -/
def indented : Layout where
  first := newline
  next := newline
  last := newline
  first_space := allSpace_newline
  next_space := allSpace_newline
  last_space := allSpace_newline

end Layout

open Layout

theorem compactItems_eq {xs : List Json} (h : ∀ x ∈ xs, ∀ level, compact x = oneLine.write level x)
    (level : Nat) : compactItems xs = oneLine.writeItems level xs := by
  induction xs with
  | nil => rfl
  | cons x xs ih =>
      obtain ⟨hx, hxs⟩ := List.forall_mem_cons.mp h
      rw [compactItems, writeItems, hx level, ih hxs]
      rfl

theorem compactFields_eq {fs : List (List Char × Json)}
    (h : ∀ f ∈ fs, ∀ level, compact f.2 = oneLine.write level f.2) (level : Nat) :
    compactFields fs = oneLine.writeFields level fs := by
  induction fs with
  | nil => rfl
  | cons f fs ih =>
      obtain ⟨hf, hfs⟩ := List.forall_mem_cons.mp h
      rw [compactFields, writeFields, hf level, ih hfs]
      rfl

/-- One of the printers writes all on one line. -/
theorem Faithful.compact_eq {j : Json} (h : Faithful j) (level : Nat) :
    compact j = oneLine.write level j := by
  induction h generalizing level with
  | @arr xs _ ih =>
      cases xs with
      | nil => rfl
      | cons x xs =>
          obtain ⟨hx, hxs⟩ := List.forall_mem_cons.mp ih
          simp only [compact, write, hx (level + 1), compactItems_eq hxs (level + 1)]
          simp [oneLine]
  | @obj fs _ _ ih =>
      cases fs with
      | nil => rfl
      | cons f fs =>
          obtain ⟨hf, hfs⟩ := List.forall_mem_cons.mp ih
          simp only [compact, write, hf (level + 1), compactFields_eq hfs (level + 1)]
          simp [oneLine]
  | _ => rfl

theorem prettyItems_eq {xs : List Json}
    (h : ∀ x ∈ xs, ∀ level, prettyAt level x = indented.write level x) (level : Nat) :
    prettyItems level xs = indented.writeItems level xs := by
  induction xs with
  | nil => rfl
  | cons x xs ih =>
      obtain ⟨hx, hxs⟩ := List.forall_mem_cons.mp h
      rw [prettyItems, writeItems, hx level, ih hxs]
      rfl

theorem prettyFields_eq {fs : List (List Char × Json)}
    (h : ∀ f ∈ fs, ∀ level, prettyAt level f.2 = indented.write level f.2) (level : Nat) :
    prettyFields level fs = indented.writeFields level fs := by
  induction fs with
  | nil => rfl
  | cons f fs ih =>
      obtain ⟨hf, hfs⟩ := List.forall_mem_cons.mp h
      rw [prettyFields, writeFields, hf level, ih hfs]
      rfl

/-- The other printer writes each part on a line of its own. -/
theorem Faithful.prettyAt_eq {j : Json} (h : Faithful j) (level : Nat) :
    prettyAt level j = indented.write level j := by
  induction h generalizing level with
  | @arr xs _ ih =>
      cases xs with
      | nil => rfl
      | cons x xs =>
          obtain ⟨hx, hxs⟩ := List.forall_mem_cons.mp ih
          rw [prettyAt, write, hx (level + 1), prettyItems_eq hxs (level + 1)]
          rfl
  | @obj fs _ _ ih =>
      cases fs with
      | nil => rfl
      | cons f fs =>
          obtain ⟨hf, hfs⟩ := List.forall_mem_cons.mp ih
          rw [prettyAt, write, hf (level + 1), prettyFields_eq hfs (level + 1)]
          rfl
  | _ => rfl

/-! ## The reader at brackets and commas -/

variable {depth fuel : Nat} {s rest : List Char} {x : Json}

theorem readValue_bracket (h : ∀ t, skipSpace s ≠ ']' :: t) :
    readValue .none depth (fuel + 1) ('[' :: s) = readItems .none (depth + 1) fuel [] s := by
  simp only [readValue, skipSpace_cons (show isSpace '[' = false from rfl)]
  split
  · rename_i hdepth
    cases hdepth
  · rfl

theorem readValue_brace (h : ∀ t, skipSpace s ≠ '\x7d' :: t) :
    readValue .none depth (fuel + 1) ('\x7b' :: s) = readFields .none (depth + 1) fuel [] s := by
  simp only [readValue, skipSpace_cons (show isSpace '\x7b' = false from rfl)]
  split
  · rename_i hdepth
    cases hdepth
  · rfl

theorem readItems_comma {acc : List Json} {t : List Char}
    (hx : readValue .none depth fuel s = .ok (x, rest)) (hrest : skipSpace rest = ',' :: t) :
    readItems .none depth (fuel + 1) acc s = readItems .none depth fuel (x :: acc) t := by
  rw [readItems, hx]
  simp only [hrest]

theorem readItems_bracket {acc : List Json} {t : List Char}
    (hx : readValue .none depth fuel s = .ok (x, rest)) (hrest : skipSpace rest = ']' :: t) :
    readItems .none depth (fuel + 1) acc s = .ok (.arr (x :: acc).reverse, t) := by
  rw [readItems, hx]
  simp only [hrest]

/-- Items do not start with a closing bracket. -/
theorem skipSpace_ne_of_readItems {acc : List Json} {read : Json × List Char}
    (h : readItems .none depth fuel acc s = .ok read) (t : List Char) : skipSpace s ≠ ']' :: t := by
  intro hs
  have hvalue (fuel : Nat) : readValue .none depth fuel s = .error .malformed := by
    cases fuel with
    | zero => rw [readValue]
    | succ fuel =>
        rw [readValue, hs]
        rfl
  cases fuel with
  | zero =>
      rw [readItems] at h
      cases h
  | succ fuel =>
      rw [readItems, hvalue] at h
      cases h

/-- A field starts with the quotation mark of its key, after blanks. -/
theorem append_stringText (b key s : List Char) :
    b ++ (stringText key ++ ':' :: ' ' :: s) =
      b ++ '"' :: (key.flatMap escapeChar ++ '"' :: ':' :: ([' '] ++ s)) := by
  simp [stringText]

theorem allSpace_blank : AllSpace [' '] := by simp [AllSpace, isSpace]

theorem readFields_comma {acc : List (List Char × Json)} {b t : List Char} (hb : AllSpace b)
    (key : List Char) (hx : readValue .none depth fuel s = .ok (x, rest))
    (hrest : skipSpace rest = ',' :: t) :
    readFields .none depth (fuel + 1) acc (b ++ (stringText key ++ ':' :: ' ' :: s)) =
      readFields .none depth fuel (insertField key x acc) t := by
  rw [← readValue_of_space allSpace_blank] at hx
  rw [append_stringText, readFields, skipSpace_append_cons hb rfl]
  simp only [readQuoted_escaped, skipSpace_cons (show isSpace ':' = false from rfl), hx,
    keyOf_map_some, hrest]

theorem readFields_brace {acc : List (List Char × Json)} {b t : List Char} (hb : AllSpace b)
    (key : List Char) (hx : readValue .none depth fuel s = .ok (x, rest))
    (hrest : skipSpace rest = '\x7d' :: t) :
    readFields .none depth (fuel + 1) acc (b ++ (stringText key ++ ':' :: ' ' :: s)) =
      .ok (.obj (insertField key x acc), t) := by
  rw [← readValue_of_space allSpace_blank] at hx
  rw [append_stringText, readFields, skipSpace_append_cons hb rfl]
  simp only [readQuoted_escaped, skipSpace_cons (show isSpace ':' = false from rfl), hx,
    keyOf_map_some, hrest]

/-! ## Written values are read back -/

/-- The value is read back from its text at every level, if what follows cannot belong to
    it. The fuel may be as much as the text is long. -/
def Layout.Reads (l : Layout) (j : Json) : Prop :=
  ∀ level depth fuel rest, Delimited rest → (l.write level j).length ≤ fuel →
    readValue .none depth fuel (l.write level j ++ rest) = .ok (j, rest)

variable {l : Layout}

/-- Values that are read with any fuel at all. -/
theorem reads_of_succ {j : Json} (hne : ∀ level, l.write level j ≠ [])
    (h : ∀ level depth fuel rest, Delimited rest →
      readValue .none depth (fuel + 1) (l.write level j ++ rest) = .ok (j, rest)) : l.Reads j := by
  intro level depth fuel rest hrest hfuel
  have hpos := List.length_pos_iff.mpr (hne level)
  obtain ⟨fuel, rfl⟩ := Nat.exists_eq_add_one_of_ne_zero (by omega : fuel ≠ 0)
  exact h level depth fuel rest hrest

/-- The items of an array are read one after the other. The induction is on the items that
    are left, and `acc` holds those read. -/
theorem readItems_write {x : Json} {xs : List Json} (hx : l.Reads x) (hxs : ∀ y ∈ xs, l.Reads y)
    (level depth : Nat) {fuel : Nat} (acc : List Json) {b e : List Char} (hb : AllSpace b)
    (he : AllSpace e) (hfuel : (l.write level x ++ l.writeItems level xs).length < fuel)
    (rest : List Char) :
    readItems .none depth fuel acc
        (b ++ (l.write level x ++ (l.writeItems level xs ++ (e ++ ']' :: rest)))) =
      .ok (.arr (acc.reverse ++ x :: xs), rest) := by
  rw [List.length_append] at hfuel
  obtain ⟨fuel, rfl⟩ := Nat.exists_eq_add_one_of_ne_zero (by omega : fuel ≠ 0)
  induction xs generalizing x acc b fuel with
  | nil =>
      have hdelimited : Delimited (l.writeItems level [] ++ (e ++ ']' :: rest)) :=
        delimited_append he (by decide) rest
      have hvalue := hx level depth fuel _ hdelimited (by omega)
      rw [← readValue_of_space hb] at hvalue
      rw [readItems_bracket hvalue (skipSpace_append_cons he rfl rest), List.reverse_cons]
  | cons y ys ih =>
      obtain ⟨hy, hys⟩ := List.forall_mem_cons.mp hxs
      have htext : l.writeItems level (y :: ys) ++ (e ++ ']' :: rest) =
          ',' :: (l.next level ++ (l.write level y ++ (l.writeItems level ys ++
            (e ++ ']' :: rest)))) := by
        simp [writeItems]
      have hlength : (l.writeItems level (y :: ys)).length =
          1 + (l.next level).length + (l.write level y).length +
            (l.writeItems level ys).length := by
        simp [writeItems]
        omega
      have hdelimited : Delimited (l.writeItems level (y :: ys) ++ (e ++ ']' :: rest)) := by
        rw [htext]
        exact delimited_cons (by decide) _
      have hvalue := hx level depth fuel _ hdelimited (by omega)
      rw [← readValue_of_space hb, htext] at hvalue
      obtain ⟨fuel, rfl⟩ := Nat.exists_eq_add_one_of_ne_zero (by omega : fuel ≠ 0)
      rw [htext, readItems_comma hvalue (skipSpace_cons rfl _),
        ih hy hys (x :: acc) (l.next_space level) fuel (by omega), List.reverse_cons,
        List.append_assoc, List.singleton_append]

theorem insertField_of_not_mem {key : List Char} {acc : List (List Char × Json)}
    (h : key ∉ acc.map Prod.fst) (x : Json) : insertField key x acc = acc ++ [(key, x)] := by
  induction acc with
  | nil => rfl
  | cons f acc ih =>
      rw [List.map_cons, List.mem_cons, not_or] at h
      rw [insertField, if_neg (Ne.symm h.1), ih h.2, List.cons_append]

theorem not_mem_keys_of_nodup {f : List Char × Json} {acc fs : List (List Char × Json)}
    (h : ((acc ++ f :: fs).map Prod.fst).Nodup) : f.1 ∉ acc.map Prod.fst := by
  rw [List.map_append, List.map_cons, List.nodup_append] at h
  exact fun hmem => h.2.2 f.1 hmem f.1 List.mem_cons_self rfl

/-- The fields of an object are read one after the other, and no key replaces another. -/
theorem readFields_write {f : List Char × Json} {fs : List (List Char × Json)}
    (hf : l.Reads f.2) (hfs : ∀ g ∈ fs, l.Reads g.2) (level depth : Nat) {fuel : Nat}
    (acc : List (List Char × Json)) (hkeys : ((acc ++ f :: fs).map Prod.fst).Nodup)
    {b e : List Char} (hb : AllSpace b) (he : AllSpace e)
    (hfuel : (l.write level f.2 ++ l.writeFields level fs).length < fuel) (rest : List Char) :
    readFields .none depth fuel acc (b ++ (stringText f.1 ++ (':' :: ' ' ::
        (l.write level f.2 ++ (l.writeFields level fs ++ (e ++ '\x7d' :: rest)))))) =
      .ok (.obj (acc ++ f :: fs), rest) := by
  rw [List.length_append] at hfuel
  obtain ⟨fuel, rfl⟩ := Nat.exists_eq_add_one_of_ne_zero (by omega : fuel ≠ 0)
  induction fs generalizing f acc b fuel with
  | nil =>
      have hnew := not_mem_keys_of_nodup hkeys
      have hdelimited : Delimited (l.writeFields level [] ++ (e ++ '\x7d' :: rest)) :=
        delimited_append he (by decide) rest
      have hvalue := hf level depth fuel _ hdelimited (by omega)
      have hrest : skipSpace (l.writeFields level [] ++ (e ++ '\x7d' :: rest)) = '\x7d' :: rest :=
        skipSpace_append_cons he rfl rest
      rw [readFields_brace hb f.1 hvalue hrest, insertField_of_not_mem hnew]
  | cons g gs ih =>
      obtain ⟨hg, hgs⟩ := List.forall_mem_cons.mp hfs
      have hnew := not_mem_keys_of_nodup hkeys
      have htext : l.writeFields level (g :: gs) ++ (e ++ '\x7d' :: rest) =
          ',' :: (l.next level ++ (stringText g.1 ++ (':' :: ' ' :: (l.write level g.2 ++
            (l.writeFields level gs ++ (e ++ '\x7d' :: rest)))))) := by
        simp [writeFields]
      have hlength : (l.write level g.2).length + (l.writeFields level gs).length <
          (l.writeFields level (g :: gs)).length := by
        simp [writeFields]
        omega
      have hdelimited : Delimited (l.writeFields level (g :: gs) ++ (e ++ '\x7d' :: rest)) := by
        rw [htext]
        exact delimited_cons (by decide) _
      have hvalue := hf level depth fuel _ hdelimited (by omega)
      rw [htext] at hvalue
      obtain ⟨fuel, rfl⟩ := Nat.exists_eq_add_one_of_ne_zero (by omega : fuel ≠ 0)
      rw [htext, readFields_comma hb f.1 hvalue (skipSpace_cons rfl _),
        insertField_of_not_mem hnew, ih hg hgs (acc ++ [f]) _ (l.next_space level) fuel (by omega)]
      · simp
      · simpa using hkeys

theorem reads_arr {xs : List Json} (h : ∀ x ∈ xs, l.Reads x) : l.Reads (.arr xs) := by
  cases xs with
  | nil => exact reads_of_succ (fun _ => List.cons_ne_nil '[' [']']) fun _ _ _ _ _ => rfl
  | cons x xs =>
      obtain ⟨hx, hxs⟩ := List.forall_mem_cons.mp h
      intro level depth fuel rest _ hfuel
      have htext : l.write level (.arr (x :: xs)) ++ rest =
          '[' :: (l.first (level + 1) ++ (l.write (level + 1) x ++
            (l.writeItems (level + 1) xs ++ (l.last level ++ ']' :: rest)))) := by
        simp [write]
      have hlength : (l.write (level + 1) x ++ l.writeItems (level + 1) xs).length + 2 ≤
          (l.write level (.arr (x :: xs))).length := by
        simp [write]
        omega
      obtain ⟨fuel, rfl⟩ := Nat.exists_eq_add_one_of_ne_zero (by omega : fuel ≠ 0)
      have hitems := readItems_write hx hxs (level + 1) (depth + 1) [] (l.first_space (level + 1))
        (l.last_space level) (by omega : _ < fuel) rest
      rw [htext, readValue_bracket (skipSpace_ne_of_readItems hitems), hitems]
      rfl

theorem reads_obj {fs : List (List Char × Json)} (hkeys : (fs.map Prod.fst).Nodup)
    (h : ∀ f ∈ fs, l.Reads f.2) : l.Reads (.obj fs) := by
  cases fs with
  | nil => exact reads_of_succ (fun _ => List.cons_ne_nil '\x7b' ['\x7d']) fun _ _ _ _ _ => rfl
  | cons f fs =>
      obtain ⟨hf, hfs⟩ := List.forall_mem_cons.mp h
      intro level depth fuel rest _ hfuel
      have htext : l.write level (.obj (f :: fs)) ++ rest =
          '\x7b' :: (l.first (level + 1) ++ (stringText f.1 ++ ':' :: ' ' ::
            (l.write (level + 1) f.2 ++ (l.writeFields (level + 1) fs ++
              (l.last level ++ '\x7d' :: rest))))) := by
        simp [write]
      have hlength : (l.write (level + 1) f.2 ++ l.writeFields (level + 1) fs).length + 2 ≤
          (l.write level (.obj (f :: fs))).length := by
        simp [write]
        omega
      obtain ⟨fuel, rfl⟩ := Nat.exists_eq_add_one_of_ne_zero (by omega : fuel ≠ 0)
      have hfields := readFields_write hf hfs (level + 1) (depth + 1) [] hkeys
        (l.first_space (level + 1)) (l.last_space level) (by omega : _ < fuel) rest
      rw [htext, readValue_brace, hfields]
      · rfl
      · intro t ht
        -- the first key comes first
        rw [stringText, List.cons_append, List.cons_append,
          skipSpace_append_cons (l.first_space (level + 1)) rfl] at ht
        cases ht

/-- A faithful value is read back from its text in any layout. -/
theorem Faithful.reads {j : Json} (h : Faithful j) (l : Layout) : l.Reads j := by
  induction h with
  | null =>
      exact reads_of_succ (fun _ => List.cons_ne_nil _ _) fun _ _ _ _ _ => readValue_null _ _ _ _
  | bool b =>
      refine reads_of_succ (fun _ => ?_) fun _ _ _ _ _ => readValue_bool b _ _ _ _
      cases b <;> exact List.cons_ne_nil _ _
  | int n =>
      exact reads_of_succ (fun _ => decimalInt_ne_nil n) fun _ _ _ _ hrest =>
        readValue_decimalInt n _ _ hrest
  | str s =>
      exact reads_of_succ (fun _ => List.cons_ne_nil _ _) fun _ _ _ _ _ =>
        readValue_stringText s _ _ _ _
  | arr _ ih => exact reads_arr ih
  | obj hkeys _ ih => exact reads_obj hkeys ih

theorem parse?_write {j : Json} (h : Faithful j) (l : Layout) :
    parse? (l.write 0 j) = some j := by
  have hread := h.reads l 0 0 (2 * (l.write 0 j).length + 2) [] delimited_nil (by omega)
  rw [List.append_nil] at hread
  rw [parse?, parseWithin, hread]
  rfl

/-- What is written on one line is read back. -/
theorem parse?_compact {j : Json} (h : Faithful j) : parse? j.compact = some j := by
  rw [h.compact_eq 0, parse?_write h]

/-- What is written on many lines is read back. -/
theorem parse?_pretty {j : Json} (h : Faithful j) : parse? j.pretty = some j := by
  rw [pretty, h.prettyAt_eq 0, parse?_write h]

end NormalAlgorithm.Json
