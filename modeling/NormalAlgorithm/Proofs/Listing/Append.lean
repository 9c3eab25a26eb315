/-
  NormalAlgorithm.Proofs.Listing.Append

  Listings of two texts with a line feed between them.

  The lines of a listing are read one after the other, and the first fault ends it. So the
  rules of a list of lines are those of its first lines and then those of the others
  (`parseLines_append`), and the number of the first line is added to the line of every fault
  (`parseLines_add`).

    * `parse_newline_cases`: the fault of the first text; or that of the second, under a line
      number that the lines before it are added to; or the rules of both.

  The line feed may make a line of its own at the end of the first text, or be taken into a
  CR there (`Text.splitLines_newline_cases`). An empty line holds no statement, so the rules
  of the first text are the same with the line feed and without it (`parseLines_newline`).
-/

import NormalAlgorithm.Listing
import NormalAlgorithm.Proofs.Text.Line

namespace NormalAlgorithm.Listing

open NormalAlgorithm.Text

variable {line : List Char} {cause : StatementFault} {rule : Rule}

/-- A fault further down, with `k` more lines before it. -/
def shiftFault (k : Nat) (fault : ListingFault) : ListingFault := ⟨k + fault.line, fault.cause⟩

/-! ## One line -/

theorem parseLines_of_skipped (h : isSkipped (trim line) = true) (n : Nat)
    (rest : List (List Char)) : parseLines n (line :: rest) = parseLines (n + 1) rest := by
  rw [parseLines]
  simp only [h, if_true]

theorem parseLines_of_fault (h : isSkipped (trim line) = false)
    (hcompile : Statement.compile (trim line) = .error cause) (n : Nat)
    (rest : List (List Char)) : parseLines n (line :: rest) = .error ⟨n, cause⟩ := by
  rw [parseLines]
  simp only [h, hcompile, Bool.false_eq_true, if_false]

theorem parseLines_of_rule (h : isSkipped (trim line) = false)
    (hcompile : Statement.compile (trim line) = .ok rule) (n : Nat) (rest : List (List Char)) :
    parseLines n (line :: rest) = (parseLines (n + 1) rest).map (rule :: ·) := by
  rw [parseLines]
  simp only [h, hcompile, Bool.false_eq_true, if_false]
  cases parseLines (n + 1) rest <;> rfl

/-! ## Many lines -/

/-- With a first line of a higher number, all faults have higher numbers, and nothing else
    changes. -/
theorem parseLines_add (k n : Nat) (lines : List (List Char)) :
    parseLines (k + n) lines = (parseLines n lines).mapError (shiftFault k) := by
  induction lines generalizing n with
  | nil => rfl
  | cons line rest ih =>
      have hrest : parseLines (k + n + 1) rest =
          (parseLines (n + 1) rest).mapError (shiftFault k) := ih (n + 1)
      cases hskip : isSkipped (trim line) with
      | true => rw [parseLines_of_skipped hskip, parseLines_of_skipped hskip, hrest]
      | false =>
          cases hcompile : Statement.compile (trim line) with
          | error cause =>
              rw [parseLines_of_fault hskip hcompile, parseLines_of_fault hskip hcompile]
              rfl
          | ok rule =>
              rw [parseLines_of_rule hskip hcompile, parseLines_of_rule hskip hcompile, hrest]
              cases parseLines (n + 1) rest <;> rfl

/-- The rules of the first lines, and then those of the lines after them. -/
theorem parseLines_append (n : Nat) (xs ys : List (List Char)) :
    parseLines n (xs ++ ys) =
      (parseLines n xs).bind fun rules =>
        (parseLines (xs.length + n) ys).map (rules ++ ·) := by
  induction xs generalizing n with
  | nil =>
      rw [List.nil_append, List.length_nil, Nat.zero_add]
      cases parseLines n ys <;> rfl
  | cons line rest ih =>
      have hnumber : (line :: rest).length + n = rest.length + (n + 1) := by
        rw [List.length_cons]
        omega
      rw [List.cons_append, hnumber]
      cases hskip : isSkipped (trim line) with
      | true => rw [parseLines_of_skipped hskip, parseLines_of_skipped hskip, ih]
      | false =>
          cases hcompile : Statement.compile (trim line) with
          | error cause =>
              rw [parseLines_of_fault hskip hcompile, parseLines_of_fault hskip hcompile]
              rfl
          | ok rule =>
              rw [parseLines_of_rule hskip hcompile, parseLines_of_rule hskip hcompile, ih]
              cases parseLines (n + 1) rest with
              | error fault => rfl
              | ok rules => cases parseLines (rest.length + (n + 1)) ys <;> rfl

/-- A line feed at the end of a text changes neither its rules nor its fault. -/
theorem parseLines_newline (n : Nat) (s : List Char) :
    parseLines n (splitLines (s ++ ['\n'])) = parseLines n (splitLines s) := by
  rcases splitLines_newline_cases s with hsame | hmore
  · rw [hsame]
  · rw [hmore, parseLines_append]
    cases parseLines n (splitLines s) with
    | error fault => rfl
    | ok rules =>
        -- the empty line adds no rules
        exact congrArg Except.ok (List.append_nil rules)

/-! ## Two texts -/

/-- The listing of two texts with a line feed between them. -/
theorem parse_newline (s t : List Char) :
    parse (s ++ '\n' :: t) =
      (parse s).bind fun rules =>
        ((parse t).mapError (shiftFault (splitLines (s ++ ['\n'])).length)).map (rules ++ ·) := by
  rw [parse, splitLines_append_newline, parseLines_append, parseLines_newline, parseLines_add,
    parse, parse]

/-- A listing of two texts with a line feed between them is read as the first text and then the
    second. A fault of the first is reported as it is. Otherwise a fault of the second is
    reported with the number of its line in the whole: the lines of the first text with its
    line feed come before it. Otherwise the rules are those of both. A fault is told by the
    number of its line and its cause, which is the same text in both cases. -/
theorem parse_newline_cases (s t : List Char) :
    (∀ fault, parse s = .error fault → parse (s ++ '\n' :: t) = .error fault) ∧
    (∀ rules m cause, parse s = .ok rules → parse t = .error ⟨m, cause⟩ →
      parse (s ++ '\n' :: t) = .error ⟨(splitLines (s ++ ['\n'])).length + m, cause⟩) ∧
    (∀ rules more, parse s = .ok rules → parse t = .ok more →
      parse (s ++ '\n' :: t) = .ok (rules ++ more)) ∧
    ∀ m cause, ListingFault.message ⟨m, cause⟩ =
      "Error on line " ++ String.ofList (decimal m) ++ ": " ++ cause.message := by
  refine ⟨?_, ?_, ?_, fun _ _ => rfl⟩
  · intro fault hs
    rw [parse_newline, hs]
    rfl
  · intro rules m cause hs ht
    rw [parse_newline, hs, ht]
    rfl
  · intro rules more hs ht
    rw [parse_newline, hs, ht]
    rfl

-- CR at the end of the first text and the line feed are one boundary
example : parse ("a -> b\r".toList ++ '\n' :: "-> c".toList) =
    .error ⟨1 + 1, .noLeft (.text "-> c".toList)⟩ := rfl

-- a comment and an empty line count, and the text before ends in a boundary of its own
example : parse ("# x\u2028".toList ++ '\n' :: "\x0b-> c".toList) =
    .error ⟨2 + 2, .noLeft (.text "-> c".toList)⟩ := rfl

end NormalAlgorithm.Listing
