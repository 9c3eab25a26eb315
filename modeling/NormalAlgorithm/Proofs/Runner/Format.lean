/-
  NormalAlgorithm.Proofs.Runner.Format

  The outcome of a run as JSON text, in both layouts.

    * `format_decodes_to_result`: the text is read as an object with the fields of the
      outcome, the same in both layouts, and outcomes with one text are equal.
    * `format_keeps_lines`: the lines of the text depend on the number of steps only.

  The object of an outcome is written without loss (`faithful_toJson`), so the reader of
  JSON gives it back, and the reader of outcomes gives back the outcome
  (`ofFields_of_toJson`).
-/

import NormalAlgorithm.Proofs.Json.Feed
import NormalAlgorithm.Runner.Result

namespace NormalAlgorithm.RunResult

open NormalAlgorithm.Field NormalAlgorithm.Json

/-! ## Objects of outcomes -/

theorem faithful_optionalText (t : Option (List Char)) : Faithful (optionalText t) := by
  cases t with
  | none => exact .null
  | some s => exact .str s

theorem faithful_terminationJson (t : Option Termination) : Faithful (terminationJson t) := by
  cases t with
  | none => exact .null
  | some t => exact .str _

theorem faithful_stepJson (n : Nat) (s : StepRecord) : Faithful (stepJson n s) := by
  have hkeys : (["step", "context", "rule", "terminating"].map String.toList).Nodup := by decide
  refine .obj hkeys ?_
  simp only [List.forall_mem_cons, jsonField]
  exact ⟨.int _, .str _, faithful_optionalText _, .bool _, by simp⟩

theorem faithful_of_mem_stepsJson {n : Nat} {steps : List StepRecord} {j : Json}
    (h : j ∈ stepsJson n steps) : Faithful j := by
  induction steps generalizing n with
  | nil => cases h
  | cons s steps ih =>
      rcases List.mem_cons.mp h with rfl | h
      · exact faithful_stepJson n s
      · exact ih h

theorem faithful_toJson (r : RunResult) : Faithful r.toJson := by
  have hkeys : (["initial", "context", "halted", "termination", "stalled", "step_count",
      "steps"].map String.toList).Nodup := by decide
  refine .obj hkeys ?_
  simp only [List.forall_mem_cons, jsonField]
  exact ⟨.str _, .str _, .bool _, faithful_terminationJson _, .bool _, .int _,
    .arr fun _ => faithful_of_mem_stepsJson, by simp⟩

/-- The text of an outcome is read as its object, in both layouts. -/
theorem parse?_format (r : RunResult) (pretty : Bool) :
    parse? (r.format pretty) = some r.toJson := by
  cases pretty with
  | true => exact parse?_pretty (faithful_toJson r)
  | false => exact parse?_compact (faithful_toJson r)

theorem length_stepsJson (n : Nat) (steps : List StepRecord) :
    (stepsJson n steps).length = steps.length := by
  induction steps generalizing n with
  | nil => rfl
  | cons s steps ih => rw [stepsJson, List.length_cons, List.length_cons, ih]

theorem getElem?_stepsJson (n : Nat) (steps : List StepRecord) (i : Nat) :
    (stepsJson n steps)[i]? = steps[i]?.map (stepJson (n + i)) := by
  induction steps generalizing n i with
  | nil => rfl
  | cons s steps ih =>
      cases i with
      | zero => rfl
      | succ i =>
          rw [stepsJson, List.getElem?_cons_succ, List.getElem?_cons_succ, ih,
            Nat.add_right_comm, Nat.add_assoc]

/-! ## Outcomes from objects -/

theorem readStep_stepJson (n : Nat) (s : StepRecord) : readStep (stepJson n s) = .ok s := by
  obtain ⟨context, rule, terminating⟩ := s
  cases rule <;> rfl

theorem readSteps_stepsJson (n : Nat) (steps : List StepRecord) :
    readSteps n (stepsJson n steps) = .ok steps := by
  induction steps generalizing n with
  | nil => rfl
  | cons s steps ih =>
      rw [stepsJson, readSteps, readStep_stepJson, ih]
      rfl

theorem readStepsField_stepsJson (steps : List StepRecord) :
    readStepsField (some (.arr (stepsJson 0 steps))) = .ok steps := by
  rw [readStepsField, readSteps_stepsJson]
  rfl

theorem readField_terminationJson (t : Option Termination) :
    readField (nullable readTermination) "termination" (terminationJson t) = .ok t := by
  cases t with
  | none => rfl
  | some t => cases t <;> rfl

/-- An outcome is found again in its object. -/
theorem ofFields_of_toJson {r : RunResult} {fields : List (List Char × Json)}
    (h : r.toJson = .obj fields) : ofFields fields = .ok r := by
  cases h
  -- the fields have been looked up by their names
  change Checked.andThen (Checked.andThen (Checked.andThen
    (.ok (RunResult.mk r.initial r.context)) (readStepsField (some (.arr (stepsJson 0 r.steps)))))
    (readField (nullable readTermination) "termination" (terminationJson r.termination)))
    (.ok r.stalled) = .ok r
  rw [readStepsField_stepsJson, readField_terminationJson]
  rfl

theorem toJson_injective {r other : RunResult} (h : other.toJson = r.toJson) : other = r := by
  have hr := ofFields_of_toJson (r := r) rfl
  have hother := ofFields_of_toJson h
  exact Except.ok.inj (hother.symm.trans hr)

/-- The text of an outcome decodes to the outcome. In both layouts it is read as one object,
    which has the fields of the outcome in their order; its steps are numbered from zero and
    hold the word, the rule (or null) and the flag of each entry. The outcome is found again
    in that object, so outcomes with one text in any layouts are equal. -/
theorem format_decodes_to_result (r : RunResult) :
    ∃ (fields : List (List Char × Json)) (steps : List Json),
      fields =
        [("initial".toList, .str r.initial), ("context".toList, .str r.context),
          ("halted".toList, .bool r.termination.isSome),
          ("termination".toList, terminationJson r.termination),
          ("stalled".toList, .bool r.stalled),
          ("step_count".toList, .int (max ((r.steps.length : Int) - 1) 0)),
          ("steps".toList, .arr steps)] ∧
      steps.length = r.steps.length ∧
      (∀ i : Nat, steps[i]? = r.steps[i]?.map fun s =>
        .obj [("step".toList, .int i), ("context".toList, .str s.context),
          ("rule".toList, optionalText s.rule), ("terminating".toList, .bool s.terminating)]) ∧
      (∀ pretty, parse? (r.format pretty) = some (.obj fields)) ∧
      ofFields fields = .ok r ∧
      ∀ (other : RunResult) pretty pretty', other.format pretty' = r.format pretty → other = r := by
  have hcount : max ((r.steps.length : Int) - 1) 0 = (r.stepCount : Int) := by
    rw [stepCount]
    omega
  rw [hcount]
  refine ⟨_, stepsJson 0 r.steps, rfl, length_stepsJson 0 r.steps, ?_, parse?_format r,
    ofFields_of_toJson rfl, ?_⟩
  · intro i
    rw [getElem?_stepsJson, Nat.zero_add]
    rfl
  · intro other pretty pretty' h
    have hother := parse?_format other pretty'
    rw [h, parse?_format r pretty, Option.some.injEq] at hother
    exact toJson_injective hother.symm

/-! ## Lines -/

theorem seams_optionalText (t : Option (List Char)) : seams (optionalText t) = 0 := by
  cases t with
  | none => rfl
  | some s => rfl

theorem seams_terminationJson (t : Option Termination) : seams (terminationJson t) = 0 := by
  cases t with
  | none => rfl
  | some t => rfl

theorem seams_stepJson (n : Nat) (s : StepRecord) : seams (stepJson n s) = 5 := by
  simp only [stepJson, jsonField, seams, seamsOfFields, seams_optionalText]

/-- A step takes a line for itself and one for each field and for its closing bracket. -/
theorem seamsOfItems_stepsJson (n : Nat) (steps : List StepRecord) :
    seamsOfItems (stepsJson n steps) = 6 * steps.length := by
  induction steps generalizing n with
  | nil => rfl
  | cons s steps ih =>
      rw [stepsJson, seamsOfItems, seams_stepJson, ih, List.length_cons]
      omega

/-- Without steps their brackets stay on one line. -/
theorem seams_stepsJson (steps : List StepRecord) :
    seams (.arr (stepsJson 0 steps)) = if steps.length = 0 then 0 else 6 * steps.length + 1 := by
  cases steps with
  | nil => rfl
  | cons s steps =>
      rw [stepsJson, seams, seams_stepJson, seamsOfItems_stepsJson, List.length_cons,
        if_neg (Nat.succ_ne_zero _)]
      omega

theorem seams_toJson (r : RunResult) :
    seams r.toJson = if r.steps.length = 0 then 8 else 9 + 6 * r.steps.length := by
  have hfields : seams r.toJson = 8 + seams (.arr (stepsJson 0 r.steps)) := by
    simp only [toJson, jsonField, seams, seamsOfFields, seams_terminationJson]
    omega
  rw [hfields, seams_stepsJson]
  split
  · rfl
  · omega

/-- Whatever texts an outcome holds, on one line there is no control character, and indented
    there are none but line feeds: 8 without steps, and otherwise 9 and 6 for each step. -/
theorem format_keeps_lines (r : RunResult) :
    (∀ c ∈ r.format false, 0x20 ≤ c.toNat) ∧
      (∀ c ∈ r.format true, c.toNat < 0x20 → c = '\n') ∧
      (r.format true).count '\n' =
        if r.steps.length = 0 then 8 else 9 + 6 * r.steps.length := by
  have hcompact : controls (r.format false) = [] := (faithful_toJson r).controls_compact
  have hpretty : controls (r.format true) = List.replicate (seams r.toJson) '\n' :=
    (faithful_toJson r).controls_pretty
  refine ⟨controls_eq_nil_iff.mp hcompact, fun c => eq_feed_of_controls hpretty, ?_⟩
  rw [count_feed_of_controls hpretty, seams_toJson]

end NormalAlgorithm.RunResult
