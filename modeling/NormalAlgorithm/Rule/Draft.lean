/-
  NormalAlgorithm.Rule.Draft

  Descriptions of rules by values of any kind: a statement, the fields of a rule,
  or a value that is no rule at all.

    * `Draft.build`: the operand a description stands for.
-/

import NormalAlgorithm.Ruleset.Edit
import NormalAlgorithm.Value.Equality

namespace NormalAlgorithm

/-- A rule as a caller describes it. -/
inductive Draft where
  /-- By a statement. -/
  | statement (value : Value)
  /-- By its fields, some of which may be missing. -/
  | fields (pattern replacement terminating : Option Value)
  /-- Not at all: any other value in the place of a rule. -/
  | other (value : Value)

/-- Why a description stands for nothing. -/
inductive DraftFault where
  | statement (cause : StatementFault)
  | rule (cause : RuleFault)
  /-- A side is missing. -/
  | missingSide
  deriving Repr

/-- The values that the text of a fault is written with. -/
def DraftFault.values : DraftFault → List Value
  | .statement cause => cause.values
  | _ => []

/-- The operand a description stands for. A rule is not terminating unless the
    description says so. -/
def Draft.build : Draft → Except DraftFault Operand
  | .statement v => (Statement.compileValue v).map .rule |>.mapError .statement
  | .fields (some p) (some r) t =>
    (Rule.ofValues p r (t.getD (.bool false))).map .rule |>.mapError .rule
  | .fields _ _ _ => .error .missingSide
  | .other v => .ok (.other v)

/-- Equality of operands; a rule equals no other value. -/
def Operand.beq : Operand → Operand → Bool
  | .rule r, .rule s => r = s
  | .other v, .other w => v.beq w
  | _, _ => false

end NormalAlgorithm
