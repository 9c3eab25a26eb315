/-
  NormalAlgorithm.Ruleset.Edit

  Edits of a ruleset whose arguments are values of any kind, as a caller outside
  the type system gives them. The rule is looked at before the position, and an
  edit that fails changes nothing.

    * `Operand`: a rule, or something else in its place.
    * `Position`: an index, a number that can only be compared, no position at
      all, or something that is no position.
    * `Ruleset.ruleAt`, `Ruleset.replaceAt`, `Ruleset.insertAt`,
      `Ruleset.removeAt`: the checked operations (`get_statement`, `set_statement`,
      `add_statement`, `remove_statement`).
-/

import NormalAlgorithm.Ruleset

namespace NormalAlgorithm

open NormalAlgorithm.Number NormalAlgorithm.Text

/-- What stands where a rule is expected. -/
inductive Operand where
  | rule (rule : Rule)
  | other (value : Value)

/-- Why an edit was refused. -/
inductive EditFault where
  /-- The operand is a value of some kind and not a rule (`InvalidRuleType`). -/
  | notRule (kind : String)
  /-- No rule stands at the position (`IndexError`). -/
  | noRule (position : Value) (size : Nat)
  /-- A value is of a kind that cannot be used there. -/
  | unsupported
  deriving Repr

/-- The text of a fault. -/
def EditFault.message : EditFault → String
  | .notRule kind => "Statement must be a Rule, got " ++ kind
  | .noRule position size =>
    "No statement at position " ++ String.ofList position.display ++ " (size " ++
      String.ofList (decimal size) ++ ")"
  | .unsupported => "Unsupported value"

/-- The values that the text of a fault is written with. -/
def EditFault.values : EditFault → List Value
  | .noRule position _ => [position]
  | _ => []

/-- A position as a caller gives it. -/
inductive Position where
  /-- No position. -/
  | absent
  /-- An index, in range or not. -/
  | index (n : Int)
  /-- A number that compares with indices and is none. -/
  | real (x : Binary64)
  /-- A value that does not even compare. -/
  | unusable
  deriving Repr

/-- The position a value stands for. -/
def Position.ofValue : Value → Position
  | .null => .absent
  | .bool b => .index (if b then 1 else 0)
  | .int n => .index n
  | .float x => .real x
  | _ => .unusable

/-- The rule of an operand (`_require_rule`). -/
def Operand.require : Operand → Except EditFault Rule
  | .rule r => .ok r
  | .other v => .error (.notRule v.kindName)

namespace Ruleset

/-- The rule at a position, if there is one (`get_statement`). -/
def ruleAt (s : Ruleset) (position : Value) : Except EditFault (Option Rule) :=
  match Position.ofValue position with
  | .index n => .ok (s.get? n)
  | .real x => if x.geInt 0 && x.ltInt s.size then .error .unsupported else .ok none
  | _ => .error .unsupported

/-- Exchange the rule at a position: the rule that was there, and the ruleset
    after it (`set_statement`). -/
def replaceAt (s : Ruleset) (operand : Operand) (position : Value) :
    Except EditFault (Rule × Ruleset) :=
  match operand.require with
  | .error fault => .error fault
  | .ok rule =>
    match Position.ofValue position with
    | .index n =>
      match s.set? rule n with
      | some result => .ok result
      | none => .error (.noRule position s.size)
    | .real x =>
      if x.geInt 0 && x.ltInt s.size then .error .unsupported
      else .error (.noRule position s.size)
    | _ => .error .unsupported

/-- Insert a rule at a position, clamped (`add_statement`). -/
def insertAt (s : Ruleset) (operand : Operand) (position : Value) : Except EditFault Ruleset :=
  match operand.require with
  | .error fault => .error fault
  | .ok rule =>
    match Position.ofValue position with
    | .absent => .ok (s.add rule none)
    | .index n => .ok (s.add rule (some n))
    | .real x =>
      if x.geInt s.size then .ok (s.add rule none)
      else if x.ltInt 0 then .ok (s.add rule (some (-1)))
      else .error .unsupported
    | .unusable => .error .unsupported

/-- Remove the rule at a position, clamped. An empty ruleset has nothing to remove
    at any position (`remove_statement`). -/
def removeAt (s : Ruleset) (position : Value) : Except EditFault (Option Rule × Ruleset) :=
  if !s.hasRules then .ok (none, s)
  else
    match Position.ofValue position with
    | .absent => .ok (s.remove none)
    | .index n => .ok (s.remove (some n))
    | .real x =>
      if x.geInt (s.size - 1) then .ok (s.remove none)
      else if x.ltInt 0 then .ok (s.remove (some (-1)))
      else .error .unsupported
    | .unusable => .error .unsupported

/-- Operands added one after the other at the back (`from_rules`). -/
def ofOperands (operands : List Operand) : Except EditFault Ruleset :=
  operands.foldlM (fun s operand => s.insertAt operand .null) Ruleset.empty

/-- What a value holds that is gone through item by item: the items of a list, the
    characters of a text, the keys of a map. -/
def itemsOf? : Value → Option (List Value)
  | .list xs => some xs
  | .text s => some (s.map fun c => .text [c])
  | .map es => some (es.map Prod.fst)
  | _ => none

/-- A ruleset from a value that holds no rules: only one that counts as false
    makes one, the empty ruleset. -/
def ofValue (v : Value) : Except EditFault Ruleset :=
  if !v.isTrue then .ok Ruleset.empty
  else
    match itemsOf? v with
    | some items => ofOperands (items.map .other)
    | none => .error .unsupported

end Ruleset

end NormalAlgorithm
