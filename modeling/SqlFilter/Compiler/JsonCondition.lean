import SqlFilter.Clause
import SqlFilter.Compiler
import SqlFilter.Value.Temporal

/-!
This module contains conditions that are written as JSON: a scalar that is compared for equality, an
array of an operator and an operand, or an array of several such pairs.
-/

namespace SqlFilter

abbrev OperatorOperand := String × Operand

namespace OperatorOperand

def equalTo (value : Json) : OperatorOperand :=
  (Operator.equal.token, .value (.ofJson value))

end OperatorOperand

def Operand.ofJson : Json → Operand
  | .array items => .list (items.map Value.ofJson)
  | scalar => .value (.ofJson scalar)

def Json.bounds? : Json → Option (List Value)
  | .array items => some (items.map Value.ofJson)
  | .string text => some (Value.ofCommaList text)
  | _ => none

/--
A range of which one bound is blank is a comparison with the other one. An end in seconds that
stands alone means the begin of the next day.
-/
def halfOpenRange (op : Operator) (operand : Json) :
    Except CompileError (Option OperatorOperand) :=
  if op = .between ∨ op = .betweenTime then
    let timed := op = .betweenTime
    match operand.bounds? with
    | some [low, high] =>
      if low.isBlank then
        if high.isBlank then .error (.expression op.token .blankRange)
        else
          let before := if timed then Operator.timeLess else .less
          match if timed then high.addSeconds? daySeconds else some high with
          | some high => .ok (some (before.token, .value high))
          | none => .error (.expression op.token .endOutOfRange)
      else if high.isBlank then
        let after := if timed then Operator.timeGreater else .greater
        .ok (some (after.token, .value low))
      else .ok none
    | _ => .ok none
  else .ok none

namespace Compiler

variable (c : Compiler)

/-- A missing operand counts as null. -/
def operandOfJson (op : Operator) (operand : Json) : Except CompileError OperatorOperand := do
  match op.family with
  | .expression | .existing =>
    if !c.config.allowRawExpressions then .error (.expression op.token .rawDisabled)
    else
      match operand with
      | .string sql => .ok (op.token, .raw ⟨sql, []⟩)
      | other => .error (.expression op.token (.expectedSql other))
  | .isNull => .ok (op.token, .none)
  | .column =>
    match operand with
    | .string other => .ok (op.token, .column Operator.equal.token other)
    | .array [.string symbol, .string other] => .ok (op.token, .column symbol other)
    | .array items => .error (.expression op.token (.expectedColumnPair (.array items)))
    | other => .error (.expression op.token (.expectedFieldName other))
  | .between | .betweenTime =>
    match ← halfOpenRange op operand with
    | some pair => .ok pair
    | none => .ok (op.token, .ofJson operand)
  | _ => .ok (op.token, .ofJson operand)

def pairOfJson (token : String) (rest : List Json) : Except CompileError OperatorOperand := do
  let op ← c.operators.resolve token
  c.operandOfJson op (rest.head?.getD .null)

def itemOfJson : Json → Except CompileError OperatorOperand
  | .array (.string token :: rest) => c.pairOfJson token rest
  | .array items => .error (.expression Operator.equal.token (.expectedPair (.array items)))
  | .object members => .error (.expression Operator.equal.token (.expectedPair (.object members)))
  | scalar => .ok (.equalTo scalar)

/-- A text at the end is the connective of the conditions. -/
def itemsOfJson (field : String) (items : List Json) : Except CompileError OperatorOperand := do
  let (items, connective) ← match items.getLast? with
    | some (.string word) => do
      let connective ← Connective.ofWord word
      .ok (items.dropLast, connective)
    | _ => .ok (items, Connective.and)
  if items.isEmpty then .error (.expression Operator.equal.token (.noConditions field))
  else do
    let pairs ← items.mapM c.itemOfJson
    .ok (Operator.equal.token, .conditions pairs connective)

def conditionOfJson (field : String) (value : Json) : Except CompileError Condition := do
  let (token, operand) ← match value with
    | .array [] => .error (.expression Operator.equal.token (.emptyValueList field))
    | .array (.string token :: rest) => c.pairOfJson token rest
    | .array items => c.itemsOfJson field items
    | .object _ => .error (.expression Operator.equal.token (.objectValue field))
    | scalar => .ok (.equalTo scalar)
  .ok (.of (.ofName field) token operand)

end Compiler

end SqlFilter
