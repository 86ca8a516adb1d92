import SqlFilter.Clause
import SqlFilter.Compiler
import SqlFilter.Value.Temporal

/-!
This module contains the text of a simple condition: one rule for each family of operators. The text
of a sub-query comes in as a computation, which runs only where the family takes sub-queries.
-/

namespace SqlFilter

structure NestedSelect where
  table : String
  text : Binder String

structure LeftSide where
  sql : String
  column : Option String

namespace Compiler

variable (c : Compiler)

def column (name : String) : Except CompileError String := do
  checkField name
  if c.config.strictFields && !c.schema.isAllowed name then .error (.strictField name)
  else .ok (c.schema.identifierText name)

def leftSide : FieldRef → Binder LeftSide
  | .column name => do
    let sql ← c.column name
    return ⟨sql, some name⟩
  | .raw fragment => do
    let sql ← Binder.raw fragment
    return ⟨sql, none⟩
  | .none => return ⟨"", none⟩

/-- The type with which the values of a condition are bound: the hint of the condition, text for
patterns, or else what the declaration of the column says. -/
def bindType (comparison : Comparison) (op : Operator) (column : Option String) : BindType :=
  match comparison.bindType with
  | some type => type
  | none =>
    if op.family = .like then .str
    else
      match column.bind c.schema.declaredType? with
      | some declared => .ofDeclared declared
      | none => .str

def normalizeFor (column : Option String) (v : Value) : Value :=
  match (column.bind c.schema.declaredType?).bind TemporalFamily.ofDeclared? with
  | some family => v.normalizeTemporal family
  | none => v

end Compiler

namespace Operator

variable (op : Operator)

def unsupported (argument : Argument NestedSelect) : CompileError :=
  .expression op.token (.unsupportedOperand (argument.describe NestedSelect.table))

def applied (field right : String) : String :=
  field ++ " " ++ op.sql ++ " " ++ right

def compareText (field : String) (type : BindType) : Argument NestedSelect → Binder String
  | .value .null =>
    if op = .equal then return field ++ " IS NULL"
    else if op = .notEqual then return field ++ " IS NOT NULL"
    else throw (op.unsupported (.value .null))
  | .value v => do return op.applied field (← Binder.scalar type v)
  | .subQuery query => do return op.applied field ("( " ++ (← query.text) ++ " )")
  | .raw fragment => do return op.applied field (← Binder.raw fragment)
  | argument => throw (op.unsupported argument)

def likeText (field : String) (type : BindType) (connective : Connective) :
    Argument NestedSelect → Binder String
  | .value v =>
    if v.isNull then throw (op.unsupported (.value v))
    else do return op.applied field (← Binder.scalar type v)
  | .list vs =>
    if vs.isEmpty || vs.any Value.isNull then throw (op.unsupported (.list vs))
    else do
      let placeholders ← vs.mapM (Binder.scalar type)
      let parts := placeholders.map (op.applied field)
      return "(" ++ (" " ++ connective.sql ++ " ").intercalate parts ++ ")"
  | argument => throw (op.unsupported argument)

def members : Argument NestedSelect → Except CompileError (List Value)
  | .list vs => .ok vs
  | .value (.text s) => .ok (Value.ofCommaList s)
  | .value v => if v.isNull then .error (op.unsupported (.value v)) else .ok [v]
  | argument => .error (op.unsupported argument)

def listText (field : String) (type : BindType) : List Value → Binder String
  | [] => return if op = .notOneOf then "1 = 1" else "0 = 1"
  | [v] => do
    let placeholder ← Binder.register type v
    return field ++ (if op = .notOneOf then " <> " else " = ") ++ placeholder
  | vs => do
    let placeholders ← vs.mapM (Binder.register type)
    return op.applied field ("(" ++ ",".intercalate placeholders ++ ")")

def memberText (field : String) (type : BindType) : Argument NestedSelect → Binder String
  | .subQuery query => do return op.applied field ("( " ++ (← query.text) ++ " )")
  | .raw fragment => do return op.applied field ("( " ++ (← Binder.raw fragment) ++ " )")
  | argument => do
    let vs ← op.members argument
    op.listText field type (vs.eraseDupsBy Value.equals)

def bounds (argument : Argument NestedSelect) : Except CompileError (Value × Value) := do
  let vs ← match argument with
    | .list vs => .ok vs
    | .value (.text s) => .ok (Value.ofCommaList s)
    | argument => .error (op.unsupported argument)
  match vs with
  | [low, high] =>
    if low.isNull || high.isNull then .error (.expression op.token .nullBound)
    else .ok (low, high)
  | vs => .error (.expression op.token (.boundCount vs.length))

def rangeText (field : String) (type : BindType) (low high : Value) : Binder String := do
  let low ← Binder.register type low
  let high ← Binder.register type high
  return op.applied field (low ++ " AND " ++ high)

def existingText : Argument NestedSelect → Binder String
  | .subQuery query => do return op.sql ++ " ( " ++ (← query.text) ++ " )"
  | .raw fragment => do return op.sql ++ " ( " ++ (← Binder.raw fragment) ++ " )"
  | argument => throw (op.unsupported argument)

def expressionText (field : String) : Argument NestedSelect → Binder String
  | .raw fragment => do return "( " ++ field ++ " " ++ (← Binder.raw fragment) ++ " )"
  | argument => throw (op.unsupported argument)

def otherColumn : Argument NestedSelect → Except CompileError (String × String)
  | .column symbol field => .ok (symbol, field)
  | .value (.text field) => .ok ("=", field)
  | argument => .error (op.unsupported argument)

end Operator

namespace Compiler

variable (c : Compiler)

def timeText (op : Operator) (left : LeftSide) (type : BindType) :
    Argument NestedSelect → Binder String
  | .value v =>
    if v.isNull then throw (op.unsupported (.value v))
    else do return op.applied left.sql (← Binder.register type (c.normalizeFor left.column v))
  | argument => throw (op.unsupported argument)

/-- A range of times; an end in seconds means the last second of its day. -/
def timeRangeText (op : Operator) (left : LeftSide) (type : BindType)
    (argument : Argument NestedSelect) : Binder String := do
  let (low, high) ← op.bounds argument
  match high.addSeconds? endOfDaySeconds with
  | none => throw (.expression op.token .endOutOfRange)
  | some high =>
    op.rangeText left.sql type (c.normalizeFor left.column low) (c.normalizeFor left.column high)

def columnsText (op : Operator) (left : LeftSide) (argument : Argument NestedSelect) :
    Except CompileError String := do
  let (symbol, other) ← op.otherColumn argument
  match (c.operators.resolve? symbol).filter Operator.isComparison with
  | none => .error (.expression op.token (.notComparison symbol))
  | some comparison =>
    let other ← c.column other
    .ok ("( " ++ comparison.applied left.sql other ++ " )")

def testText (field : FieldRef) (comparison : Comparison) (argument : Argument NestedSelect) :
    Binder String := do
  let left ← c.leftSide field
  let op ← c.operators.resolve comparison.operator
  let type := c.bindType comparison op left.column
  -- only the existence of rows is tested without a field
  if left.sql.isEmpty && op.family != .existing then
    throw (.expression op.token .noField)
  else
    match op.family with
    | .compare => op.compareText left.sql type argument
    | .like => op.likeText left.sql type comparison.listConnective argument
    | .oneOf => op.memberText left.sql type argument
    | .between => do
      let (low, high) ← op.bounds argument
      op.rangeText left.sql type low high
    | .time => c.timeText op left type argument
    | .betweenTime => c.timeRangeText op left type argument
    | .isNull => return left.sql ++ " " ++ op.sql
    | .existing => op.existingText argument
    | .expression => op.expressionText left.sql argument
    | .column => c.columnsText op left argument

end Compiler

end SqlFilter
