import SqlFilter.Compiler.Test

/-!
This module contains what operators read from their operands, with one equation for each form of
operand.
-/

namespace SqlFilter

namespace Value

theorem eq_null_of_isNull {v : Value} (h : v.isNull = true) : v = .null := by
  cases v <;> first | rfl | cases h

theorem text_of_mem_ofCommaList {s : String} {v : Value} (h : v ∈ ofCommaList s) :
    ∃ t, v = .text t := by
  obtain ⟨t, _, rfl⟩ := List.mem_map.1 h
  exact ⟨_, rfl⟩

end Value

namespace Operator

variable (op : Operator)

def boundsOfList : List Value → Except CompileError (Value × Value)
  | [low, high] =>
    if low.isNull || high.isNull then .error (.expression op.token .nullBound)
    else .ok (low, high)
  | vs => .error (.expression op.token (.boundCount vs.length))

variable {op}

theorem bounds_list (vs : List Value) : op.bounds (.list vs) = op.boundsOfList vs := by
  match vs with
  | [] => rfl
  | [_] => rfl
  | [_, _] => rfl
  | _ :: _ :: _ :: _ => rfl

theorem bounds_text (s : String) :
    op.bounds (.value (.text s)) = op.boundsOfList (Value.ofCommaList s) :=
  bounds_list (Value.ofCommaList s)

theorem bounds_value {v : Value} (h : v.text? = none) :
    op.bounds (.value v) = .error (op.unsupported (.value v)) := by
  cases v <;> first | rfl | cases h

theorem members_value {v : Value} (h : v.text? = none) :
    op.members (.value v) =
      if v.isNull then .error (op.unsupported (.value v)) else .ok [v] := by
  cases v <;> first | rfl | cases h

theorem compareText_value {field : String} {type : BindType} {v : Value}
    (h : v.isNull = false) :
    op.compareText field type (.value v) =
      do return op.applied field (← Binder.scalar type v) := by
  cases v <;> first | rfl | cases h

end Operator

namespace Compiler

variable (c : Compiler)

def comparisonText (op : Operator) (left symbol other : String) :
    Except CompileError String :=
  match (c.operators.resolve? symbol).filter Operator.isComparison with
  | none => .error (.expression op.token (.notComparison symbol))
  | some comparison => do
    let other ← c.column other
    .ok ("( " ++ comparison.applied left other ++ " )")

theorem columnsText_column (op : Operator) (left : LeftSide) (symbol other : String) :
    c.columnsText op left (.column symbol other) = c.comparisonText op left.sql symbol other := by
  simp only [columnsText, comparisonText, Operator.otherColumn]
  rfl

theorem columnsText_text (op : Operator) (left : LeftSide) (other : String) :
    c.columnsText op left (.value (.text other)) = c.comparisonText op left.sql "=" other :=
  columnsText_column c op left "=" other

end Compiler

end SqlFilter
