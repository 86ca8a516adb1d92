import SqlFilter.Proofs.ColumnCheck
import SqlFilter.Proofs.Ensures

/-!
This module contains the shapes of operands that each family of operators takes. An operand of
another shape is refused with an error of its condition, by all families but the tests for null,
which do not look at their operands.
-/

namespace SqlFilter

def Value.AreBounds (vs : List Value) : Prop :=
  ∃ low high, vs = [low, high] ∧ low.isNull = false ∧ high.isNull = false

/--
The operator itself matters for null only, and the table for the symbol of a comparison of columns.
-/
def OperatorFamily.Takes {σ : Type} (operators : OperatorTable) (op : Operator) :
    OperatorFamily → Argument σ → Prop
  | .compare, .value v => v.isNull = true → op = .equal ∨ op = .notEqual
  | .compare, .subQuery _ => True
  | .compare, .raw _ => True
  | .like, .value v => v.isNull = false
  | .like, .list vs => vs ≠ [] ∧ ∀ v ∈ vs, v.isNull = false
  | .oneOf, .value v => v.isNull = false
  | .oneOf, .list _ => True
  | .oneOf, .subQuery _ => True
  | .oneOf, .raw _ => True
  | .between, .list vs => Value.AreBounds vs
  | .between, .value (.text s) => Value.AreBounds (Value.ofCommaList s)
  | .betweenTime, .list vs => Value.AreBounds vs
  | .betweenTime, .value (.text s) => Value.AreBounds (Value.ofCommaList s)
  | .time, .value v => v.isNull = false
  | .isNull, .none => True
  | .existing, .subQuery _ => True
  | .existing, .raw _ => True
  | .expression, .raw _ => True
  | .column, .column symbol _ =>
    ∃ comparison, operators.resolve? symbol = some comparison ∧ comparison.isComparison = true
  | .column, .value (.text _) => True
  | _, _ => False

theorem OperatorFamily.takes_betweenTime {σ : Type} (operators : OperatorTable) (op : Operator)
    (argument : Argument σ) :
    betweenTime.Takes operators op argument ↔ between.Takes operators op argument := by
  cases argument with
  | value v => cases v <;> rfl
  | _ => rfl

namespace Operator

variable {operators : OperatorTable} {op : Operator} {field : String} {type : BindType}
  {argument : Argument NestedSelect}

theorem compareText_refuses (h : ¬OperatorFamily.compare.Takes operators op argument) :
    op.compareText field type argument = throw (op.unsupported argument) := by
  cases argument with
  | value v =>
    obtain ⟨hv, hop⟩ := Classical.not_imp.1 h
    rw [Value.eq_null_of_isNull hv]
    simp only [not_or] at hop
    rw [compareText, if_neg hop.1, if_neg hop.2]
  | subQuery query => exact absurd trivial h
  | raw fragment => exact absurd trivial h
  | _ => rfl

theorem likeText_refuses (h : ¬OperatorFamily.like.Takes operators op argument)
    (connective : Connective) :
    op.likeText field type connective argument = throw (op.unsupported argument) := by
  cases argument with
  | value v =>
    have hv : v.isNull = true := by simpa [OperatorFamily.Takes] using h
    rw [likeText, if_pos hv]
  | list vs =>
    have hvs : (vs.isEmpty || vs.any Value.isNull) = true := by
      simp only [OperatorFamily.Takes, ne_eq, Classical.not_and_iff_not_or_not] at h
      simpa using h
    rw [likeText, if_pos hvs]
  | _ => rfl

theorem memberText_refuses (h : ¬OperatorFamily.oneOf.Takes operators op argument) :
    op.memberText field type argument = throw (op.unsupported argument) := by
  cases argument with
  | value v =>
    have hv : v.isNull = true := by simpa [OperatorFamily.Takes] using h
    rw [Value.eq_null_of_isNull hv]
    rfl
  | list vs => exact absurd trivial h
  | subQuery query => exact absurd trivial h
  | raw fragment => exact absurd trivial h
  | _ => rfl

theorem boundsOfList_refuses {vs : List Value} (h : ¬Value.AreBounds vs) :
    ∃ fault, op.boundsOfList vs = .error (.expression op.token fault) := by
  match vs with
  | [low, high] =>
    have hnull : (low.isNull || high.isNull) = true := by
      apply Classical.byContradiction
      intro hn
      simp only [Bool.not_eq_true, Bool.or_eq_false_iff] at hn
      exact h ⟨low, high, rfl, hn⟩
    exact ⟨.nullBound, by rw [boundsOfList, if_pos hnull]⟩
  | [] => exact ⟨_, rfl⟩
  | [_] => exact ⟨_, rfl⟩
  | _ :: _ :: _ :: _ => exact ⟨_, rfl⟩

theorem bounds_refuses (h : ¬OperatorFamily.between.Takes operators op argument) :
    ∃ fault, op.bounds argument = .error (.expression op.token fault) := by
  cases argument with
  | list vs =>
    rw [bounds_list]
    exact boundsOfList_refuses h
  | value v =>
    cases v with
    | text s =>
      rw [bounds_text]
      exact boundsOfList_refuses h
    | _ => exact ⟨_, rfl⟩
  | _ => exact ⟨_, rfl⟩

theorem existingText_refuses (h : ¬OperatorFamily.existing.Takes operators op argument) :
    op.existingText argument = throw (op.unsupported argument) := by
  cases argument with
  | subQuery query => exact absurd trivial h
  | raw fragment => exact absurd trivial h
  | _ => rfl

theorem expressionText_refuses (h : ¬OperatorFamily.expression.Takes operators op argument) :
    op.expressionText field argument = throw (op.unsupported argument) := by
  cases argument with
  | raw fragment => exact absurd trivial h
  | _ => rfl

end Operator

namespace Compiler

variable {c : Compiler} {op : Operator} {argument : Argument NestedSelect}

theorem timeText_refuses (h : ¬OperatorFamily.time.Takes c.operators op argument)
    (left : LeftSide) (type : BindType) :
    c.timeText op left type argument = throw (op.unsupported argument) := by
  cases argument with
  | value v =>
    have hv : v.isNull = true := by simpa [OperatorFamily.Takes] using h
    rw [timeText, if_pos hv]
  | _ => rfl

theorem columnsText_refuses (h : ¬OperatorFamily.column.Takes c.operators op argument)
    (left : LeftSide) :
    ∃ fault, c.columnsText op left argument = .error (.expression op.token fault) := by
  cases argument with
  | column symbol other =>
    have hnone : (c.operators.resolve? symbol).filter Operator.isComparison = none := by
      rw [Option.filter_eq_none_iff]
      intro comparison hresolve hcomparison
      exact h ⟨comparison, hresolve, hcomparison⟩
    rw [columnsText_column, comparisonText, hnone]
    exact ⟨_, rfl⟩
  | value v =>
    cases v with
    | text s => exact absurd trivial h
    | _ => exact ⟨_, rfl⟩
  | _ => exact ⟨_, rfl⟩

theorem operandText_refuses (comparison : Comparison) (left : LeftSide)
    (hnull : op.family ≠ .isNull) (h : ¬op.family.Takes c.operators op argument) :
    ∃ fault, c.operandText comparison op left argument =
      throw (.expression op.token fault) := by
  unfold operandText
  split
  . exact ⟨.noField, rfl⟩
  . generalize hf : op.family = family at h hnull
    cases family with
    | compare => exact ⟨_, Operator.compareText_refuses h⟩
    | like => exact ⟨_, Operator.likeText_refuses h _⟩
    | oneOf => exact ⟨_, Operator.memberText_refuses h⟩
    | between =>
      obtain ⟨fault, hbounds⟩ := Operator.bounds_refuses h
      rw [hbounds]
      exact ⟨fault, rfl⟩
    | time => exact ⟨_, timeText_refuses h _ _⟩
    | betweenTime =>
      rw [OperatorFamily.takes_betweenTime] at h
      obtain ⟨fault, hbounds⟩ := Operator.bounds_refuses h
      dsimp only
      rw [timeRangeText, hbounds]
      exact ⟨fault, rfl⟩
    | isNull => exact absurd rfl hnull
    | existing => exact ⟨_, Operator.existingText_refuses h⟩
    | expression => exact ⟨_, Operator.expressionText_refuses h⟩
    | column =>
      obtain ⟨fault, hcolumns⟩ := columnsText_refuses h left
      dsimp only
      rw [hcolumns]
      exact ⟨fault, rfl⟩

end Compiler

end SqlFilter
