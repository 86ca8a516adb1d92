import SqlFilter.Compiler.Input
import SqlFilter.Proofs.Decoding
import SqlFilter.Proofs.Guarded

/-!
This module contains compilers that differ in the check of column names. `Clause.columns` lists the
names that the text of a clause shows: where all of them pass the check both compilers write the same,
and where one fails the checking one writes nothing.
-/

namespace SqlFilter

variable {q : Prop}

namespace FieldRef

def checked : FieldRef → List String
  | .column name => [name]
  | .raw _ => []
  | .none => []

end FieldRef

def Argument.other {σ : Type} : Argument σ → List String
  | .column _ field => [field]
  | .value (.text field) => [field]
  | _ => []

mutual

def Clause.columns (operators : OperatorTable) : Clause → List String
  | .test field comparison argument =>
    field.checked ++
      Argument.columns operators ((operators.resolve? comparison.operator).map Operator.family)
        argument
  | .group clauses => Clause.columnsOf operators clauses
  | .raw _ => []
  | .literal _ => []
  | .failure _ => []

/-- A test for null has no operand, and shows nothing of what stands in its place. -/
def Argument.columns (operators : OperatorTable) (family : Option OperatorFamily) :
    Argument (SubQuery (List (Connective × Clause))) → List String
  | .subQuery query =>
    if family = some .isNull then [] else Clause.columnsOf operators query.filter
  | argument => if family = some .column then argument.other else []

def Clause.columnsOf (operators : OperatorTable) : List (Connective × Clause) → List String
  | [] => []
  | (_, clause) :: clauses => clause.columns operators ++ Clause.columnsOf operators clauses

end

structure Compiler.Guards (P : String → Prop) (c c' : Compiler) : Prop where
  column : ∀ name, Guarded (P name) (c.column name) (c'.column name)
  resolve? : ∀ token, c.operators.resolve? token = c'.operators.resolve? token
  schema : c.schema = c'.schema
  templates : c.templates = c'.templates

namespace Compiler

open Binder

variable {P : String → Prop} {c c' : Compiler}

namespace Guards

variable (h : c.Guards P c')

include h

theorem bindType_eq : c.bindType = c'.bindType := by
  funext comparison op column
  rw [bindType, bindType, h.schema]

theorem normalizeFor_eq : c.normalizeFor = c'.normalizeFor := by
  funext column v
  rw [normalizeFor, normalizeFor, h.schema]

theorem leftSide (field : FieldRef) :
    Binder.Guarded (∀ name ∈ field.checked, P name) (c.leftSide field) (c'.leftSide field) := by
  cases field with
  | column name =>
    apply Binder.Guarded.congr ((Binder.Guarded.lift (h.column name)).map _)
    simp [FieldRef.checked]
  | raw fragment => exact .refl (by simp [FieldRef.checked]) _
  | none => exact .refl (by simp [FieldRef.checked]) _

theorem comparisonText (op : Operator) (left symbol other : String) :
    SqlFilter.Guarded (P other) (c.comparisonText op left symbol other)
      (c'.comparisonText op left symbol other) := by
  unfold Compiler.comparisonText
  rw [h.resolve?]
  split
  . exact .error _ _
  . exact ((h.column other).bind fun _ => .refl trivial _).congr (by rw [and_true])

theorem columnsText (op : Operator) (left : LeftSide) (argument : Argument NestedSelect) :
    SqlFilter.Guarded (∀ name ∈ argument.other, P name) (c.columnsText op left argument)
      (c'.columnsText op left argument) := by
  cases argument with
  | column symbol other =>
    rw [columnsText_column, columnsText_column]
    apply (h.comparisonText op left.sql symbol other).congr
    simp [Argument.other]
  | value v =>
    cases v with
    | text other =>
      rw [columnsText_text, columnsText_text]
      apply (h.comparisonText op left.sql "=" other).congr
      simp [Argument.other]
    | _ => exact .error _ _
  | _ => exact .error _ _

end Guards

def operandText (c : Compiler) (comparison : Comparison) (op : Operator) (left : LeftSide)
    (argument : Argument NestedSelect) : Binder String :=
  if left.sql.isEmpty && op.family != .existing then throw (.expression op.token .noField)
  else
    match op.family with
    | .compare => op.compareText left.sql (c.bindType comparison op left.column) argument
    | .like =>
      op.likeText left.sql (c.bindType comparison op left.column) comparison.listConnective argument
    | .oneOf => op.memberText left.sql (c.bindType comparison op left.column) argument
    | .between => do
      let (low, high) ← op.bounds argument
      op.rangeText left.sql (c.bindType comparison op left.column) low high
    | .time => c.timeText op left (c.bindType comparison op left.column) argument
    | .betweenTime => c.timeRangeText op left (c.bindType comparison op left.column) argument
    | .isNull => return left.sql ++ " " ++ op.sql
    | .existing => op.existingText argument
    | .expression => op.expressionText left.sql argument
    | .column => c.columnsText op left argument

theorem testText_eq (field : FieldRef) (comparison : Comparison)
    (argument : Argument NestedSelect) :
    c.testText field comparison argument = (do
      let left ← c.leftSide field
      let op ← c.operators.resolve comparison.operator
      c.operandText comparison op left argument) := rfl

namespace Guards

variable (h : c.Guards P c') {comparison : Comparison} {op : Operator} {left : LeftSide}

include h

theorem operandText_plain (argument : Argument NestedSelect) :
    Binder.Guarded (op.family = .column → ∀ name ∈ argument.other, P name)
      (c.operandText comparison op left argument) (c'.operandText comparison op left argument) := by
  unfold operandText
  split
  . exact .throw _ _
  . have htime : c.timeText = c'.timeText := by
      funext op left type argument
      simp only [timeText, h.normalizeFor_eq]
    have htimeRange : c.timeRangeText = c'.timeRangeText := by
      funext op left type argument
      simp only [timeRangeText, h.normalizeFor_eq]
    rw [h.bindType_eq, htime, htimeRange]
    cases hf : op.family with
    | column =>
      apply (Binder.Guarded.lift (h.columnsText op left argument)).congr
      simp
    | _ => exact .refl (by simp) _

theorem operandText_select (table : String) {m m' : Binder String} (hm : Binder.Guarded q m m') :
    Binder.Guarded (op.family ≠ .isNull → q)
      (c.operandText comparison op left (.subQuery ⟨table, m⟩))
      (c'.operandText comparison op left (.subQuery ⟨table, m'⟩)) := by
  unfold operandText
  split
  . exact .throw _ _
  . rw [h.bindType_eq]
    cases hf : op.family with
    | compare => exact (hm.map _).congr (by simp)
    | oneOf => exact (hm.map _).congr (by simp)
    | existing => exact (hm.map _).congr (by simp)
    | isNull => exact .refl (by simp) _
    | _ => exact .throw _ _

theorem testText (field : FieldRef)
    {argument : Argument (SubQuery (List (Connective × Clause)))}
    (ha : ∀ op left, Binder.Guarded (∀ name ∈ argument.columns c.operators (some op.family), P name)
      (c.operandText comparison op left (c.nested argument))
      (c'.operandText comparison op left (c'.nested argument))) :
    Binder.Guarded (∀ name ∈ (Clause.test field comparison argument).columns c.operators, P name)
      (c.testText field comparison (c.nested argument))
      (c'.testText field comparison (c'.nested argument)) := by
  rw [testText_eq, testText_eq, Clause.columns]
  simp only [List.forall_mem_append]
  apply (h.leftSide field).bind
  intro left
  unfold OperatorTable.resolve
  rw [← h.resolve?]
  cases c.operators.resolve? comparison.operator with
  | none => exact .throw _ _
  | some op => exact ha op left

theorem selectText (table : String) (selection : Selection) {m m' : Binder String}
    (hm : Binder.Guarded q m m') :
    Binder.Guarded q (c.selectText table selection m) (c'.selectText table selection m') := by
  unfold Compiler.selectText
  rw [h.schema, h.templates]
  have hbehind := fun table fields => hm.bind fun sql => .refl trivial (do
    let order ← c'.schema.orderClause selection
    return c'.templates.assemble .select
      (selectSlots fields table (whereClause sql) order selection.windowClause) : Binder String)
  have hfields := fun table => (Binder.Guarded.refl trivial (c'.schema.fieldsText selection)).bind
    fun fields => hbehind table fields
  apply Binder.Guarded.congr (Binder.Guarded.bind (.refl trivial _) hfields)
  simp

theorem nested_plain {argument : Argument (SubQuery (List (Connective × Clause)))}
    (hne : ∀ query, argument ≠ .subQuery query) :
    Binder.Guarded (∀ name ∈ argument.columns c.operators (some op.family), P name)
      (c.operandText comparison op left (c.nested argument))
      (c'.operandText comparison op left (c'.nested argument)) := by
  have hnested : c'.nested argument = c.nested argument := by
    cases argument with
    | subQuery query => exact absurd rfl (hne query)
    | _ => rfl
  have hcolumns : argument.columns c.operators (some op.family) =
      if some op.family = some .column then (c.nested argument).other else [] := by
    cases argument with
    | subQuery query => exact absurd rfl (hne query)
    | value v => cases v <;> rfl
    | _ => rfl
  rw [hnested, hcolumns]
  apply (h.operandText_plain (c.nested argument)).congr
  split
  . next hf => simp [Option.some.inj hf]
  . next hf => simp_all

omit h

mutual

theorem clauseText (h : c.Guards P c') : (clause : Clause) →
    Binder.Guarded (∀ name ∈ clause.columns c.operators, P name) (c.clauseText clause)
      (c'.clauseText clause)
  | .test field comparison argument => by
    rw [Compiler.clauseText, Compiler.clauseText]
    exact h.testText field fun op left => h.nested argument comparison op left
  | .group clauses => by
    rw [Compiler.clauseText, Compiler.clauseText, Clause.columns]
    exact (h.parts clauses).map _
  | .raw fragment => by
    rw [Compiler.clauseText, Compiler.clauseText]
    exact .refl (by simp [Clause.columns]) _
  | .literal truth => by
    rw [Compiler.clauseText, Compiler.clauseText]
    exact .refl (by simp [Clause.columns]) _
  | .failure error => by
    rw [Compiler.clauseText, Compiler.clauseText]
    exact .throw _ _

theorem nested (h : c.Guards P c') :
    (argument : Argument (SubQuery (List (Connective × Clause)))) → (comparison : Comparison) →
      (op : Operator) → (left : LeftSide) →
        Binder.Guarded (∀ name ∈ argument.columns c.operators (some op.family), P name)
          (c.operandText comparison op left (c.nested argument))
          (c'.operandText comparison op left (c'.nested argument))
  | .subQuery ⟨table, filter, selection⟩, comparison, op, left => by
    have hfilter := h.selectText table selection ((h.parts filter).map joinParts)
    apply (h.operandText_select table hfilter).congr
    rw [Argument.columns]
    split
    . next hf => simp [Option.some.inj hf]
    . next hf => simp_all
  | .none, _, _, _ => h.nested_plain (by rintro query ⟨⟩)
  | .value _, _, _, _ => h.nested_plain (by rintro query ⟨⟩)
  | .list _, _, _, _ => h.nested_plain (by rintro query ⟨⟩)
  | .raw _, _, _, _ => h.nested_plain (by rintro query ⟨⟩)
  | .column _ _, _, _, _ => h.nested_plain (by rintro query ⟨⟩)
  | .perField _, _, _, _ => h.nested_plain (by rintro query ⟨⟩)

theorem parts (h : c.Guards P c') : (clauses : List (Connective × Clause)) →
    Binder.Guarded (∀ name ∈ Clause.columnsOf c.operators clauses, P name) (c.parts clauses)
      (c'.parts clauses)
  | [] => by
    rw [Compiler.parts, Compiler.parts]
    exact .refl (by simp [Clause.columnsOf]) _
  | (connective, clause) :: clauses => by
    rw [Compiler.parts, Compiler.parts, Clause.columnsOf]
    simp only [List.forall_mem_append]
    apply (h.clauseText clause).bind
    intro sql
    exact (h.parts clauses).map _

end

theorem parts_eq (h : c.Guards P c') (hp : ∀ name, P name) : c.parts = c'.parts := by
  funext clauses table
  exact (h.parts clauses table).same fun name _ => hp name

end Guards

def columns (c : Compiler) (group : Group) : List String :=
  Clause.columnsOf c.operators (Group.clauses group) ++
    match c.softDelete with
    | some condition => condition.clause.columns c.operators
    | none => []

/-- A filter that cannot be decoded shows no columns. -/
def columnsOfInput (c : Compiler) (input : WhereInput) : List String :=
  match c.groupOf input with
  | .ok group => c.columns group
  | .error _ => []

structure FramesAs (c c' : Compiler) : Prop where
  softDelete : c.softDelete = c'.softDelete
  bindStem : c.config.bindStem = c'.config.bindStem
  placeholder : c.placeholder = c'.placeholder

namespace Guards

variable (h : c.Guards P c') (hf : c.FramesAs c')

include h hf

theorem withSoftDelete (sql : String) :
    Binder.Guarded
      (∀ name ∈ match c.softDelete with
        | some condition => condition.clause.columns c.operators
        | none => [], P name)
      (c.withSoftDelete sql) (c'.withSoftDelete sql) := by
  unfold Compiler.withSoftDelete
  rw [← hf.softDelete]
  cases c.softDelete with
  | none => exact .refl (by simp) _
  | some condition => exact (h.clauseText condition.clause).map _

theorem compileGroup (group : Group) :
    SqlFilter.Guarded (∀ name ∈ c.columns group, P name) (c.compileGroup group)
      (c'.compileGroup group) := by
  have hgroup := (h.parts (Group.clauses group)).map joinParts
  have htext := hgroup.bind fun sql => h.withSoftDelete hf sql
  unfold Compiler.compileGroup
  rw [← hf.bindStem, ← hf.placeholder]
  apply ((htext (.empty c.config.bindStem)).bind fun r => .refl trivial _).congr
  simp only [columns, List.forall_mem_append, and_true]

theorem compile (hd : c.DecodesAs c') (input : WhereInput) :
    SqlFilter.Guarded (∀ name ∈ c.columnsOfInput input, P name) (c.compile input)
      (c'.compile input) := by
  unfold Compiler.compile columnsOfInput
  rw [← hd.groupOf_eq]
  cases c.groupOf input with
  | error e => exact .error _ e
  | ok group => exact h.compileGroup hf group

end Guards

end Compiler

end SqlFilter
