import SqlFilter.Proofs.OperatorForms
import SqlFilter.Proofs.ScalarMap

/-!
This module contains filters of one condition on one field. Such a filter is compiled to the text of
the condition, in parentheses if it comes from a map; what every filter is joined with comes
behind it.
-/

namespace SqlFilter

open Binder

namespace Compiler

variable {c : Compiler} {name sql token : String} {table : BindTable}

variable (c) in
def completed (filter : String) (table : BindTable) : Except CompileError Compiled := do
  let (sql, table) ← c.withSoftDelete filter table
  .ok ⟨sql, table.binds, c.placeholder⟩

theorem completed_of_none (hs : c.softDelete = none) (filter : String) (table : BindTable) :
    c.completed filter table = .ok ⟨filter, table.binds, c.placeholder⟩ := by
  unfold completed withSoftDelete
  rw [hs]
  rfl

theorem compileGroup_eq (group : Group) :
    c.compileGroup group = (do
      let (filter, table) ← c.groupText group (.empty c.config.bindStem)
      c.completed filter table) := by
  change ((c.groupText group >>= c.withSoftDelete) _ >>= _) = _
  rw [run_bind, bind_assoc]
  rfl

theorem parts_single {connective : Connective} {clause : Clause} {before : BindTable}
    (h : c.clauseText clause before = .ok (sql, table)) :
    c.parts [(connective, clause)] before = .ok ([(connective, sql)], table) :=
  parts_cons_eq_ok h rfl

theorem groupText_single (connective : Connective) (entry : Entry) :
    c.groupText [(connective, entry)] = c.clauseText entry.clause := by
  simp [groupText, Group.clauses, parts, joinParts_singleton]

theorem compileGroup_single (connective : Connective) (entry : Entry) :
    c.compileGroup [(connective, entry)] = (do
      let (filter, table) ← c.clauseText entry.clause (.empty c.config.bindStem)
      c.completed filter table) := by
  rw [compileGroup_eq, groupText_single]

theorem compileGroup_of_clauseText {connective : Connective} {entry : Entry}
    (h : c.clauseText entry.clause (.empty c.config.bindStem) = .ok (sql, table)) :
    c.compileGroup [(connective, entry)] = c.completed sql table := by
  rw [compileGroup_single, h]
  rfl

theorem compileCondition_of_clauseText {condition : Condition}
    (h : c.clauseText condition.clause (.empty c.config.bindStem) = .ok (sql, table)) :
    c.compileCondition condition = c.completed sql table :=
  compileGroup_of_clauseText h

theorem compile_of_clauseText {key : String} {value : Json} {condition : Condition}
    (hk : WhereMap.IsPlain key) (hc : c.conditionOfJson key value = .ok condition)
    (hs : condition.isSimple = true) (hne : sql ≠ "")
    (h : c.clauseText condition.clause (.empty c.config.bindStem) = .ok (sql, table)) :
    c.compile (.map [(key, value)]) = c.completed ("( " ++ sql ++ " )") table := by
  rw [compile_member hk.isReserved, entryOfMember_plain hk.check hc hs, ok_bind]
  apply compileGroup_of_clauseText
  simp only [Entry.clause, Group.clauses, clauseText]
  rw [run_bind, parts_single h, ok_bind, joinParts_singleton, parenthesized_eq hne]
  rfl

theorem clauseText_test_of_leftSide {field : FieldRef} (comparison : Comparison) {op : Operator}
    {left : LeftSide} {before : BindTable} (hleft : c.leftSide field before = .ok (left, table))
    (hop : c.operators.resolve? comparison.operator = some op)
    (argument : Argument (SubQuery (List (Connective × Clause)))) :
    c.clauseText (.test field comparison argument) before =
      c.operandText comparison op left (c.nested argument) table := by
  have hresolve : c.operators.resolve comparison.operator = .ok op := by
    rw [OperatorTable.resolve, hop]
  rw [clauseText, testText_eq, run_bind, hleft, ok_bind, run_lift_bind, hresolve, ok_bind]

section Column

variable (hcol : c.column name = .ok sql)

include hcol

theorem check_of_column : Identifier.check name = .ok () :=
  (Schema.eq_of_column hcol).1

theorem isEmpty_of_column : sql.isEmpty = false := by
  simpa using (Schema.isIdentifier_column hcol).endsSolid.ne_empty

theorem clauseText_column {op : Operator} (hop : c.operators.resolve? token = some op)
    {operand : Operand} {argument : Argument (SubQuery (List (Connective × Clause)))}
    (ho : ∀ comparison field, operand.clause comparison (.single field) =
      .test field comparison argument) :
    c.clauseText (Condition.of (.ofName name) token operand).clause table =
      c.operandText ⟨token, none, .and⟩ op ⟨sql, some name⟩ (c.nested argument) table := by
  have hleft : c.leftSide (.column name) table = .ok (⟨sql, some name⟩, table) := by
    rw [leftSide, run_lift_bind, hcol]
    rfl
  rw [Condition.of, Condition.clause, FieldTree.ofField_of_check (check_of_column hcol), ho,
    clauseText_test_of_leftSide ⟨token, none, .and⟩ hleft hop]

end Column

end Compiler

end SqlFilter
