import SqlFilter.Compiled
import SqlFilter.Compiler.Test

/-!
This module contains the text of whole filters: groups in parentheses, sub-queries from the template
of selects, and the condition that every filter is joined with.
-/

namespace SqlFilter

/-- Texts with connectives, joined by them; empty texts are left out with their connectives, and the
connective of the first one is dropped. -/
def joinParts (parts : List (Connective × String)) : String :=
  match parts.filter fun part => !part.2.isEmpty with
  | [] => ""
  | (_, first) :: rest =>
    first ++ String.join (rest.map fun part => " " ++ part.1.sql ++ " " ++ part.2)

def parenthesized (sql : String) : String :=
  if sql.isEmpty then sql else "( " ++ sql ++ " )"

def selectSlots (fields table whereClause orderClause windowClause : String) : Slots :=
  [("FIELD", fields), ("TABLE", table), ("WHERE", whereClause), ("ORDER", orderClause),
   ("LIMIT", windowClause)]

namespace Compiler

variable (c : Compiler)

def selectText (table : String) (selection : Selection) (filter : Binder String) :
    Binder String := do
  let table ← c.schema.identifier table
  let fields ← c.schema.fieldsText selection
  let sql ← filter
  let order ← c.schema.orderClause selection
  return c.templates.assemble .select
    (selectSlots fields table (whereClause sql) order selection.windowClause)

mutual

def clauseText (c : Compiler) : Clause → Binder String
  | .test field comparison argument => c.testText field comparison (c.nested argument)
  | .group clauses => do return parenthesized (joinParts (← c.parts clauses))
  | .raw fragment => do return "( " ++ (← Binder.raw fragment) ++ " )"
  | .literal truth =>
    if truth then return "1" else throw (.expression "false" .literalFalse)
  | .failure error => throw error

def nested (c : Compiler) :
    Argument (SubQuery (List (Connective × Clause))) → Argument NestedSelect
  | .none => .none
  | .value v => .value v
  | .list vs => .list vs
  | .raw fragment => .raw fragment
  | .subQuery query =>
    .subQuery ⟨query.table,
      c.selectText query.table query.selection (joinParts <$> c.parts query.filter)⟩
  | .column operator field => .column operator field
  | .perField count => .perField count

def parts (c : Compiler) : List (Connective × Clause) → Binder (List (Connective × String))
  | [] => return []
  | (connective, clause) :: rest => do
    let sql ← c.clauseText clause
    let others ← c.parts rest
    return (connective, sql) :: others

end

def groupText (group : Group) : Binder String :=
  joinParts <$> c.parts (Group.clauses group)

def withSoftDelete (sql : String) : Binder String :=
  match c.softDelete with
  | none => return sql
  | some condition => do
    let soft ← c.clauseText condition.clause
    return if sql.isEmpty then soft else "( " ++ sql ++ " ) AND " ++ soft

def compileGroup (group : Group) : Except CompileError Compiled := do
  let text : Binder String := do
    let sql ← c.groupText group
    c.withSoftDelete sql
  let (sql, table) ← text.run (.empty c.config.bindStem)
  .ok ⟨sql, table.binds, c.placeholder⟩

def compileCondition (condition : Condition) : Except CompileError Compiled :=
  c.compileGroup [(.and, .condition condition)]

end Compiler

end SqlFilter
