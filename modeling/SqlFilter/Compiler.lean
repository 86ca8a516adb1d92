import SqlFilter.BindTable
import SqlFilter.Config
import SqlFilter.Operator.Table
import SqlFilter.Schema
import SqlFilter.Statement

/-!
This module contains compilers: what the text of a filter depends on beside the filter itself.
-/

namespace SqlFilter

structure Compiler where
  config : CompilerConfig
  operators : OperatorTable
  schema : Schema
  templates : Templates := .standard
  placeholder : PlaceholderStyle := .named
  /-- a condition that every filter is joined with -/
  softDelete : Option Condition := none

def Compiler.new (config : Config) (schema : Schema) : Except CompileError Compiler := do
  let operators ← OperatorTable.addAliases config.compiler.operatorAliases .standard
  .ok { config := config.compiler
        operators := operators
        schema := schema
        placeholder := config.dialect.placeholder }

abbrev Binder := StateT BindTable (Except CompileError)

namespace BindTable

def reference? (table : BindTable) : Value → Option String
  | .text s =>
    match s.toList with
    | ':' :: name => if table.isRegistered (String.ofList name) then some s else none
    | _ => none
  | _ => none

def registerAll (table : BindTable) (binds : List Bind) : Except CompileError BindTable :=
  binds.foldlM BindTable.registerNamed table

end BindTable

namespace Binder

def register (type : BindType) (value : Value) : Binder String := fun table =>
  let (name, table) := table.register value type
  .ok (":" ++ name, table)

/-- Binds a value, unless it is a text that spells the placeholder of a bind. -/
def scalar (type : BindType) (value : Value) : Binder String := fun table =>
  match table.reference? value with
  | some placeholder => .ok (placeholder, table)
  | none => register type value table

def raw (fragment : RawFragment) : Binder String := fun table => do
  let table ← table.registerAll fragment.binds
  .ok (fragment.sql, table)

end Binder

end SqlFilter
