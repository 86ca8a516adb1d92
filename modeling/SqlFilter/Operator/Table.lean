import SqlFilter.Error
import SqlFilter.Operator
import SqlFilter.Text.Blank
import SqlFilter.Text.Uppercase

/-!
This module contains the table that finds the operator of a token as users write it: in any case,
with any blanks, and under other names.
-/

namespace SqlFilter

structure OperatorTable where
  aliases : Dictionary Operator

namespace OperatorTable

def normalize (token : String) : String :=
  Text.upper (" ".intercalate (Text.words token))

def standard : OperatorTable where
  aliases :=
    [("NOTLIKE", .notLike), ("NOTIN", .notOneOf), ("NOTBETWEEN", .notBetween),
     ("NOTEXISTS", .notExisting), ("NOTNULL", .isNotNull), ("NOTBETWEEN TIME", .notBetweenTime),
     ("EQ", .equal), ("NEQ", .notEqual), ("GT", .greater), ("EGT", .greaterEqual), ("LT", .less),
     ("ELT", .lessEqual)]

variable (table : OperatorTable)

def resolve? (token : String) : Option Operator :=
  match List.lookup (normalize token) table.aliases with
  | some op => some op
  | none => Operator.ofToken? (normalize token)

def resolve (token : String) : Except CompileError Operator :=
  match table.resolve? token with
  | some op => .ok op
  | none => .error (.unknownOperator token)

def addAlias (name target : String) : Except CompileError (Operator × OperatorTable) := do
  let op ← table.resolve target
  .ok (op, ⟨Dictionary.insert (normalize name) op table.aliases⟩)

def addAliases : List (String × String) → OperatorTable → Except CompileError OperatorTable
  | [], table => .ok table
  | (name, target) :: rest, table => do
    let (_, table) ← table.addAlias name target
    addAliases rest table

end OperatorTable

end SqlFilter
