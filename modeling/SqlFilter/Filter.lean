import SqlFilter.ColumnType
import SqlFilter.Error
import SqlFilter.Operator
import SqlFilter.Value

/-!
This module contains filters as users build them: conditions on fields, joined to groups that nest.
Operators are kept as tokens, so that an unknown one is an error of compiling and not of building.
-/

namespace SqlFilter

inductive Connective where
  | and
  | or
  | xor
deriving DecidableEq

namespace Connective

def sql : Connective → String
  | .and => "AND"
  | .or => "OR"
  | .xor => "XOR"

def ofWord (word : String) : Except CompileError Connective :=
  let name := Text.lowerAscii (Text.trim word)
  if name = "and" then .ok .and
  else if name = "or" then .ok .or
  else if name = "xor" then .ok .xor
  else .error (.expression "connective" (.unknownConnective name))

end Connective

inductive SortOrder where
  | ascending
  | descending
deriving DecidableEq

def SortOrder.sql : SortOrder → String
  | .ascending => "ASC"
  | .descending => "DESC"

structure Window where
  limit : Option Int64 := none
  offset : Option Int64 := none
deriving DecidableEq

namespace Window

def isEmpty (w : Window) : Bool :=
  w.limit.isNone && w.offset.isNone

def sql (w : Window) : String :=
  let limit := w.limit.map fun n => "LIMIT " ++ Decimal.intText n.toInt
  let offset := w.offset.map fun n => "OFFSET " ++ Decimal.intText n.toInt
  " ".intercalate (limit.toList ++ offset.toList)

end Window

structure Selection where
  /-- all fields if there are none -/
  fields : List String := []
  orderBy : List (String × SortOrder) := []
  window : Window := {}

structure SubQuery (φ : Type) where
  table : String
  filter : φ
  selection : Selection

structure Bind where
  name : String
  value : Value
  type : BindType

structure RawFragment where
  sql : String
  binds : List Bind := []

inductive FieldRef where
  | column (name : String)
  | raw (fragment : RawFragment)
  | none

namespace FieldRef

def ofName (name : String) : FieldRef :=
  if name.isEmpty then .none else .column name

def occursInside (c : Char) (cs : List Char) : Bool :=
  cs.contains c && cs.head? != some c

/-- Alternatives bind looser, and a character at the front joins nothing. -/
def multiple? : FieldRef → Option (Connective × List String)
  | .column name =>
    if occursInside '|' name.toList then some (.or, Text.splitAt '|' name)
    else if occursInside '&' name.toList then some (.and, Text.splitAt '&' name)
    else Option.none
  | _ => Option.none

end FieldRef

mutual

inductive Entry where
  | condition (c : Condition)
  | group (entries : List (Connective × Entry))
  /-- a group that is built when it is needed -/
  | deferred (entries : List (Connective × Entry))
  | raw (fragment : RawFragment)
  | literal (truth : Bool)

structure Condition where
  field : FieldRef
  operator : String
  operand : Operand
  /-- goes before the type that the column's declaration gives -/
  bindType : Option BindType
  /-- joins the alternatives of a list of patterns -/
  listConnective : Connective

inductive Operand where
  | none
  | value (v : Value)
  | list (vs : List Value)
  | raw (fragment : RawFragment)
  | subQuery (query : SubQuery (List (Connective × Entry)))
  | column (operator : String) (field : String)
  | perField (operands : List Operand)
  | conditions (items : List (String × Operand)) (connective : Connective)

end

/-- Entries, each with the connective to those before it; that of the first one has no effect. -/
abbrev Group := List (Connective × Entry)

namespace Group

def joined (connective : Connective) (entries : List Entry) : Group :=
  entries.map fun entry => (connective, entry)

def all (entries : List Entry) : Group :=
  joined .and entries

def any (entries : List Entry) : Group :=
  joined .or entries

def push (group : Group) (connective : Connective) (entry : Entry) : Group :=
  group ++ [(connective, entry)]

end Group

namespace Operand

def range (low high : Value) : Operand :=
  .list [low, high]

def describe : Operand → String
  | .none => "no operand"
  | .value v => "value " ++ v.display
  | .list vs => "list of " ++ Decimal.natText vs.length ++ " values"
  | .raw fragment => "raw fragment '" ++ fragment.sql ++ "'"
  | .subQuery query => "sub-query on " ++ query.table
  | .column operator field => "column compare " ++ operator ++ " " ++ field
  | .perField operands => Decimal.natText operands.length ++ " per-field operands"
  | .conditions items _ => Decimal.natText items.length ++ " conditions"

end Operand

namespace Condition

def of (field : FieldRef) (operator : String) (operand : Operand) : Condition :=
  ⟨field, operator, operand, none, .and⟩

def ofOperator (field : String) (operator : Operator) (operand : Operand) : Condition :=
  of (.ofName field) operator.token operand

def likeAny (field : String) (patterns : List String) (connective : Connective) : Condition :=
  { ofOperator field .like (.list (patterns.map .text)) with listConnective := connective }

def existing (query : SubQuery Group) : Condition :=
  of .none Operator.existing.token (.subQuery query)

def notExisting (query : SubQuery Group) : Condition :=
  of .none Operator.notExisting.token (.subQuery query)

def columns (field operator other : String) : Condition :=
  ofOperator field .column (.column operator other)

end Condition

end SqlFilter
