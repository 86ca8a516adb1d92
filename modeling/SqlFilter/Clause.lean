import SqlFilter.Filter

/-!
This module contains filters in which every condition is simple: it tests one field with one
operator. A field that joins several names, an operand for each of them, and several operators on
one field all become groups of simple conditions; `Entry.clause` does so in one pass. A condition
that cannot be taken apart keeps its place as a failure, so that of several errors the first one
from the left is found.
-/

namespace SqlFilter

inductive Argument (σ : Type) where
  | none
  | value (v : Value)
  | list (vs : List Value)
  | raw (fragment : RawFragment)
  | subQuery (query : σ)
  | column (operator : String) (field : String)
  /-- operands for several fields, which no single field can take -/
  | perField (count : Nat)

structure Comparison where
  operator : String
  bindType : Option BindType
  listConnective : Connective

inductive Clause where
  | test (field : FieldRef) (comparison : Comparison)
      (argument : Argument (SubQuery (List (Connective × Clause))))
  | group (clauses : List (Connective × Clause))
  | raw (fragment : RawFragment)
  | literal (truth : Bool)
  | failure (error : CompileError)

inductive FieldTree where
  | single (field : FieldRef)
  | joined (connective : Connective) (parts : List FieldTree)

namespace FieldTree

def present (names : List String) : List String :=
  names.filter fun name => !name.isEmpty

def ofPart (name : String) : FieldTree :=
  match (FieldRef.column name).multiple? with
  | some (connective, names) =>
    .joined connective ((present names).map fun name => .single (.column name))
  | none => .single (.column name)

/-- Each of the two joining characters is used up by one level, so there are two levels at most. -/
def ofField (field : FieldRef) : FieldTree :=
  match field.multiple? with
  | some (connective, names) => .joined connective ((present names).map ofPart)
  | none => .single field

mutual

def spread (clause : FieldRef → Clause) : FieldTree → Clause
  | .single field => clause field
  | .joined connective parts => .group (spreadParts clause connective parts)

def spreadParts (clause : FieldRef → Clause) (connective : Connective) :
    List FieldTree → List (Connective × Clause)
  | [] => []
  | part :: parts => (connective, spread clause part) :: spreadParts clause connective parts

end

end FieldTree

mutual

def Entry.clause : Entry → Clause
  | .condition c => c.clause
  | .group entries => .group (Group.clauses entries)
  | .deferred entries => .group (Group.clauses entries)
  | .raw fragment => .raw fragment
  | .literal truth => .literal truth

def Condition.clause : Condition → Clause
  | ⟨field, operator, operand, bindType, listConnective⟩ =>
    operand.clause ⟨operator, bindType, listConnective⟩ (.ofField field)

def Operand.clause : Operand → Comparison → FieldTree → Clause
  | .none, c, tree => tree.spread fun field => .test field c .none
  | .value v, c, tree => tree.spread fun field => .test field c (.value v)
  | .list vs, c, tree => tree.spread fun field => .test field c (.list vs)
  | .raw fragment, c, tree => tree.spread fun field => .test field c (.raw fragment)
  | .subQuery query, c, tree =>
    tree.spread fun field =>
      .test field c (.subQuery ⟨query.table, Group.clauses query.filter, query.selection⟩)
  | .column operator other, c, tree =>
    tree.spread fun field => .test field c (.column operator other)
  | .perField operands, c, .single field => .test field c (.perField operands.length)
  | .perField operands, c, .joined connective parts =>
    if operands.length = parts.length then
      .group (Operand.clauses operands c connective parts)
    else .failure (.expression c.operator (.perFieldCount operands.length parts.length))
  | .conditions items connective, c, tree =>
    tree.spread fun field =>
      if items.isEmpty then .failure (.expression c.operator .emptyConditionList)
      else .group (Operand.itemClauses items c connective field)

def Operand.clauses : List Operand → Comparison → Connective → List FieldTree →
    List (Connective × Clause)
  | operand :: operands, c, connective, part :: parts =>
    (connective, operand.clause c part) :: Operand.clauses operands c connective parts
  | _, _, _, _ => []

def Operand.itemClauses : List (String × Operand) → Comparison → Connective → FieldRef →
    List (Connective × Clause)
  | [], _, _, _ => []
  | (operator, operand) :: items, c, connective, field =>
    (connective, operand.clause { c with operator := operator } (.single field)) ::
      Operand.itemClauses items c connective field

def Group.clauses : List (Connective × Entry) → List (Connective × Clause)
  | [] => []
  | (connective, entry) :: entries => (connective, entry.clause) :: Group.clauses entries

end

@[simp]
theorem Group.clauses_append (g h : Group) :
    Group.clauses (g ++ h) = Group.clauses g ++ Group.clauses h := by
  induction g with
  | nil => simp [Group.clauses]
  | cons entry rest ih =>
    obtain ⟨connective, entry⟩ := entry
    simp [Group.clauses, ih]

def Condition.isSimple (c : Condition) : Bool :=
  match c.field.multiple?, c.operand with
  | some _, _ => false
  | none, .conditions _ _ => false
  | none, _ => true

def Argument.describe (table : σ → String) : Argument σ → String
  | .none => Operand.describe .none
  | .value v => Operand.describe (.value v)
  | .list vs => Operand.describe (.list vs)
  | .raw fragment => Operand.describe (.raw fragment)
  | .subQuery query => "sub-query on " ++ table query
  | .column operator field => Operand.describe (.column operator field)
  | .perField count => Decimal.natText count ++ " per-field operands"

end SqlFilter
