import SqlFilter.Compiler.Text
import SqlFilter.Proofs.Draft

/-!
This module contains a compiler without a table of binds. It turns a clause into a draft from the
drafts of its parts alone, and compiles no raw texts, whose binds bring names along.
-/

namespace SqlFilter

namespace Draft

def inParentheses (d : Draft) : Draft :=
  .text "( " :: d ++ [.text " )"]

def joinParts (parts : List (Connective × Draft)) : Draft :=
  match parts.filter fun part => !part.2.isEmpty with
  | [] => []
  | (_, first) :: rest =>
    first ++ rest.flatMap fun part => .text (" " ++ part.1.sql ++ " ") :: part.2

theorem joinParts_induction {P : Draft → Prop} {parts : List (Connective × Draft)}
    (base : ∀ part ∈ parts, part.2 ≠ [] → P part.2)
    (step : ∀ {d e : Draft} (connective : Connective),
      P d → P e → P (d ++ .text (" " ++ connective.sql ++ " ") :: e)) :
    joinParts parts = [] ∨ P (joinParts parts) := by
  have followers (first : Draft) (rest : List (Connective × Draft)) (hf : P first)
      (hr : ∀ part ∈ rest, P part.2) :
      P (first ++ rest.flatMap fun part => .text (" " ++ part.1.sql ++ " ") :: part.2) := by
    induction rest generalizing first with
    | nil => simpa using hf
    | cons part rest ih =>
      simp only [List.mem_cons, forall_eq_or_imp] at hr
      have := ih _ (step part.1 hf hr.1) hr.2
      simpa using this
  unfold joinParts
  split
  . exact .inl rfl
  . next connective first rest he =>
    have hmem (part : Connective × Draft) (hp : part ∈ (connective, first) :: rest) :
        P part.2 := by
      rw [← he] at hp
      obtain ⟨hp, hne⟩ := List.mem_filter.1 hp
      exact base part hp (by simpa using hne)
    simp only [List.mem_cons, forall_eq_or_imp] at hmem
    exact .inr (followers first rest hmem.1 hmem.2)

def group (parts : List (Connective × Draft)) : Draft :=
  let d := joinParts parts
  if d.isEmpty then [] else d.inParentheses

def whereClause (filter : Draft) : Draft :=
  if filter.isEmpty then [] else .text " WHERE " :: filter

def ofText (s : String) : Draft :=
  if s.isEmpty then [] else [.text s]

def select (fields table : String) (filter : Draft) (behind : String) : Draft :=
  .text ("SELECT " ++ fields ++ " FROM " ++ table) :: (whereClause filter ++ ofText behind)

end Draft

namespace Operator

variable (op : Operator)

def appliedDraft (field : String) (right : Draft) : Draft :=
  .text (field ++ " " ++ op.sql ++ " ") :: right

def compareDraft (field : String) (type : BindType) : Argument (Option Draft) → Option Draft
  | .value .null =>
    if op = .equal then some [.text (field ++ " IS NULL")]
    else if op = .notEqual then some [.text (field ++ " IS NOT NULL")]
    else none
  | .value v => some (op.appliedDraft field [.scalar type v])
  | .subQuery select => select.map fun d => op.appliedDraft field d.inParentheses
  | _ => none

def likeDraft (field : String) (type : BindType) (connective : Connective) :
    Argument (Option Draft) → Option Draft
  | .value v => if v.isNull then none else some (op.appliedDraft field [.scalar type v])
  | .list vs =>
    if vs.isEmpty || vs.any Value.isNull then none
    else
      let patterns := vs.map fun v => op.appliedDraft field [.scalar type v]
      some (.text "(" :: Draft.joined (" " ++ connective.sql ++ " ") patterns ++ [.text ")"])
  | _ => none

def listDraft (field : String) (type : BindType) : List Value → Draft
  | [] => [.text (if op = .notOneOf then "1 = 1" else "0 = 1")]
  | [v] => (if op = .notOneOf then notEqual else equal).appliedDraft field [.fresh type v]
  | vs =>
    let members := vs.map fun v => [Piece.fresh type v]
    op.appliedDraft field (.text "(" :: Draft.joined "," members ++ [.text ")"])

def members? : Argument (Option Draft) → Option (List Value)
  | .list vs => some vs
  | .value (.text s) => some (Value.ofCommaList s)
  | .value v => if v.isNull then none else some [v]
  | _ => none

def memberDraft (field : String) (type : BindType) : Argument (Option Draft) → Option Draft
  | .subQuery select => select.map fun d => op.appliedDraft field d.inParentheses
  | argument =>
    (members? argument).bind fun vs => some (op.listDraft field type (vs.eraseDupsBy Value.equals))

def pair? : List Value → Option (Value × Value)
  | [low, high] => if low.isNull || high.isNull then none else some (low, high)
  | _ => none

def bounds? : Argument (Option Draft) → Option (Value × Value)
  | .list vs => pair? vs
  | .value (.text s) => pair? (Value.ofCommaList s)
  | _ => none

def rangeDraft (field : String) (type : BindType) (low high : Value) : Draft :=
  op.appliedDraft field [.fresh type low, .text " AND ", .fresh type high]

def existingDraft : Argument (Option Draft) → Option Draft
  | .subQuery select => select.map fun d => .text (op.sql ++ " ") :: d.inParentheses
  | _ => none

end Operator

namespace Compiler

variable (c : Compiler)

def leftSide? : FieldRef → Option LeftSide
  | .column name => (c.column name).toOption.map fun sql => ⟨sql, some name⟩
  | .raw _ => none
  | .none => some ⟨"", none⟩

def timeDraft (op : Operator) (left : LeftSide) (type : BindType) :
    Argument (Option Draft) → Option Draft
  | .value v =>
    if v.isNull then none
    else some (op.appliedDraft left.sql [.fresh type (c.normalizeFor left.column v)])
  | _ => none

def timeRangeDraft (op : Operator) (left : LeftSide) (type : BindType)
    (argument : Argument (Option Draft)) : Option Draft := do
  let (low, high) ← Operator.bounds? argument
  let high ← high.addSeconds? endOfDaySeconds
  some (op.rangeDraft left.sql type (c.normalizeFor left.column low)
    (c.normalizeFor left.column high))

def columnsDraft (left : LeftSide) : Argument (Option Draft) → Option Draft
  | .column symbol other => comparison symbol other
  | .value (.text other) => comparison "=" other
  | _ => none
where
  comparison (symbol other : String) : Option Draft := do
    let comparison ← (c.operators.resolve? symbol).filter Operator.isComparison
    let other ← (c.column other).toOption
    some [.text ("( " ++ comparison.applied left.sql other ++ " )")]

def testDraft (field : FieldRef) (comparison : Comparison)
    (argument : Argument (Option Draft)) : Option Draft := do
  let left ← c.leftSide? field
  let op ← c.operators.resolve? comparison.operator
  let type := c.bindType comparison op left.column
  if left.sql.isEmpty && op.family != .existing then none
  else
    match op.family with
    | .compare => op.compareDraft left.sql type argument
    | .like => op.likeDraft left.sql type comparison.listConnective argument
    | .oneOf => op.memberDraft left.sql type argument
    | .between => do
      let (low, high) ← Operator.bounds? argument
      some (op.rangeDraft left.sql type low high)
    | .time => c.timeDraft op left type argument
    | .betweenTime => c.timeRangeDraft op left type argument
    | .isNull => some [.text (left.sql ++ " " ++ op.sql)]
    | .existing => op.existingDraft argument
    | .expression => none
    | .column => c.columnsDraft left argument

def selectDraft (table : String) (selection : Selection) (filter : Option Draft) :
    Option Draft := do
  let table ← (c.schema.identifier table).toOption
  let fields ← (c.schema.fieldsText selection).toOption
  let filter ← filter
  let order ← (c.schema.orderClause selection).toOption
  some (Draft.select fields table filter (order ++ selection.windowClause))

mutual

def clauseDraft (c : Compiler) : Clause → Option Draft
  | .test field comparison argument => c.testDraft field comparison (c.nestedDraft argument)
  | .group clauses => do
    let parts ← c.partDrafts clauses
    some (Draft.group parts)
  | .raw _ => none
  | .literal truth => if truth then some [.text "1"] else none
  | .failure _ => none

def nestedDraft (c : Compiler) :
    Argument (SubQuery (List (Connective × Clause))) → Argument (Option Draft)
  | .none => .none
  | .value v => .value v
  | .list vs => .list vs
  | .raw fragment => .raw fragment
  | .subQuery query =>
    .subQuery
      (c.selectDraft query.table query.selection (Draft.joinParts <$> c.partDrafts query.filter))
  | .column operator field => .column operator field
  | .perField count => .perField count

def partDrafts (c : Compiler) : List (Connective × Clause) → Option (List (Connective × Draft))
  | [] => some []
  | (connective, clause) :: rest => do
    let d ← c.clauseDraft clause
    let others ← c.partDrafts rest
    some ((connective, d) :: others)

end

def groupDraft (group : Group) : Option Draft :=
  Draft.joinParts <$> c.partDrafts (Group.clauses group)

def filterDraft (group : Group) : Option Draft := do
  let d ← c.groupDraft group
  match c.softDelete with
  | none => some d
  | some condition => do
    let soft ← c.clauseDraft condition.clause
    some (if d.isEmpty then soft else d.inParentheses ++ .text " AND " :: soft)

end Compiler

end SqlFilter
