import SqlFilter.Proofs.Expansion
import SqlFilter.Proofs.OperandShape
import SqlFilter.Proofs.ReferredValues
import SqlFilter.Proofs.SoftDelete

/-!
This module contains the proof that no part of an operand is dropped silently: an operand is
refused, or the text of the condition shows all its raw texts, sub-queries and columns, and
placeholders for all its values. Tests for null are the exception, as they do not look at their
operands.
-/

namespace SqlFilter

open Binder Text

def OperatorFamily.listed : OperatorFamily → Value → List Value
  | .oneOf, .text s => Value.ofCommaList s
  | .between, .text s => Value.ofCommaList s
  | .betweenTime, .text s => Value.ofCommaList s
  | _, v => [v]

namespace Compiler

section Statement

variable (c : Compiler) (family : OperatorFamily) (column : Option String) (sql : String)
  (binds : List Bind)

/-- What a text and its binds show of the values of an operand. Null is asked for without a bind, a
value that is listed twice has one bind, and times are bound in the form of their column, an end in
seconds as the end of its day. -/
def ShowsValues (vs : List Value) : Prop :=
  match family with
  | .compare => ∀ v ∈ vs, v.isNull = false → v.IsReferredTo sql binds
  | .oneOf => ∀ v ∈ vs, ∃ u ∈ vs, (u = v ∨ v.equals u = true) ∧ u.IsReferredTo sql binds
  | .time => ∀ v ∈ vs, (c.normalizeFor column v).IsReferredTo sql binds
  | .betweenTime => ∃ low high last, vs = [low, high] ∧
    high.addSeconds? endOfDaySeconds = some last ∧
      (c.normalizeFor column low).IsReferredTo sql binds ∧
        (c.normalizeFor column last).IsReferredTo sql binds
  | .column => ∀ v ∈ vs, ∃ field, v = .text field ∧ Within (c.schema.identifierText field) sql
  | _ => ∀ v ∈ vs, v.IsReferredTo sql binds

def Shows (before : BindTable) : Argument NestedSelect → Prop
  | .none => True
  | .value v => c.ShowsValues family column sql binds (family.listed v)
  | .list vs => c.ShowsValues family column sql binds vs
  | .raw fragment => Within fragment.sql sql ∧ fragment.binds ⊆ binds
  | .subQuery query => ∃ text inner, query.text before = .ok (text, inner) ∧ Within text sql ∧
    inner.binds <+: binds
  | .column symbol field => ∃ comparison, c.operators.resolve? symbol = some comparison ∧
    Within comparison.sql sql ∧ Within (c.schema.identifierText field) sql
  | .perField _ => False

end Statement

section Families

variable {c : Compiler} {op : Operator} {family : OperatorFamily} {column : Option String}
  {field sql : String} {type : BindType} {argument : Argument NestedSelect}
  {before after : BindTable}

theorem shows_raw {fragment : RawFragment} {s : String}
    (h : Binder.raw fragment before = .ok (s, after)) (hs : Within s sql) :
    c.Shows family column sql after.binds before (.raw fragment) := by
  obtain ⟨rfl, hbinds⟩ := raw_eq_ok h
  rw [hbinds]
  exact ⟨hs, List.subset_append_right _ _⟩

theorem shows_subQuery {query : NestedSelect} {s : String}
    (h : query.text before = .ok (s, after)) (hs : Within s sql) :
    c.Shows family column sql after.binds before (.subQuery query) :=
  ⟨s, after, h, hs, List.prefix_refl _⟩

theorem shows_bounds {low high : Value} {binds : List Bind}
    (hbounds : op.bounds argument = .ok (low, high))
    (hfamily : family = .between ∨ family = .betweenTime)
    (h : c.ShowsValues family column sql binds [low, high]) :
    c.Shows family column sql binds before argument := by
  rcases Operator.bounds_eq_ok hbounds with rfl | ⟨s, rfl, hs⟩
  . exact h
  . rw [← hs] at h
    rcases hfamily with rfl | rfl <;> exact h

theorem compareText_shows (h : op.compareText field type argument before = .ok (sql, after)) :
    c.Shows .compare column sql after.binds before argument := by
  cases argument with
  | value v =>
    change ∀ w ∈ [v], _
    rw [List.forall_mem_singleton]
    intro hv
    rw [Operator.compareText_value hv] at h
    exact Operator.applied_refers (refers_scalar type v) h
  | subQuery query =>
    obtain ⟨s, hs, rfl⟩ := return_eq_ok h
    exact shows_subQuery hs ((within_parenthesized s).trans (Operator.within_applied _ _ _))
  | raw fragment =>
    obtain ⟨s, hs, rfl⟩ := return_eq_ok h
    exact shows_raw hs (Operator.within_applied _ _ _)
  | _ => cases h

theorem likeText_shows {connective : Connective}
    (h : op.likeText field type connective argument before = .ok (sql, after)) :
    c.Shows .like column sql after.binds before argument := by
  cases argument with
  | value v =>
    change ∀ w ∈ [v], _
    rw [List.forall_mem_singleton]
    unfold Operator.likeText at h
    dsimp only at h
    split at h
    . cases h
    . exact Operator.applied_refers (refers_scalar type v) h
  | list vs =>
    change ∀ v ∈ vs, _
    unfold Operator.likeText at h
    dsimp only at h
    split at h
    . cases h
    . obtain ⟨placeholders, hall, rfl⟩ := return_eq_ok h
      intro v hv
      obtain ⟨s, hs, hrefers⟩ := (refers_mapM (refers_scalar type) hall).2 v hv
      have hpart := within_intercalate (List.mem_map_of_mem hs (f := op.applied field))
        (" " ++ connective.sql ++ " ")
      have hlist := ((Operator.within_applied op field s).trans hpart).append_left "("
      exact hrefers.mono (hlist.append_right ")") (List.prefix_refl _)
  | _ => cases h

theorem memberText_shows (hop : op = .oneOf ∨ op = .notOneOf)
    (h : op.memberText field type argument before = .ok (sql, after)) :
    c.Shows .oneOf column sql after.binds before argument := by
  cases argument with
  | value v =>
    have hmembers : op.members (.value v) = .error (op.unsupported (.value v)) ∨
        op.members (.value v) = .ok (OperatorFamily.oneOf.listed v) := by
      cases v <;> first | exact .inr rfl | exact .inl rfl
    change (do
      let vs ← op.members (.value v)
      op.listText field type (vs.eraseDupsBy Value.equals) : Binder String) before = _ at h
    rcases hmembers with hmembers | hmembers
    . rw [hmembers] at h
      cases h
    . rw [hmembers, run_lift_bind, ok_bind, Value.eraseDupsBy_eq_firsts] at h
      exact Operator.listText_refers hop h
  | list vs =>
    change op.listText field type (vs.eraseDupsBy Value.equals) before = _ at h
    rw [Value.eraseDupsBy_eq_firsts] at h
    exact Operator.listText_refers hop h
  | subQuery query =>
    obtain ⟨s, hs, rfl⟩ := return_eq_ok h
    exact shows_subQuery hs ((within_parenthesized s).trans (Operator.within_applied _ _ _))
  | raw fragment =>
    obtain ⟨s, hs, rfl⟩ := return_eq_ok h
    exact shows_raw hs ((within_parenthesized s).trans (Operator.within_applied _ _ _))
  | _ => cases h

theorem existingText_shows (h : op.existingText argument before = .ok (sql, after)) :
    c.Shows .existing column sql after.binds before argument := by
  cases argument with
  | subQuery query =>
    obtain ⟨s, hs, rfl⟩ := return_eq_ok h
    exact shows_subQuery hs (((Within.refl s).append_left _).append_right _)
  | raw fragment =>
    obtain ⟨s, hs, rfl⟩ := return_eq_ok h
    exact shows_raw hs (((Within.refl s).append_left _).append_right _)
  | _ => cases h

theorem expressionText_shows (h : op.expressionText field argument before = .ok (sql, after)) :
    c.Shows .expression column sql after.binds before argument := by
  cases argument with
  | raw fragment =>
    obtain ⟨s, hs, rfl⟩ := return_eq_ok h
    exact shows_raw hs (((Within.refl s).append_left _).append_right _)
  | _ => cases h

theorem timeText_shows {left : LeftSide}
    (h : c.timeText op left type argument before = .ok (sql, after)) :
    c.Shows .time left.column sql after.binds before argument := by
  cases argument with
  | value v =>
    change ∀ w ∈ [v], _
    rw [List.forall_mem_singleton]
    unfold timeText at h
    dsimp only at h
    split at h
    . cases h
    . exact Operator.applied_refers (refers_register type _) h
  | _ => cases h

theorem timeRangeText_shows {left : LeftSide}
    (h : c.timeRangeText op left type argument before = .ok (sql, after)) :
    c.Shows .betweenTime left.column sql after.binds before argument := by
  unfold timeRangeText at h
  rw [run_lift_bind] at h
  obtain ⟨⟨low, high⟩, hbounds, h⟩ := bind_eq_ok.1 h
  dsimp only at h
  cases hlast : high.addSeconds? endOfDaySeconds with
  | none =>
    rw [hlast] at h
    cases h
  | some last =>
    rw [hlast] at h
    obtain ⟨hlow, hhigh⟩ := Operator.rangeText_refers h
    exact shows_bounds hbounds (.inr rfl) ⟨low, high, last, rfl, hlast, hlow, hhigh⟩

theorem columnsText_shows {left : LeftSide} (h : c.columnsText op left argument = .ok sql)
    (binds : List Bind) : c.Shows .column column sql binds before argument := by
  have comparison {symbol other : String}
      (h : c.comparisonText op left.sql symbol other = .ok sql) :
      c.Shows .column column sql binds before (.column symbol other) := by
    unfold comparisonText at h
    split at h
    . cases h
    . next comparison hcomparison =>
      obtain ⟨text, hcolumn, h⟩ := bind_eq_ok.1 h
      cases h
      have happlied := within_parenthesized (comparison.applied left.sql text)
      refine ⟨comparison, (Option.filter_eq_some_iff.1 hcomparison).1, ?_, ?_⟩
      . exact (Operator.within_applied_sql comparison left.sql text).trans happlied
      . rw [← (Schema.eq_of_column hcolumn).2]
        exact (Operator.within_applied comparison left.sql text).trans happlied
  cases argument with
  | column symbol other =>
    rw [columnsText_column] at h
    exact comparison h
  | value v =>
    cases v with
    | text other =>
      rw [columnsText_text] at h
      obtain ⟨_, _, _, hother⟩ := comparison h
      change ∀ w ∈ [Value.text other], _
      rw [List.forall_mem_singleton]
      exact ⟨other, rfl, hother⟩
    | _ => cases h
  | _ => cases h

theorem operandText_shows {comparison : Comparison} {left : LeftSide} (hnull : op.family ≠ .isNull)
    (h : c.operandText comparison op left argument before = .ok (sql, after)) :
    c.Shows op.family left.column sql after.binds before argument := by
  have honeOf : op.family = .oneOf → op = .oneOf ∨ op = .notOneOf := by
    cases op <;> simp [Operator.family]
  unfold operandText at h
  split at h
  . cases h
  . generalize hf : op.family = family at h hnull honeOf
    cases family with
    | compare => exact compareText_shows h
    | like => exact likeText_shows h
    | oneOf => exact memberText_shows (honeOf rfl) h
    | between =>
      dsimp only at h
      rw [run_lift_bind] at h
      obtain ⟨⟨low, high⟩, hbounds, h⟩ := bind_eq_ok.1 h
      apply shows_bounds hbounds (.inl rfl)
      change ∀ v ∈ [low, high], _
      rw [List.forall_mem_cons, List.forall_mem_singleton]
      exact Operator.rangeText_refers h
    | time => exact timeText_shows h
    | betweenTime => exact timeRangeText_shows h
    | isNull => exact absurd rfl hnull
    | existing => exact existingText_shows h
    | expression => exact expressionText_shows h
    | column =>
      dsimp only at h
      cases hcolumns : c.columnsText op left argument with
      | error e =>
        rw [hcolumns] at h
        cases h
      | ok text =>
        rw [hcolumns] at h
        cases h
        exact columnsText_shows hcolumns _

end Families

section Condition

variable {c : Compiler} {family : OperatorFamily} {column : Option String} {sql sql' : String}
  {binds binds' : List Bind} {before : BindTable} {argument : Argument NestedSelect}

theorem ShowsValues.mono {vs : List Value} (h : c.ShowsValues family column sql binds vs)
    (hsql : Within sql sql') (hbinds : binds <+: binds') :
    c.ShowsValues family column sql' binds' vs := by
  cases family with
  | compare => exact fun v hv hne => (h v hv hne).mono hsql hbinds
  | oneOf =>
    intro v hv
    obtain ⟨u, hu, he, hrefers⟩ := h v hv
    exact ⟨u, hu, he, hrefers.mono hsql hbinds⟩
  | betweenTime =>
    obtain ⟨low, high, last, hvs, hlast, hlow, hhigh⟩ := h
    exact ⟨low, high, last, hvs, hlast, hlow.mono hsql hbinds, hhigh.mono hsql hbinds⟩
  | column =>
    intro v hv
    obtain ⟨field, he, hfield⟩ := h v hv
    exact ⟨field, he, hfield.trans hsql⟩
  | _ => exact fun v hv => (h v hv).mono hsql hbinds

theorem Shows.mono (h : c.Shows family column sql binds before argument) (hsql : Within sql sql')
    (hbinds : binds <+: binds') : c.Shows family column sql' binds' before argument := by
  cases argument with
  | none => exact h
  | value v => exact ShowsValues.mono h hsql hbinds
  | list vs => exact ShowsValues.mono h hsql hbinds
  | raw fragment => exact ⟨h.1.trans hsql, fun bind hbind => hbinds.subset (h.2 hbind)⟩
  | subQuery query =>
    obtain ⟨text, inner, hrun, htext, hinner⟩ := h
    exact ⟨text, inner, hrun, htext.trans hsql, hinner.trans hbinds⟩
  | column symbol field =>
    obtain ⟨comparison, hresolve, hsymbol, hfield⟩ := h
    exact ⟨comparison, hresolve, hsymbol.trans hsql, hfield.trans hsql⟩
  | perField count => exact h

theorem takes_nested (operators : OperatorTable) (op : Operator)
    (argument : Argument (SubQuery (List (Connective × Clause)))) :
    family.Takes operators op (c.nested argument) ↔ family.Takes operators op argument := by
  cases argument with
  | value v => cases family <;> cases v <;> rfl
  | _ => cases family <;> rfl

theorem completed_eq_ok {filter : String} {table : BindTable} {compiled : Compiled}
    (h : c.completed filter table = .ok compiled) :
    Within filter compiled.sql ∧ table.binds <+: compiled.binds := by
  obtain ⟨⟨sql, after⟩, hsoft, h⟩ := bind_eq_ok.1 h
  cases h
  unfold withSoftDelete at hsoft
  cases hcondition : c.softDelete with
  | none =>
    rw [hcondition] at hsoft
    cases hsoft
    exact ⟨.refl _, List.prefix_refl _⟩
  | some condition =>
    rw [hcondition] at hsoft
    dsimp only at hsoft
    obtain ⟨soft, htext, rfl⟩ := return_eq_ok hsoft
    refine ⟨?_, (clauseText_ensures c condition.clause).binds htext⟩
    split
    . next hempty =>
      rw [String.isEmpty_iff.1 hempty]
      exact ⟨"", soft, by simp⟩
    . exact ⟨"( ", " ) AND " ++ soft, by simp only [String.append_assoc]⟩

end Condition

end Compiler

inductive FieldRef.Suits (op : Operator) : FieldRef → Prop
  | column {name : String} (h : Identifier.check name = .ok ()) : Suits op (.column name)
  | none (h : op.family = .existing) : Suits op .none

def FieldRef.column? : FieldRef → Option String
  | .column name => some name
  | _ => Option.none

namespace Compiler

variable {c : Compiler} {op : Operator} {condition : Condition} {left : LeftSide}

theorem leftSide_of_suits (hs : c.config.strictFields = false) {field : FieldRef}
    (h : field.Suits op) :
    ∃ left, left.column = field.column? ∧
      ∀ before, c.leftSide field before = .ok (left, before) := by
  cases h with
  | @column name hv =>
    refine ⟨⟨c.schema.identifierText name, some name⟩, rfl, ?_⟩
    intro before
    rw [leftSide, run_lift_bind, column_of_check hs hv]
    rfl
  | none => exact ⟨⟨"", Option.none⟩, rfl, fun _ => rfl⟩

theorem multiple?_of_suits {field : FieldRef} (h : field.Suits op) : field.multiple? = none := by
  cases h with
  | column hv => exact FieldRef.multiple?_of_check hv
  | none => rfl

theorem expanded_of_suits (h : condition.field.Suits op)
    (ho : ∀ items connective, condition.operand ≠ .conditions items connective) :
    condition.expanded = .ok none := by
  have hsingle := multiple?_of_suits h
  unfold Condition.expanded
  rw [hsingle]
  split
  . next h => cases h
  . next h => exact absurd h (ho _ _)
  . rfl

theorem compileCondition_of_leftSide
    (hleft : ∀ before, c.leftSide condition.field before = .ok (left, before))
    (hop : c.operators.resolve? condition.operator = some op)
    (hexpanded : condition.expanded = .ok none) :
    c.compileCondition condition = (do
      let (filter, table) ← c.operandText condition.comparison op left
        (c.nested condition.operand.argument) (.empty c.config.bindStem)
      c.completed filter table) := by
  rw [compileCondition, compileGroup_single, Entry.clause, Condition.clause_eq_expanded, hexpanded,
    clauseText_test_of_leftSide condition.comparison (hleft _) hop]

structure HandlesOperand (c : Compiler) (op : Operator) (condition : Condition) : Prop where
  refuses : op.family ≠ .isNull → ¬op.family.Takes c.operators op condition.operand.argument →
    ∃ fault, c.compileCondition condition = .error (.expression op.token fault)
  shows : op.family ≠ .isNull → ∀ compiled, c.compileCondition condition = .ok compiled →
    c.Shows op.family condition.field.column? compiled.sql compiled.binds
      (.empty c.config.bindStem) (c.nested condition.operand.argument)
  ignores : op.family = .isNull →
    c.compileCondition condition = c.compileCondition { condition with operand := .none }

theorem handlesOperand_compileCondition (hs : c.config.strictFields = false)
    (hop : c.operators.resolve? condition.operator = some op) (hfield : condition.field.Suits op)
    (ho : ∀ items connective, condition.operand ≠ .conditions items connective) :
    c.HandlesOperand op condition := by
  obtain ⟨left, hcolumn, hleft⟩ := leftSide_of_suits hs hfield
  have hcompile := compileCondition_of_leftSide hleft hop (expanded_of_suits hfield ho)
  constructor
  . intro hnull htakes
    rw [← takes_nested (c := c)] at htakes
    obtain ⟨fault, hrefuses⟩ :=
      operandText_refuses condition.comparison left hnull htakes
    rw [hcompile, hrefuses]
    exact ⟨fault, rfl⟩
  . intro hnull compiled h
    rw [hcompile] at h
    obtain ⟨⟨filter, table⟩, htext, h⟩ := bind_eq_ok.1 h
    obtain ⟨hsql, hbinds⟩ := completed_eq_ok h
    rw [← hcolumn]
    exact (operandText_shows hnull htext).mono hsql hbinds
  . intro hnull
    have hexpanded : { condition with operand := .none }.expanded = .ok none :=
      expanded_of_suits hfield (by rintro items connective ⟨⟩)
    have hnone : c.compileCondition { condition with operand := .none } = _ :=
      compileCondition_of_leftSide hleft hop hexpanded
    rw [hcompile, hnone]
    unfold operandText
    rw [hnull]

theorem handlesOperand_pieces :
    let c := standard {}
    c.config.strictFields = false ∧ Identifier.check "a" = .ok () ∧
      c.operators.resolve? "between" = some .between ∧ c.operators.resolve? "like" = some .like ∧
      (∃ compiled,
        c.compileCondition ⟨.column "a", "between", .value (.text "3,9"), none, .and⟩ =
          .ok compiled ∧
        (Value.text "3").IsReferredTo compiled.sql compiled.binds ∧
        (Value.text "9").IsReferredTo compiled.sql compiled.binds) ∧
      ∃ fault, c.compileCondition ⟨.column "a", "like", .list [], none, .and⟩ =
        .error (.expression "LIKE" fault) := by
  intro c
  have hv : Identifier.check "a" = .ok () := rfl
  have hbetween : c.operators.resolve? "between" = some .between := by decide +kernel
  have hlike : c.operators.resolve? "like" = some .like := by decide +kernel
  have hpieces : c.HandlesOperand .between
      ⟨.column "a", "between", .value (.text "3,9"), none, .and⟩ :=
    handlesOperand_compileCondition rfl hbetween (.column hv) (by rintro items connective ⟨⟩)
  have hempty : c.HandlesOperand .like ⟨.column "a", "like", .list [], none, .and⟩ :=
    handlesOperand_compileCondition rfl hlike (.column hv) (by rintro items connective ⟨⟩)
  refine ⟨rfl, hv, hbetween, hlike, ?_, hempty.refuses (by decide) (fun h => h.1 rfl)⟩
  have hlist : Value.ofCommaList "3,9" = [.text "3", .text "9"] := rfl
  obtain ⟨compiled, hcompile⟩ : ∃ compiled, c.compileCondition
      ⟨.column "a", "between", .value (.text "3,9"), none, .and⟩ = .ok compiled :=
    exists_eq_ok_iff.2 (by decide +kernel)
  have hshows := hpieces.shows (by decide) _ hcompile
  change ∀ v ∈ Value.ofCommaList "3,9", _ at hshows
  rw [hlist, List.forall_mem_cons, List.forall_mem_singleton] at hshows
  exact ⟨_, hcompile, hshows⟩

theorem not_refuses_isNull :
    let c := standard {}
    let condition : Condition := ⟨.column "a", "NULL", .value (.integer 5), none, .and⟩
    c.config.strictFields = false ∧ Identifier.check "a" = .ok () ∧
      c.operators.resolve? "NULL" = some .isNull ∧
      ¬Operator.isNull.family.Takes c.operators .isNull condition.operand.argument ∧
      c.compileCondition condition = .ok ⟨"a IS NULL", [], .named⟩ := by
  intro c condition
  exact ⟨rfl, rfl, by decide +kernel, id, rfl⟩

end Compiler

end SqlFilter
