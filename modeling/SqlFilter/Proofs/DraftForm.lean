import SqlFilter.Proofs.Drafting
import SqlFilter.Proofs.Identifier
import SqlFilter.Proofs.LeafRule

/-!
This module contains all forms that a draft can have. `testDraft_form` goes through the families of
operators once; what holds of every form, and is kept by groups and selects, holds of the draft of
every clause: `DraftInvariant.clauseDraft`.
-/

namespace SqlFilter

/-- The forms of simple conditions of a family, with what is known of values that may spell a
placeholder. Only comparisons of columns have parentheses of their own around them. -/
inductive TestForm (schema : Schema) (IsScalar : Value → Prop) (IsSelect : Draft → Prop)
    (family : OperatorFamily) : Draft → Prop
  | nullity {field : String} {op : Operator} :
    schema.IsIdentifier field → op.family = .isNull → family ≠ .column →
      TestForm schema IsScalar IsSelect family [.text (field ++ " " ++ op.sql)]
  | constant {s : String} :
    s = "0 = 1" ∨ s = "1 = 1" → family ≠ .column →
      TestForm schema IsScalar IsSelect family [.text s]
  | fresh {field : String} {op : Operator} {type : BindType} {v : Value} :
    schema.IsIdentifier field → op.family = .compare ∨ op.family = .time → family ≠ .column →
      TestForm schema IsScalar IsSelect family (op.appliedDraft field [.fresh type v])
  | scalar {field : String} {op : Operator} {type : BindType} {v : Value} :
    schema.IsIdentifier field → IsScalar v → op.family = .compare ∨ op.family = .like →
      family ≠ .column →
        TestForm schema IsScalar IsSelect family (op.appliedDraft field [.scalar type v])
  | range {field : String} {op : Operator} {type : BindType} {low high : Value} :
    schema.IsIdentifier field → op.family = .between ∨ op.family = .betweenTime →
      family ≠ .column →
        TestForm schema IsScalar IsSelect family (op.rangeDraft field type low high)
  | members {field : String} {op : Operator} {type : BindType} {vs : List Value} :
    schema.IsIdentifier field → op.family = .oneOf → family ≠ .column →
      TestForm schema IsScalar IsSelect family
        (op.appliedDraft field
          (.text "(" :: Draft.joined "," (vs.map fun v => [.fresh type v]) ++ [.text ")"]))
  | patterns {field : String} {op : Operator} {connective : Connective} {type : BindType}
    {vs : List Value} :
    schema.IsIdentifier field → (∀ v ∈ vs, IsScalar v) → family ≠ .column →
      TestForm schema IsScalar IsSelect family
        (.text "(" ::
          Draft.joined (" " ++ connective.sql ++ " ")
            (vs.map fun v => op.appliedDraft field [.scalar type v]) ++ [.text ")"])
  | select {field : String} {op : Operator} {d : Draft} :
    schema.IsIdentifier field → IsSelect d → op.family = .compare ∨ op.family = .oneOf →
      family ≠ .column →
        TestForm schema IsScalar IsSelect family (op.appliedDraft field d.inParentheses)
  | existing {op : Operator} {d : Draft} :
    IsSelect d → op.family = .existing → family ≠ .column →
      TestForm schema IsScalar IsSelect family (.text (op.sql ++ " ") :: d.inParentheses)
  | columns {left right : String} {op : Operator} :
    schema.IsIdentifier left → schema.IsIdentifier right → op.family = .compare →
      family = .column →
        TestForm schema IsScalar IsSelect family
          [.text ("( " ++ op.applied left right ++ " )")]

def Argument.Fits (IsScalar : Value → Prop) (IsSelect : Draft → Prop)
    (family : Option OperatorFamily) : Argument (Option Draft) → Prop
  | .value v => family = some .compare ∨ family = some .like → IsScalar v
  | .list vs => family = some .like → ∀ v ∈ vs, IsScalar v
  | .subQuery select => ∀ d, select = some d → IsSelect d
  | _ => True

namespace Operator

variable {schema : Schema} {IsScalar : Value → Prop} {IsSelect : Draft → Prop} {op : Operator}
  {field : String} {type : BindType} {family : Option OperatorFamily}
  {argument : Argument (Option Draft)} {d : Draft}

theorem listDraft_form (hf : schema.IsIdentifier field) (ho : op.family = .oneOf)
    (vs : List Value) : TestForm schema IsScalar IsSelect .oneOf (op.listDraft field type vs) := by
  unfold listDraft
  split
  . split
    . exact .constant (.inr rfl) (by decide)
    . exact .constant (.inl rfl) (by decide)
  . apply TestForm.fresh hf (.inl _) (by decide)
    split <;> rfl
  . exact .members hf ho (by decide)

variable (hf : schema.IsIdentifier field)

include hf

theorem compareDraft_form (ho : op.family = .compare)
    (ha : argument.Fits IsScalar IsSelect (some .compare))
    (h : op.compareDraft field type argument = some d) :
    TestForm schema IsScalar IsSelect .compare d := by
  unfold compareDraft at h
  split at h
  . split at h
    . cases h
      rw [show " IS NULL" = " " ++ isNull.sql by rfl, ← String.append_assoc]
      exact .nullity hf rfl (by decide)
    . split at h
      . cases h
        rw [show " IS NOT NULL" = " " ++ isNotNull.sql by rfl, ← String.append_assoc]
        exact .nullity hf rfl (by decide)
      . cases h
  . cases h
    exact .scalar hf (ha (.inl rfl)) (.inl ho) (by decide)
  . obtain ⟨d, rfl, rfl⟩ := Option.map_eq_some_iff.1 h
    exact .select hf (ha d rfl) (.inl ho) (by decide)
  . cases h

theorem likeDraft_form {connective : Connective} (ho : op.family = .like)
    (ha : argument.Fits IsScalar IsSelect (some .like))
    (h : op.likeDraft field type connective argument = some d) :
    TestForm schema IsScalar IsSelect .like d := by
  unfold likeDraft at h
  split at h
  . split at h
    . cases h
    . cases h
      exact .scalar hf (ha (.inr rfl)) (.inr ho) (by decide)
  . split at h
    . cases h
    . cases h
      exact .patterns hf (ha rfl) (by decide)
  . cases h

theorem memberDraft_form (ho : op.family = .oneOf) (ha : argument.Fits IsScalar IsSelect family)
    (h : op.memberDraft field type argument = some d) :
    TestForm schema IsScalar IsSelect .oneOf d := by
  unfold memberDraft at h
  split at h
  . obtain ⟨d, rfl, rfl⟩ := Option.map_eq_some_iff.1 h
    exact .select hf (ha d rfl) (.inr ho) (by decide)
  . obtain ⟨vs, _, h⟩ := Option.bind_eq_some_iff.1 h
    cases h
    exact listDraft_form hf ho _

omit hf in
theorem existingDraft_form (ho : op.family = .existing)
    (ha : argument.Fits IsScalar IsSelect family) (h : op.existingDraft argument = some d) :
    TestForm schema IsScalar IsSelect .existing d := by
  unfold existingDraft at h
  split at h
  . obtain ⟨d, rfl, rfl⟩ := Option.map_eq_some_iff.1 h
    exact .existing (ha d rfl) ho (by decide)
  . cases h

end Operator

namespace Compiler

variable {c : Compiler} {IsScalar : Value → Prop} {IsSelect : Draft → Prop}

theorem leftSide?_eq_some {field : FieldRef} {left : LeftSide}
    (h : c.leftSide? field = some left) : left.sql = "" ∨ c.schema.IsIdentifier left.sql := by
  unfold leftSide? at h
  split at h
  . obtain ⟨s, hs, rfl⟩ := Option.map_eq_some_iff.1 h
    exact .inr (Schema.isIdentifier_column (toOption_eq_some hs))
  . cases h
  . cases h
    exact .inl rfl

theorem columnsDraft_form {left : LeftSide} {argument : Argument (Option Draft)} {d : Draft}
    (hf : c.schema.IsIdentifier left.sql) (h : c.columnsDraft left argument = some d) :
    TestForm c.schema IsScalar IsSelect .column d := by
  have comparison {symbol other : String}
      (h : columnsDraft.comparison c left symbol other = some d) :
      TestForm c.schema IsScalar IsSelect .column d := by
    obtain ⟨op, ho, h⟩ := Option.bind_eq_some_iff.1 h
    obtain ⟨right, hr, h⟩ := Option.bind_eq_some_iff.1 h
    cases h
    have hcompare : op.family = .compare := by
      simpa [Operator.isComparison] using (Option.filter_eq_some_iff.1 ho).2
    exact .columns hf (Schema.isIdentifier_column (toOption_eq_some hr)) hcompare rfl
  unfold columnsDraft at h
  split at h
  . exact comparison h
  . exact comparison h
  . cases h

theorem testDraft_form {field : FieldRef} {comparison : Comparison}
    {argument : Argument (Option Draft)} {d : Draft}
    (ha : argument.Fits IsScalar IsSelect (c.family? comparison.operator))
    (h : c.testDraft field comparison argument = some d) :
    ∃ family, c.family? comparison.operator = some family ∧
      TestForm c.schema IsScalar IsSelect family d := by
  obtain ⟨left, hl, h⟩ := Option.bind_eq_some_iff.1 h
  obtain ⟨op, ho, h⟩ := Option.bind_eq_some_iff.1 h
  have hfamily : c.family? comparison.operator = some op.family := by simp [family?, ho]
  rw [hfamily] at ha ⊢
  refine ⟨op.family, rfl, ?_⟩
  dsimp only at h
  split at h
  . cases h
  . next hne =>
    -- without a field there is only the test for existence
    have hf (hfam : op.family ≠ .existing) : c.schema.IsIdentifier left.sql := by
      cases leftSide?_eq_some hl with
      | inl he => simp [he, hfam] at hne
      | inr hi => exact hi
    generalize hop : op.family = family at ha hf h
    split at h
    . exact Operator.compareDraft_form (hf (by decide)) hop ha h
    . exact Operator.likeDraft_form (hf (by decide)) hop ha h
    . exact Operator.memberDraft_form (hf (by decide)) hop ha h
    . obtain ⟨⟨low, high⟩, _, h⟩ := Option.bind_eq_some_iff.1 h
      cases h
      exact .range (hf (by decide)) (.inl hop) (by decide)
    . unfold timeDraft at h
      split at h
      . split at h
        . cases h
        . cases h
          exact .fresh (hf (by decide)) (.inr hop) (by decide)
      . cases h
    . obtain ⟨⟨low, high⟩, _, h⟩ := Option.bind_eq_some_iff.1 h
      obtain ⟨high, _, h⟩ := Option.bind_eq_some_iff.1 h
      cases h
      exact .range (hf (by decide)) (.inr hop) (by decide)
    . cases h
      exact .nullity (hf (by decide)) hop (by decide)
    . exact Operator.existingDraft_form hop ha h
    . cases h
    . exact columnsDraft_form (hf (by decide)) h

end Compiler

structure DraftInvariant (c : Compiler) (rule : LeafRule) (IsScalar : Value → Prop)
    (IsClause IsSelect : Draft → Prop) : Prop where
  value : ∀ {token : String} {v : Value}, rule.value token v = true →
    c.family? token = some .compare ∨ c.family? token = some .like → IsScalar v
  list : ∀ {token : String} {vs : List Value}, rule.list token vs = true →
    c.family? token = some .like → ∀ v ∈ vs, IsScalar v
  test : ∀ {family : OperatorFamily} {d : Draft},
    TestForm c.schema IsScalar IsSelect family d → IsClause d
  literal : IsClause [.text "1"]
  group : ∀ {parts : List (Connective × Draft)},
    (∀ part ∈ parts, IsClause part.2) → IsClause (.group parts)
  select : ∀ {fields table order : String} {selection : Selection}
    {parts : List (Connective × Draft)},
    c.schema.fieldsText selection = .ok fields → c.schema.IsIdentifier table →
      c.schema.orderClause selection = .ok order → (∀ part ∈ parts, IsClause part.2) →
        IsSelect (.select fields table (.joinParts parts) (order ++ selection.windowClause))

namespace DraftInvariant

variable {c : Compiler} {rule : LeafRule} {IsScalar : Value → Prop}
  {IsClause IsSelect : Draft → Prop}

mutual

theorem clauseDraft (hi : DraftInvariant c rule IsScalar IsClause IsSelect) :
    (clause : Clause) → clause.obeys rule = true → {d : Draft} →
      c.clauseDraft clause = some d → IsClause d
  | .test field comparison argument, ho, d, h => by
    simp only [Clause.obeys, Bool.and_eq_true] at ho
    simp only [Compiler.clauseDraft] at h
    obtain ⟨_, _, hform⟩ := Compiler.testDraft_form (hi.fits_nestedDraft argument ho.2) h
    exact hi.test hform
  | .group clauses, ho, d, h => by
    simp only [Compiler.clauseDraft] at h
    obtain ⟨parts, hp, h⟩ := Option.bind_eq_some_iff.1 h
    cases h
    exact hi.group (hi.partDrafts clauses ho hp)
  | .raw _, _, d, h => by
    simp only [Compiler.clauseDraft] at h
    cases h
  | .literal truth, _, d, h => by
    simp only [Compiler.clauseDraft] at h
    split at h
    . cases h
      exact hi.literal
    . cases h
  | .failure _, _, d, h => by
    simp only [Compiler.clauseDraft] at h
    cases h

-- an operand of a clause that obeys the rule fits whatever operator stands in front of it
theorem fits_nestedDraft (hi : DraftInvariant c rule IsScalar IsClause IsSelect)
    {token : String} :
    (argument : Argument (SubQuery (List (Connective × Clause)))) →
      Argument.obeys rule token argument = true →
        (c.nestedDraft argument).Fits IsScalar IsSelect (c.family? token)
  | .none, _ => trivial
  | .value _, ho => hi.value ho
  | .list _, ho => hi.list ho
  | .raw _, _ => trivial
  | .subQuery ⟨table, filter, selection⟩, ho => by
    intro d h
    obtain ⟨table, ht, h⟩ := Option.bind_eq_some_iff.1 h
    obtain ⟨fields, hf, h⟩ := Option.bind_eq_some_iff.1 h
    obtain ⟨joined, hj, h⟩ := Option.bind_eq_some_iff.1 h
    obtain ⟨order, hs, h⟩ := Option.bind_eq_some_iff.1 h
    obtain ⟨parts, hp, rfl⟩ := Option.map_eq_some_iff.1 hj
    cases h
    exact hi.select (toOption_eq_some hf) (Schema.isIdentifier_of_identifier (toOption_eq_some ht))
      (toOption_eq_some hs) (hi.partDrafts filter ho hp)
  | .column _ _, _ => trivial
  | .perField _, _ => trivial

theorem partDrafts (hi : DraftInvariant c rule IsScalar IsClause IsSelect) :
    (clauses : List (Connective × Clause)) → Clause.allObey rule clauses = true →
      {parts : List (Connective × Draft)} → c.partDrafts clauses = some parts →
        ∀ part ∈ parts, IsClause part.2
  | [], _, parts, h => by
    simp only [Compiler.partDrafts] at h
    cases h
    simp
  | (connective, clause) :: clauses, ho, parts, h => by
    simp only [Clause.allObey, Bool.and_eq_true] at ho
    simp only [Compiler.partDrafts] at h
    obtain ⟨d, hd, h⟩ := Option.bind_eq_some_iff.1 h
    obtain ⟨others, hs, h⟩ := Option.bind_eq_some_iff.1 h
    cases h
    simp only [List.mem_cons, forall_eq_or_imp]
    exact ⟨hi.clauseDraft clause ho.1 hd, hi.partDrafts clauses ho.2 hs⟩

end

end DraftInvariant

end SqlFilter
