import SqlFilter.Compiler.Input
import SqlFilter.Proofs.Ensures
import SqlFilter.Proofs.JsonForm
import SqlFilter.Proofs.KeyForm

/-!
This module contains the conditions on the fields of bracket keys: their texts are not empty, and
none of their errors is one of the key. A number or a truth value is compared for equality.
-/

namespace SqlFilter

open Binder

inductive Clause.Filled : Clause → Prop
  | test {field : FieldRef} {comparison : Comparison}
    {argument : Argument (SubQuery (List (Connective × Clause)))} :
    (∀ query, argument ≠ .subQuery query) → Filled (.test field comparison argument)
  | group {clauses : List (Connective × Clause)} :
    clauses ≠ [] → (∀ part ∈ clauses, Filled part.2) → Filled (.group clauses)

section JoinParts

variable {connective : Connective} {first : String} {parts : List (Connective × String)}

theorem joinParts_singleton (connective : Connective) (sql : String) :
    joinParts [(connective, sql)] = sql := by
  by_cases h : sql = "" <;> simp [joinParts, h]

theorem joinParts_cons {connective' : Connective} {second : String} (hf : first ≠ "")
    (hs : second ≠ "") :
    joinParts ((connective, first) :: (connective', second) :: parts) =
      first ++ (" " ++ connective'.sql ++ " ") ++ joinParts ((connective', second) :: parts) := by
  simp [joinParts, hf, hs, String.append_assoc]

theorem joinParts_eq_empty_iff : joinParts parts = "" ↔ ∀ part ∈ parts, part.2 = "" := by
  unfold joinParts
  constructor
  . intro h
    split at h
    . next he => simpa using he
    . next connective first rest he =>
      have hm : (connective, first) ∈ parts.filter fun part => !part.2.isEmpty := by simp [he]
      have hne : first ≠ "" := by simpa using (List.mem_filter.1 hm).2
      simp [hne] at h
  . intro h
    rw [List.filter_eq_nil_iff.2 (by simpa using h)]

theorem joinParts_ne_empty (hne : parts ≠ []) (h : ∀ part ∈ parts, part.2 ≠ "") :
    joinParts parts ≠ "" := by
  obtain ⟨part, hm⟩ := List.exists_mem_of_ne_nil parts hne
  exact fun he => h part hm (joinParts_eq_empty_iff.1 he part hm)

theorem parenthesized_eq (h : first ≠ "") : parenthesized first = "( " ++ first ++ " )" := by
  simp [parenthesized, h]

theorem parenthesized_eq_empty_iff : parenthesized first = "" ↔ first = "" := by
  by_cases h : first = "" <;> simp [parenthesized, h]

end JoinParts

namespace Clause

variable {c : Compiler} {config : CompilerConfig}

theorem parts_ensures {IsFault : CompileError → Prop} {P : String → Prop}
    {clauses : List (Connective × Clause)}
    (h : ∀ part ∈ clauses, Ensures IsFault P (c.clauseText part.2)) :
    Ensures IsFault (fun parts => parts.length = clauses.length ∧ ∀ part ∈ parts, P part.2)
      (c.parts clauses) := by
  induction clauses with
  | nil =>
    rw [Compiler.parts]
    exact .pure (by simp)
  | cons part clauses ih =>
    simp only [List.mem_cons, forall_eq_or_imp] at h
    rw [Compiler.parts]
    apply h.1.bind
    intro sql hsql
    apply (ih h.2).bind
    intro others hothers
    apply Ensures.pure
    simp only [List.length_cons, hothers.1, List.mem_cons, forall_eq_or_imp, true_and]
    exact ⟨hsql, hothers.2⟩

theorem Filled.ensures {clause : Clause} (h : clause.Filled) :
    Ensures (fun e => e.isBracket = false) (· ≠ "") (c.clauseText clause) := by
  induction h with
  | @test field comparison argument hsub =>
    rw [Compiler.clauseText]
    apply Compiler.testText_ensures fun _ he => he
    cases argument with
    | subQuery query => exact absurd rfl (hsub query)
    | _ => exact trivial
  | @group clauses hne _ ih =>
    rw [Compiler.clauseText]
    apply (parts_ensures ih).bind
    intro parts hparts
    have hjoin : joinParts parts ≠ "" := by
      apply joinParts_ne_empty _ hparts.2
      rintro rfl
      exact hne (List.length_eq_zero_iff.1 hparts.1.symm)
    rw [parenthesized_eq hjoin]
    apply Ensures.pure
    simp

theorem filled_of_operand {operand : Operand} (h : operand.OfJson config) (comparison : Comparison)
    (field : FieldRef) : (operand.clause comparison (.single field)).Filled := by
  cases h <;> exact .test (by rintro query ⟨⟩)

theorem filled_of_items {pairs : List OperatorOperand} (h : ∀ pair ∈ pairs, pair.2.OfJson config)
    (comparison : Comparison) (connective : Connective) (field : FieldRef) :
    ∀ part ∈ Operand.itemClauses pairs comparison connective field, part.2.Filled := by
  induction pairs with
  | nil => simp [Operand.itemClauses]
  | cons pair pairs ih =>
    simp only [List.mem_cons, forall_eq_or_imp] at h
    simp only [Operand.itemClauses, List.mem_cons, forall_eq_or_imp]
    exact ⟨filled_of_operand h.1 _ field, ih h.2⟩

end Clause

namespace FieldRef

variable {name : String} (h : Identifier.check name = .ok ())

include h

theorem ofName_of_check : ofName name = .column name := by
  simp [ofName, Identifier.ne_empty_of_check h]

theorem multiple?_of_check : (column name).multiple? = Option.none := by
  have absent (sep : Char) (hs : Bracket.isSpecial sep = true) :
      occursInside sep name.toList = false := by
    have : sep ∉ name.toList := by
      intro hm
      rw [Identifier.isSpecial_of_check h sep hm] at hs
      cases hs
    simp [occursInside, this]
  simp [multiple?, absent '|' rfl, absent '&' rfl]

end FieldRef

theorem FieldTree.ofField_of_check {name : String} (h : Identifier.check name = .ok ()) :
    FieldTree.ofField (.ofName name) = .single (.column name) := by
  rw [FieldRef.ofName_of_check h, FieldTree.ofField, FieldRef.multiple?_of_check h]

namespace Compiler

variable {c : Compiler} {name : String}

theorem filled_clause {condition : Condition} {config : CompilerConfig}
    (hn : Identifier.check name = .ok ()) (h : condition.OfJson config name) :
    condition.clause.Filled := by
  have hfield := FieldTree.ofField_of_check hn
  cases h with
  | single ho =>
    simp only [Condition.of, Condition.clause, hfield]
    exact Clause.filled_of_operand ho _ _
  | @several token pairs connective hne hpairs =>
    simp only [Condition.of, Condition.clause, hfield, Operand.clause, FieldTree.spread]
    rw [if_neg (by simpa using hne)]
    apply Clause.Filled.group
    . cases pairs with
      | nil => exact absurd rfl hne
      | cons pair pairs => simp [Operand.itemClauses]
    . exact Clause.filled_of_items hpairs _ _ _

section Faults

abbrev NoBracket (e : CompileError) : Prop := e.isBracket = false

theorem resolve_noBracket (token : String) : Faults NoBracket (c.operators.resolve token) :=
  resolve_faults (fun _ he => he) c.operators token

theorem halfOpenRange_noBracket (op : Operator) (value : Json) :
    Faults NoBracket (halfOpenRange op value) := by
  unfold halfOpenRange
  dsimp only
  split
  . split
    . split
      . split
        . exact .error rfl
        . split
          . exact .ok _
          . exact .error rfl
      . split
        . exact .ok _
        . exact .ok _
    . exact .ok _
  . exact .ok _

theorem rawOperandOfJson_noBracket (op : Operator) (value : Json) :
    Faults NoBracket (c.rawOperandOfJson op value) := by
  unfold rawOperandOfJson
  split
  . exact .error rfl
  . split
    . exact .ok _
    . exact .error rfl

theorem rangeOfJson_noBracket (op : Operator) (value : Json) :
    Faults NoBracket (rangeOfJson op value) := by
  apply (halfOpenRange_noBracket op value).bind
  intro range
  split
  . exact .ok _
  . exact .ok _

theorem operandOfJson_noBracket (op : Operator) (value : Json) :
    Faults NoBracket (c.operandOfJson op value) := by
  unfold operandOfJson
  split
  . exact rawOperandOfJson_noBracket op value
  . exact rawOperandOfJson_noBracket op value
  . exact .ok _
  . split
    . exact .ok _
    . exact .ok _
    . exact .error rfl
    . exact .error rfl
  . exact rangeOfJson_noBracket op value
  . exact rangeOfJson_noBracket op value
  . exact .ok _

theorem pairOfJson_noBracket (token : String) (rest : List Json) :
    Faults NoBracket (c.pairOfJson token rest) :=
  (resolve_noBracket token).bind fun op => operandOfJson_noBracket op _

theorem itemOfJson_noBracket (value : Json) : Faults NoBracket (c.itemOfJson value) := by
  unfold itemOfJson
  split
  . apply pairOfJson_noBracket
  . exact .error rfl
  . exact .error rfl
  . exact .ok _

theorem ofWord_noBracket (word : String) : Faults NoBracket (Connective.ofWord word) := by
  unfold Connective.ofWord
  dsimp only
  split
  . exact .ok _
  . split
    . exact .ok _
    . split
      . exact .ok _
      . exact .error rfl

theorem pairsOfJson_noBracket (field : String) (items : List Json) (connective : Connective) :
    Faults NoBracket (c.pairsOfJson field items connective) := by
  unfold pairsOfJson
  split
  . exact .error rfl
  . exact (Faults.mapM fun item _ => itemOfJson_noBracket item).bind fun _ => .ok _

theorem itemsOfJson_noBracket (field : String) (items : List Json) :
    Faults NoBracket (c.itemsOfJson field items) := by
  unfold itemsOfJson
  dsimp only
  split
  . apply (ofWord_noBracket _).bind
    intro connective
    exact pairsOfJson_noBracket field _ connective
  . exact pairsOfJson_noBracket field _ .and

theorem conditionOfJson_noBracket (field : String) (value : Json) :
    Faults NoBracket (c.conditionOfJson field value) := by
  unfold conditionOfJson
  dsimp only
  split
  . exact .error rfl
  . exact (pairOfJson_noBracket _ _).bind fun _ => .ok _
  . exact (itemsOfJson_noBracket field _).bind fun _ => .ok _
  . exact .error rfl
  . exact .ok _

end Faults

end Compiler

end SqlFilter
