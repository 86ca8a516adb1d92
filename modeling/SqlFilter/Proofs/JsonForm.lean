import SqlFilter.Compiler.JsonCondition
import SqlFilter.Proofs.Except

/-!
This module contains all forms that a condition can have which is written as JSON: an operator with
a plain operand, or several of these on one field. `conditionOfJson_form` goes through the ways to
write it once.
-/

namespace SqlFilter

inductive Operand.OfJson (config : CompilerConfig) : Operand → Prop
  | none : OfJson config .none
  | value (v : Value) : OfJson config (.value v)
  | list (vs : List Value) : OfJson config (.list vs)
  | column (symbol other : String) : OfJson config (.column symbol other)
  | raw (fragment : RawFragment) :
    config.allowRawExpressions = true → OfJson config (.raw fragment)

inductive Condition.OfJson (config : CompilerConfig) (field : String) : Condition → Prop
  | single {token : String} {operand : Operand} :
    operand.OfJson config → OfJson config field (.of (.ofName field) token operand)
  | several {token : String} {pairs : List OperatorOperand} {connective : Connective} :
    pairs ≠ [] → (∀ pair ∈ pairs, pair.2.OfJson config) →
      OfJson config field (.of (.ofName field) token (.conditions pairs connective))

namespace Compiler

variable {c : Compiler}

theorem ofJson_form (value : Json) : (Operand.ofJson value).OfJson c.config := by
  unfold Operand.ofJson
  split
  . apply Operand.OfJson.list
  . apply Operand.OfJson.value

theorem halfOpenRange_form {op : Operator} {value : Json} {pair : OperatorOperand}
    (h : halfOpenRange op value = .ok (some pair)) : ∃ v, pair.2 = .value v := by
  unfold halfOpenRange at h
  split at h
  . dsimp only at h
    split at h
    . split at h
      . split at h
        . cases h
        . split at h
          . cases h
            exact ⟨_, rfl⟩
          . cases h
      . split at h
        . cases h
          exact ⟨_, rfl⟩
        . cases h
    . cases h
  . cases h

variable (c) in
def rawOperandOfJson (op : Operator) (value : Json) : Except CompileError OperatorOperand :=
  if !c.config.allowRawExpressions then .error (.expression op.token .rawDisabled)
  else
    match value with
    | .string sql => .ok (op.token, .raw ⟨sql, []⟩)
    | other => .error (.expression op.token (.expectedSql other))

def rangeOfJson (op : Operator) (value : Json) : Except CompileError OperatorOperand := do
  match ← halfOpenRange op value with
  | some pair => .ok pair
  | none => .ok (op.token, .ofJson value)

theorem rawOperandOfJson_form {op : Operator} {value : Json} {pair : OperatorOperand}
    (h : c.rawOperandOfJson op value = .ok pair) : pair.2.OfJson c.config := by
  unfold rawOperandOfJson at h
  split at h
  . cases h
  . next hraw =>
    split at h
    . cases h
      exact .raw _ (by simpa using hraw)
    . cases h

theorem rangeOfJson_form {op : Operator} {value : Json} {pair : OperatorOperand}
    (h : rangeOfJson op value = .ok pair) : pair.2.OfJson c.config := by
  obtain ⟨range, hr, h⟩ := bind_eq_ok.1 h
  cases range with
  | none =>
    cases h
    apply ofJson_form
  | some pair =>
    cases h
    obtain ⟨v, hv⟩ := halfOpenRange_form hr
    rw [hv]
    apply Operand.OfJson.value

theorem operandOfJson_form {op : Operator} {value : Json} {pair : OperatorOperand}
    (h : c.operandOfJson op value = .ok pair) : pair.2.OfJson c.config := by
  unfold operandOfJson at h
  split at h
  . exact rawOperandOfJson_form h
  . exact rawOperandOfJson_form h
  . cases h
    apply Operand.OfJson.none
  . split at h
    . cases h
      apply Operand.OfJson.column
    . cases h
      apply Operand.OfJson.column
    . cases h
    . cases h
  . exact rangeOfJson_form h
  . exact rangeOfJson_form h
  . cases h
    apply ofJson_form

theorem pairOfJson_form {token : String} {rest : List Json} {pair : OperatorOperand}
    (h : c.pairOfJson token rest = .ok pair) : pair.2.OfJson c.config := by
  obtain ⟨op, _, h⟩ := bind_eq_ok.1 h
  exact operandOfJson_form h

theorem itemOfJson_form {value : Json} {pair : OperatorOperand}
    (h : c.itemOfJson value = .ok pair) : pair.2.OfJson c.config := by
  unfold itemOfJson at h
  split at h
  . exact pairOfJson_form h
  . cases h
  . cases h
  . cases h
    apply Operand.OfJson.value

variable (c) in
def pairsOfJson (field : String) (items : List Json) (connective : Connective) :
    Except CompileError OperatorOperand :=
  if items.isEmpty then .error (.expression Operator.equal.token (.noConditions field))
  else do
    let pairs ← items.mapM c.itemOfJson
    .ok (Operator.equal.token, .conditions pairs connective)

theorem pairsOfJson_form {field : String} {items : List Json} {connective : Connective}
    {pair : OperatorOperand} (h : c.pairsOfJson field items connective = .ok pair) :
    ∃ pairs, pair.2 = .conditions pairs connective ∧ pairs ≠ [] ∧
      ∀ pair ∈ pairs, pair.2.OfJson c.config := by
  unfold pairsOfJson at h
  split at h
  . cases h
  . next hne =>
    obtain ⟨pairs, hp, h⟩ := bind_eq_ok.1 h
    cases h
    refine ⟨pairs, rfl, ?_, ?_⟩
    . rintro rfl
      have := length_mapM hp
      simp only [List.isEmpty_iff] at hne
      exact hne (List.length_eq_zero_iff.1 this.symm)
    . intro pair hm
      obtain ⟨value, _, hv⟩ := exists_of_mem_mapM hp pair hm
      exact itemOfJson_form hv

theorem itemsOfJson_form {field : String} {items : List Json} {pair : OperatorOperand}
    (h : c.itemsOfJson field items = .ok pair) :
    ∃ pairs connective, pair.2 = .conditions pairs connective ∧ pairs ≠ [] ∧
      ∀ pair ∈ pairs, pair.2.OfJson c.config := by
  unfold itemsOfJson at h
  dsimp only at h
  split at h
  . obtain ⟨connective, _, h⟩ := bind_eq_ok.1 h
    obtain ⟨_, hi, h⟩ := bind_eq_ok.1 h
    cases hi
    obtain ⟨pairs, h⟩ := pairsOfJson_form h
    exact ⟨pairs, connective, h⟩
  . obtain ⟨_, hi, h⟩ := bind_eq_ok.1 h
    cases hi
    obtain ⟨pairs, h⟩ := pairsOfJson_form h
    exact ⟨pairs, .and, h⟩

theorem conditionOfJson_form {field : String} {value : Json} {condition : Condition}
    (h : c.conditionOfJson field value = .ok condition) : condition.OfJson c.config field := by
  unfold conditionOfJson at h
  dsimp only at h
  split at h
  . obtain ⟨_, ho, _⟩ := bind_eq_ok.1 h
    cases ho
  . obtain ⟨pair, ho, h⟩ := bind_eq_ok.1 h
    cases h
    exact .single (pairOfJson_form ho)
  . obtain ⟨⟨token, operand⟩, ho, h⟩ := bind_eq_ok.1 h
    obtain ⟨pairs, connective, he, hne, hpairs⟩ := itemsOfJson_form ho
    cases he
    cases h
    exact .several hne hpairs
  . obtain ⟨_, ho, _⟩ := bind_eq_ok.1 h
    cases ho
  . obtain ⟨_, ho, h⟩ := bind_eq_ok.1 h
    cases ho
    cases h
    exact .single (.value _)

end Compiler

end SqlFilter
