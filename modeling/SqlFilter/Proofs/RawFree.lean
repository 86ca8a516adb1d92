import SqlFilter.Proofs.DecodedConditions
import SqlFilter.Proofs.JsonForm

/-!
This module contains filters without raw texts. A filter that is written as JSON has none, unless
the configuration lets it: `groupOf_rawFree`.
-/

namespace SqlFilter

def LeafRule.noRaw : LeafRule where
  raw _ := false

def Group.rawFree (group : Group) : Bool :=
  Group.obeys .noRaw group

def Condition.rawFree (condition : Condition) : Bool :=
  condition.obeys .noRaw

def Operand.rawFree (operand : Operand) : Bool :=
  operand.obeys .noRaw ""

def Clause.rawFree (clause : Clause) : Bool :=
  clause.obeys .noRaw

/-- Whether a filter has no raw text: a group by itself, and JSON because it is not let. -/
def WhereInput.rawFree (config : CompilerConfig) : WhereInput → Bool
  | .group g => g.rawFree
  | .bracket _ _ => !config.allowRawExpressions
  | .map _ => !config.allowRawExpressions

mutual

-- the tokens of operators do not matter, since values and lists may be anything
theorem Operand.obeys_noRaw (operator operator' : String) :
    (operand : Operand) → operand.obeys .noRaw operator = operand.obeys .noRaw operator'
  | .none => rfl
  | .value _ => rfl
  | .list _ => rfl
  | .raw _ => rfl
  | .subQuery _ => rfl
  | .column _ _ => rfl
  | .perField operands => Operand.allObey_noRaw operator operator' operands
  | .conditions _ _ => rfl

theorem Operand.allObey_noRaw (operator operator' : String) :
    (operands : List Operand) →
      Operand.allObey .noRaw operator operands = Operand.allObey .noRaw operator' operands
  | [] => rfl
  | operand :: operands => by
    simp only [Operand.allObey]
    rw [Operand.obeys_noRaw operator operator' operand]
    rw [Operand.allObey_noRaw operator operator' operands]

end

theorem Operand.itemsObey_noRaw {items : List OperatorOperand}
    (h : ∀ item ∈ items, item.2.rawFree = true) : Operand.itemsObey .noRaw items = true := by
  apply Operand.itemsObey_of_forall
  intro item hm
  rw [Operand.obeys_noRaw item.1 ""]
  exact h item hm

theorem Condition.rawFree_of {field operator : String} {operand : Operand}
    (h : operand.rawFree = true) :
    (Condition.of (.ofName field) operator operand).rawFree = true := by
  simp only [Condition.rawFree, Condition.of, Condition.obeys, Bool.and_eq_true]
  constructor
  . unfold FieldRef.ofName
    split <;> rfl
  . rw [Operand.obeys_noRaw operator ""]
    exact h

namespace Compiler

variable {c : Compiler}

theorem rawFree_of_form (hraw : c.config.allowRawExpressions = false) {operand : Operand}
    (h : operand.OfJson c.config) : operand.rawFree = true := by
  cases h with
  | raw fragment ha =>
    rw [hraw] at ha
    cases ha
  | _ => rfl

theorem conditionOfJson_rawFree (hraw : c.config.allowRawExpressions = false)
    {field : String} {value : Json} {condition : Condition}
    (h : c.conditionOfJson field value = .ok condition) : condition.rawFree = true := by
  cases conditionOfJson_form h with
  | single ho => exact Condition.rawFree_of (rawFree_of_form hraw ho)
  | several _ hpairs =>
    apply Condition.rawFree_of
    apply Operand.itemsObey_noRaw
    intro pair hp
    exact rawFree_of_form hraw (hpairs pair hp)

theorem groupOf_rawFree {input : WhereInput} {group : Group}
    (hi : input.rawFree c.config = true) (h : c.groupOf input = .ok group) :
    group.rawFree = true := by
  cases input with
  | group g =>
    cases h
    exact hi
  | bracket _ _ | map _ =>
    have hraw : c.config.allowRawExpressions = false := by simpa [WhereInput.rawFree] using hi
    apply Group.MadeOf.obeys
    apply groupOf_madeOf _ _ h
    . rintro g ⟨⟩
    . intro name value _ condition hc
      exact conditionOfJson_rawFree hraw hc

end Compiler

end SqlFilter
