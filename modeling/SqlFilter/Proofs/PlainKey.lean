import SqlFilter.Proofs.FilterForms

/-!
This module contains keys of maps that are plain names. The entry of such a key is a group of one
condition on its field, which is compiled as the condition alone in parentheses.
-/

namespace SqlFilter

structure WhereMap.IsPlain (key : String) : Prop where
  check : Identifier.check key = .ok ()
  isReserved : isReserved key = false

theorem Identifier.checkKey_of_check {name : String} (h : check name = .ok ()) :
    checkKey name = .ok () := by
  obtain ⟨_, hvalid, _⟩ := bind_eq_ok.1 h
  obtain ⟨hne, hlength, _⟩ := checkCharacters_eq_ok_iff.1 hvalid
  exact checkCharacters_eq_ok_iff.2 ⟨hne, hlength, List.all_eq_true.2 (isKeyCharacter_of_check h)⟩

theorem Operand.ofJson_ne_conditions (operand : Json) (items : List OperatorOperand)
    (connective : Connective) : Operand.ofJson operand ≠ .conditions items connective := by
  cases operand <;> rintro ⟨⟩

theorem Condition.isSimple_of_check {name : String} (h : Identifier.check name = .ok ())
    (token : String) {operand : Operand}
    (ho : ∀ items connective, operand ≠ .conditions items connective) :
    (Condition.of (.ofName name) token operand).isSimple = true := by
  simp only [Condition.of, Condition.isSimple, FieldRef.ofName_of_check h,
    FieldRef.multiple?_of_check h]

namespace Compiler

variable {c : Compiler} {key : String} {value : Json} {condition : Condition}

theorem compileCondition_ne_empty (compiled : Compiled)
    (h : c.compileCondition condition = .ok compiled) : compiled.sql ≠ "" := by
  intro he
  cases ((compileGroup_sql_eq_empty_iff h).1 he).2

theorem entryOfMember_plain (hk : Identifier.check key = .ok ())
    (hc : c.conditionOfJson key value = .ok condition) (hs : condition.isSimple = true) :
    c.entryOfMember key value = .ok (.group [(.and, .condition condition)]) := by
  have hcontains : key.toList.contains '(' = false := by
    have : '(' ∉ key.toList := by
      intro hm
      have := Identifier.isSpecial_of_check hk '(' hm
      cases this
    simpa using this
  unfold entryOfMember entryOfKey
  rw [hcontains, Identifier.checkKey_of_check hk, FieldRef.ofName_of_check hk,
    FieldRef.multiple?_of_check hk, hc]
  change Except.ok (if condition.isSimple then _ else _) = _
  rw [if_pos hs]

theorem compile_plain (hs : c.softDelete = none) (hk : WhereMap.IsPlain key)
    (hc : c.conditionOfJson key value = .ok condition) (hsimple : condition.isSimple = true) :
    c.compile (.map [(key, value)]) =
      (c.compileCondition condition).map Compiled.inParentheses := by
  rw [compile_member hk.isReserved, entryOfMember_plain hk.check hc hsimple]
  change c.compileGroup [(.and, .group [(.and, .condition condition)])] = _
  rw [compileGroup_group hs]
  exact parenthesized_eq_inParentheses compileCondition_ne_empty

end Compiler

end SqlFilter
