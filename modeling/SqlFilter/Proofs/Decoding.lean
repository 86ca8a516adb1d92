import SqlFilter.Compiler.Input

/-!
This module contains what decoding a filter reads of a compiler: the operators that tokens have, how
deep bracket keys may nest, and whether JSON may hold raw texts. Compilers that agree in these decode
every filter to the same group.
-/

namespace SqlFilter

namespace Compiler

structure DecodesAs (c c' : Compiler) : Prop where
  resolve? : ∀ token, c.operators.resolve? token = c'.operators.resolve? token
  maxBracketDepth : c.config.maxBracketDepth = c'.config.maxBracketDepth
  allowRawExpressions : c.config.allowRawExpressions = c'.config.allowRawExpressions

namespace DecodesAs

variable {c c' : Compiler} (h : c.DecodesAs c')

include h

theorem resolve_eq : c.operators.resolve = c'.operators.resolve := by
  funext token
  rw [OperatorTable.resolve, OperatorTable.resolve, h.resolve?]

theorem operandOfJson_eq : c.operandOfJson = c'.operandOfJson := by
  funext op operand
  unfold operandOfJson
  rw [h.allowRawExpressions]

theorem pairOfJson_eq : c.pairOfJson = c'.pairOfJson := by
  funext token rest
  rw [pairOfJson, pairOfJson, h.resolve_eq, h.operandOfJson_eq]

theorem itemOfJson_eq : c.itemOfJson = c'.itemOfJson := by
  funext item
  unfold itemOfJson
  rw [h.pairOfJson_eq]

theorem conditionOfJson_eq : c.conditionOfJson = c'.conditionOfJson := by
  funext field value
  unfold conditionOfJson itemsOfJson
  rw [h.pairOfJson_eq, h.itemOfJson_eq]

omit h

mutual

theorem entryOfNode_eq (h : c.DecodesAs c') :
    (node : BracketNode) → (values : List Json) → c.entryOfNode node values =
      c'.entryOfNode node values
  | .field _ _, _ :: _ => by rw [entryOfNode, entryOfNode, h.conditionOfJson_eq]
  | .field _ _, [] => by rw [entryOfNode, entryOfNode]
  | .group nodes _, values => by rw [entryOfNode, entryOfNode, h.groupOfNodes_eq .and nodes values]

theorem groupOfNodes_eq (h : c.DecodesAs c') (connective : Connective) :
    (nodes : List BracketNode) → (values : List Json) →
      c.groupOfNodes connective nodes values = c'.groupOfNodes connective nodes values
  | [], values => by rw [groupOfNodes, groupOfNodes]
  | node :: nodes, values => by
    rw [groupOfNodes, groupOfNodes, h.entryOfNode_eq node values]
    apply bind_congr
    rintro ⟨entry, left⟩
    dsimp only
    rw [h.groupOfNodes_eq _ nodes left]

end

include h

theorem groupOfBracket_eq : c.groupOfBracket = c'.groupOfBracket := by
  funext nodes values
  rw [groupOfBracket, groupOfBracket, h.groupOfNodes_eq]

theorem entryOfMember_eq : c.entryOfMember = c'.entryOfMember := by
  funext key value
  unfold entryOfMember entryOfBracketKey entryOfKey
  rw [h.maxBracketDepth, h.groupOfBracket_eq, h.conditionOfJson_eq]

theorem groupOf_eq (input : WhereInput) : c.groupOf input = c'.groupOf input := by
  cases input with
  | group group => rfl
  | bracket key values =>
    rw [groupOf, groupOf, groupOfBracketKey, groupOfBracketKey, h.maxBracketDepth,
      h.groupOfBracket_eq]
  | map entries => rw [groupOf, groupOf, groupOfMap, groupOfMap, h.entryOfMember_eq]

end DecodesAs

end Compiler

end SqlFilter
