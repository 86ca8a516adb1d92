import SqlFilter.Proofs.Vacancy

/-!
This module contains the proof that vacant entries can be taken out of a filter: `Group.pruned` does
so at every depth, in the filters of sub-queries too, and is compiled as the filter was.
-/

namespace SqlFilter

mutual

def Entry.pruned : Entry → Entry
  | .condition condition => .condition condition.pruned
  | .group entries => .group (Group.pruned entries)
  | .deferred entries => .deferred (Group.pruned entries)
  | .raw fragment => .raw fragment
  | .literal truth => .literal truth

def Condition.pruned : Condition → Condition
  | ⟨field, operator, operand, bindType, listConnective⟩ =>
    ⟨field, operator, operand.pruned, bindType, listConnective⟩

def Operand.pruned : Operand → Operand
  | .none => .none
  | .value v => .value v
  | .list vs => .list vs
  | .raw fragment => .raw fragment
  | .subQuery query => .subQuery ⟨query.table, Group.pruned query.filter, query.selection⟩
  | .column operator field => .column operator field
  | .perField operands => .perField (Operand.allPruned operands)
  | .conditions items connective => .conditions (Operand.itemsPruned items) connective

def Operand.allPruned : List Operand → List Operand
  | [] => []
  | operand :: operands => operand.pruned :: Operand.allPruned operands

def Operand.itemsPruned : List (String × Operand) → List (String × Operand)
  | [] => []
  | (operator, operand) :: items => (operator, operand.pruned) :: Operand.itemsPruned items

def Group.pruned : List (Connective × Entry) → List (Connective × Entry)
  | [] => []
  | (connective, entry) :: entries =>
    if entry.isVacant then Group.pruned entries
    else (connective, entry.pruned) :: Group.pruned entries

end

mutual

theorem Entry.isVacant_pruned : (entry : Entry) → entry.pruned.isVacant = entry.isVacant
  | .condition _ => rfl
  | .group entries => Group.isVacant_pruned entries
  | .deferred entries => Group.isVacant_pruned entries
  | .raw _ => rfl
  | .literal _ => rfl

theorem Group.isVacant_pruned : (entries : List (Connective × Entry)) →
    Group.isVacant (Group.pruned entries) = Group.isVacant entries
  | [] => rfl
  | (connective, entry) :: entries => by
    rw [Group.pruned, Group.isVacant]
    split
    . next hv => rw [hv, Group.isVacant_pruned entries, Bool.true_and]
    . rw [Group.isVacant, entry.isVacant_pruned, Group.isVacant_pruned entries]

end

theorem Group.isVacant_of_mem_pruned {group : Group} :
    ∀ part ∈ Group.pruned group, part.2.isVacant = false := by
  induction group with
  | nil => simp [Group.pruned]
  | cons part group ih =>
    obtain ⟨connective, entry⟩ := part
    rw [Group.pruned]
    split
    . exact ih
    . next hv =>
      simp only [List.mem_cons, forall_eq_or_imp, entry.isVacant_pruned]
      exact ⟨by simpa using hv, ih⟩

theorem Operand.length_allPruned (operands : List Operand) :
    (Operand.allPruned operands).length = operands.length := by
  induction operands with
  | nil => rfl
  | cons operand operands ih => simp [Operand.allPruned, ih]

theorem Operand.isEmpty_itemsPruned (items : List (String × Operand)) :
    (Operand.itemsPruned items).isEmpty = items.isEmpty := by
  cases items <;> rfl

def visible (parts : List (Connective × String)) : List (Connective × String) :=
  parts.filter fun part => !part.2.isEmpty

theorem joinParts_visible (parts : List (Connective × String)) :
    joinParts (visible parts) = joinParts parts := by
  simp [joinParts, visible, List.filter_filter]

theorem visible_cons (part : Connective × String) (parts : List (Connective × String)) :
    visible (part :: parts) = visible [part] ++ visible parts := by
  rw [visible, visible, visible, ← List.filter_append]
  rfl

namespace Compiler

variable {c : Compiler} {clauses clauses' : List (Connective × Clause)}

theorem joinParts_congr (h : visible <$> c.parts clauses = visible <$> c.parts clauses') :
    joinParts <$> c.parts clauses = joinParts <$> c.parts clauses' := by
  have hjoin : joinParts = joinParts ∘ visible := by
    funext parts
    exact (joinParts_visible parts).symm
  rw [hjoin, comp_map, comp_map, h]

theorem visible_parts_cons (connective : Connective) (clause : Clause) :
    visible <$> c.parts ((connective, clause) :: clauses) = (do
      let sql ← c.clauseText clause
      let others ← visible <$> c.parts clauses
      return visible [(connective, sql)] ++ others) := by
  rw [parts]
  simp only [map_bind, map_pure, bind_map_left]
  apply bind_congr
  intro sql
  apply bind_congr
  intro others
  rw [visible_cons]

theorem clauseText_group (clauses : List (Connective × Clause)) :
    c.clauseText (.group clauses) = parenthesized <$> joinParts <$> c.parts clauses := by
  rw [clauseText, Functor.map_map, map_eq_pure_bind]

mutual

theorem clauseText_spread {clause clause' : FieldRef → Clause}
    (h : ∀ field, c.clauseText (clause field) = c.clauseText (clause' field)) :
    (tree : FieldTree) → c.clauseText (tree.spread clause) = c.clauseText (tree.spread clause')
  | .single field => h field
  | .joined connective trees => by
    rw [FieldTree.spread, FieldTree.spread, clauseText, clauseText]
    rw [parts_spreadParts h connective trees]

theorem parts_spreadParts {clause clause' : FieldRef → Clause}
    (h : ∀ field, c.clauseText (clause field) = c.clauseText (clause' field))
    (connective : Connective) : (trees : List FieldTree) →
      c.parts (FieldTree.spreadParts clause connective trees) =
        c.parts (FieldTree.spreadParts clause' connective trees)
  | [] => rfl
  | tree :: trees => by
    rw [FieldTree.spreadParts, FieldTree.spreadParts, parts, parts]
    rw [clauseText_spread h tree, parts_spreadParts h connective trees]

end

mutual

theorem clauseText_entry_pruned :
    (entry : Entry) → c.clauseText entry.pruned.clause = c.clauseText entry.clause
  | .condition condition => by
    rw [Entry.pruned, Entry.clause, Entry.clause]
    exact clauseText_condition_pruned condition
  | .group entries => by
    rw [Entry.pruned, Entry.clause, Entry.clause, clauseText_group, clauseText_group]
    rw [joinParts_congr (visible_parts_pruned entries)]
  | .deferred entries => by
    rw [Entry.pruned, Entry.clause, Entry.clause, clauseText_group, clauseText_group]
    rw [joinParts_congr (visible_parts_pruned entries)]
  | .raw _ => by rw [Entry.pruned]
  | .literal _ => by rw [Entry.pruned]

theorem clauseText_condition_pruned :
    (condition : Condition) → c.clauseText condition.pruned.clause = c.clauseText condition.clause
  | ⟨field, operator, operand, bindType, listConnective⟩ => by
    rw [Condition.pruned, Condition.clause, Condition.clause]
    exact clauseText_operand_pruned operand _ _

theorem clauseText_operand_pruned :
    (operand : Operand) → (comparison : Comparison) → (tree : FieldTree) →
      c.clauseText (operand.pruned.clause comparison tree) =
        c.clauseText (operand.clause comparison tree)
  | .none, _, _ => by rw [Operand.pruned]
  | .value _, _, _ => by rw [Operand.pruned]
  | .list _, _, _ => by rw [Operand.pruned]
  | .raw _, _, _ => by rw [Operand.pruned]
  | .subQuery ⟨table, filter, selection⟩, comparison, tree => by
    rw [Operand.pruned, Operand.clause, Operand.clause]
    apply clauseText_spread
    intro field
    rw [clauseText, clauseText, nested, nested]
    rw [joinParts_congr (visible_parts_pruned filter)]
  | .column _ _, _, _ => by rw [Operand.pruned]
  | .perField operands, comparison, .single field => by
    rw [Operand.pruned, Operand.clause, Operand.clause, Operand.length_allPruned]
  | .perField operands, comparison, .joined connective trees => by
    rw [Operand.pruned, Operand.clause, Operand.clause, Operand.length_allPruned]
    split
    . rw [clauseText, clauseText, parts_allPruned operands comparison connective trees]
    . rfl
  | .conditions items connective, comparison, tree => by
    rw [Operand.pruned, Operand.clause, Operand.clause]
    apply clauseText_spread
    intro field
    rw [Operand.isEmpty_itemsPruned]
    split
    . rfl
    . rw [clauseText, clauseText, parts_itemsPruned items comparison connective field]

theorem parts_allPruned :
    (operands : List Operand) → (comparison : Comparison) → (connective : Connective) →
      (trees : List FieldTree) →
        c.parts (Operand.clauses (Operand.allPruned operands) comparison connective trees) =
          c.parts (Operand.clauses operands comparison connective trees)
  | [], _, _, _ => by rw [Operand.allPruned]
  | _ :: _, _, _, [] => rfl
  | operand :: operands, comparison, connective, tree :: trees => by
    rw [Operand.allPruned, Operand.clauses, Operand.clauses, parts, parts]
    rw [clauseText_operand_pruned operand comparison tree]
    rw [parts_allPruned operands comparison connective trees]

theorem parts_itemsPruned :
    (items : List (String × Operand)) → (comparison : Comparison) → (connective : Connective) →
      (field : FieldRef) →
        c.parts (Operand.itemClauses (Operand.itemsPruned items) comparison connective field) =
          c.parts (Operand.itemClauses items comparison connective field)
  | [], _, _, _ => by rw [Operand.itemsPruned]
  | (operator, operand) :: items, comparison, connective, field => by
    rw [Operand.itemsPruned, Operand.itemClauses, Operand.itemClauses, parts, parts]
    rw [clauseText_operand_pruned operand, parts_itemsPruned items comparison connective field]

-- an entry that is taken out has an empty text, which is not joined, and binds nothing
theorem visible_parts_pruned :
    (entries : List (Connective × Entry)) →
      visible <$> c.parts (Group.clauses (Group.pruned entries)) =
        visible <$> c.parts (Group.clauses entries)
  | [] => by rw [Group.pruned]
  | (connective, entry) :: entries => by
    have ih := visible_parts_pruned entries
    rw [Group.pruned, Group.clauses, visible_parts_cons]
    split
    . next hv =>
      have hclause : entry.clause.isVacant = true := by rw [entry.isVacant_clause, hv]
      rw [clauseText_of_isVacant entry.clause hclause, pure_bind, ih]
      simp [visible]
    . rw [Group.clauses, visible_parts_cons, clauseText_entry_pruned entry, ih]

end

theorem compileGroup_pruned (c : Compiler) (group : Group) :
    c.compileGroup (Group.pruned group) = c.compileGroup group := by
  unfold compileGroup groupText
  rw [joinParts_congr (visible_parts_pruned group)]

end Compiler

end SqlFilter
