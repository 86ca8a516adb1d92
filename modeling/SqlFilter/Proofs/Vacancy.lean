import SqlFilter.Proofs.KeyFragment
import SqlFilter.Proofs.SoftDelete

/-!
This module contains vacant filters: groups without any condition, however deep. A filter that is
vacant has no text, and every other one has.
-/

namespace SqlFilter

open Binder

mutual

def Clause.isVacant : Clause → Bool
  | .test _ _ _ => false
  | .group clauses => Clause.areVacant clauses
  | .raw _ => false
  | .literal _ => false
  | .failure _ => false

def Clause.areVacant : List (Connective × Clause) → Bool
  | [] => true
  | (_, clause) :: clauses => clause.isVacant && Clause.areVacant clauses

end

mutual

/-- Whether an entry is a group, built or not, in which there are only such groups. -/
def Entry.isVacant : Entry → Bool
  | .condition _ => false
  | .group entries => Group.isVacant entries
  | .deferred entries => Group.isVacant entries
  | .raw _ => false
  | .literal _ => false

def Group.isVacant : List (Connective × Entry) → Bool
  | [] => true
  | (_, entry) :: entries => entry.isVacant && Group.isVacant entries

end

namespace FieldTree

mutual

def isVacant : FieldTree → Bool
  | .single _ => false
  | .joined _ parts => areVacant parts

def areVacant : List FieldTree → Bool
  | [] => true
  | part :: parts => part.isVacant && areVacant parts

end

theorem exists_head?_splitAt {sep : Char} {name : String}
    (h : FieldRef.occursInside sep name.toList = true) :
    ∃ piece ∈ present (Text.splitAt sep name), piece.toList.head? = name.toList.head? := by
  simp only [FieldRef.occursInside, Bool.and_eq_true, bne_iff_ne, List.contains_iff_mem] at h
  unfold present Text.splitAt
  cases hcs : name.toList with
  | nil => simp [hcs] at h
  | cons c cs =>
    have hc : c ≠ sep := by
      rintro rfl
      exact h.2 (by rw [hcs]; rfl)
    obtain ⟨first, rest, he⟩ := List.exists_cons_of_ne_nil (List.splitOn_ne_nil sep cs)
    refine ⟨String.ofList (c :: first), ?_, by simp⟩
    rw [List.splitOn_cons_eq_if_modifyHead, if_neg (by simpa using hc), he]
    simp

theorem present_ne_nil {sep : Char} {name : String}
    (h : FieldRef.occursInside sep name.toList = true) : present (Text.splitAt sep name) ≠ [] := by
  obtain ⟨piece, hp, _⟩ := exists_head?_splitAt h
  exact List.ne_nil_of_mem hp

theorem present_ne_nil_of_multiple? {field : FieldRef} {connective : Connective}
    {names : List String} (h : field.multiple? = some (connective, names)) :
    present names ≠ [] := by
  unfold FieldRef.multiple? at h
  split at h
  . split at h
    . next hs =>
      cases h
      exact present_ne_nil hs
    . split at h
      . next hs =>
        cases h
        exact present_ne_nil hs
      . cases h
  . cases h

theorem areVacant_map {f : String → FieldTree} (hf : ∀ name, (f name).isVacant = false)
    {names : List String} (h : names ≠ []) : areVacant (names.map f) = false := by
  obtain ⟨name, names, rfl⟩ := List.exists_cons_of_ne_nil h
  simp [areVacant, hf]

theorem isVacant_ofPart (name : String) : (ofPart name).isVacant = false := by
  unfold ofPart
  split
  . next hm =>
    rw [isVacant]
    exact areVacant_map (fun _ => rfl) (present_ne_nil_of_multiple? hm)
  . rfl

theorem isVacant_ofField (field : FieldRef) : (ofField field).isVacant = false := by
  unfold ofField
  split
  . next hm =>
    rw [isVacant]
    exact areVacant_map isVacant_ofPart (present_ne_nil_of_multiple? hm)
  . rfl

mutual

theorem isVacant_spread {clause : FieldRef → Clause}
    (hc : ∀ field, (clause field).isVacant = false) :
    (tree : FieldTree) → (spread clause tree).isVacant = tree.isVacant
  | .single field => hc field
  | .joined connective parts => areVacant_spreadParts hc connective parts

theorem areVacant_spreadParts {clause : FieldRef → Clause}
    (hc : ∀ field, (clause field).isVacant = false) (connective : Connective) :
    (parts : List FieldTree) →
      Clause.areVacant (spreadParts clause connective parts) = areVacant parts
  | [] => rfl
  | part :: parts => by
    simp only [spreadParts, Clause.areVacant, areVacant]
    rw [isVacant_spread hc part, areVacant_spreadParts hc connective parts]

end

end FieldTree

mutual

theorem Operand.isVacant_clause (c : Comparison) :
    (operand : Operand) → {tree : FieldTree} → tree.isVacant = false →
      (operand.clause c tree).isVacant = false
  | .none, tree, h => by
    rw [Operand.clause, FieldTree.isVacant_spread (fun _ => rfl), h]
  | .value v, tree, h => by
    rw [Operand.clause, FieldTree.isVacant_spread (fun _ => rfl), h]
  | .list vs, tree, h => by
    rw [Operand.clause, FieldTree.isVacant_spread (fun _ => rfl), h]
  | .raw fragment, tree, h => by
    rw [Operand.clause, FieldTree.isVacant_spread (fun _ => rfl), h]
  | .subQuery query, tree, h => by
    rw [Operand.clause, FieldTree.isVacant_spread (fun _ => rfl), h]
  | .column _ _, tree, h => by
    rw [Operand.clause, FieldTree.isVacant_spread (fun _ => rfl), h]
  | .perField operands, .single field, _ => by
    simp only [Operand.clause, Clause.isVacant]
  | .perField operands, .joined connective parts, h => by
    simp only [Operand.clause]
    split
    . next hlength => exact Operand.areVacant_clauses c connective operands hlength h
    . rfl
  | .conditions items connective, tree, h => by
    rw [Operand.clause, FieldTree.isVacant_spread, h]
    intro field
    split
    . rfl
    . next hne => exact Operand.areVacant_itemClauses c connective field items (by simpa using hne)

theorem Operand.areVacant_clauses (c : Comparison) (connective : Connective) :
    (operands : List Operand) → {parts : List FieldTree} → operands.length = parts.length →
      FieldTree.areVacant parts = false →
        Clause.areVacant (Operand.clauses operands c connective parts) = false
  | [], [], _, h => by cases h
  | operand :: operands, part :: parts, hlength, h => by
    simp only [Operand.clauses, Clause.areVacant]
    simp only [FieldTree.areVacant, Bool.and_eq_false_iff] at h ⊢
    cases h with
    | inl h => exact .inl (operand.isVacant_clause c h)
    | inr h =>
      exact .inr (Operand.areVacant_clauses c connective operands (Nat.succ.inj hlength) h)

theorem Operand.areVacant_itemClauses (c : Comparison) (connective : Connective)
    (field : FieldRef) : (items : List (String × Operand)) → items ≠ [] →
      Clause.areVacant (Operand.itemClauses items c connective field) = false
  | [], h => absurd rfl h
  | (operator, operand) :: items, _ => by
    simp only [Operand.itemClauses, Clause.areVacant]
    rw [operand.isVacant_clause _ rfl, Bool.false_and]

end

theorem Condition.isVacant_clause (condition : Condition) :
    condition.clause.isVacant = false := by
  obtain ⟨field, operator, operand, bindType, listConnective⟩ := condition
  rw [Condition.clause]
  exact operand.isVacant_clause _ (FieldTree.isVacant_ofField field)

mutual

theorem Entry.isVacant_clause : (entry : Entry) → entry.clause.isVacant = entry.isVacant
  | .condition condition => condition.isVacant_clause
  | .group entries => Group.areVacant_clauses entries
  | .deferred entries => Group.areVacant_clauses entries
  | .raw _ => rfl
  | .literal _ => rfl

theorem Group.areVacant_clauses :
    (entries : List (Connective × Entry)) →
      Clause.areVacant (Group.clauses entries) = Group.isVacant entries
  | [] => rfl
  | (_, entry) :: entries => by
    simp only [Group.clauses, Clause.areVacant, Group.isVacant]
    rw [entry.isVacant_clause, Group.areVacant_clauses entries]

end

namespace Compiler

variable {c : Compiler}

mutual

theorem clauseText_of_isVacant :
    (clause : Clause) → clause.isVacant = true → c.clauseText clause = pure ""
  | .test _ _ _, h => by simp [Clause.isVacant] at h
  | .raw _, h => by simp [Clause.isVacant] at h
  | .literal _, h => by simp [Clause.isVacant] at h
  | .failure _, h => by simp [Clause.isVacant] at h
  | .group clauses, h => by
    rw [Clause.isVacant] at h
    rw [clauseText, parts_of_areVacant clauses h, pure_bind, joinParts_eq_empty_iff.2 (by simp)]
    simp [parenthesized]

theorem parts_of_areVacant :
    (clauses : List (Connective × Clause)) → Clause.areVacant clauses = true →
      c.parts clauses = pure (clauses.map fun part => (part.1, ""))
  | [], _ => by
    rw [parts]
    rfl
  | (connective, clause) :: clauses, h => by
    simp only [Clause.areVacant, Bool.and_eq_true] at h
    rw [parts, clauseText_of_isVacant clause h.1, parts_of_areVacant clauses h.2]
    rfl

end

mutual

theorem clauseText_ne_empty :
    (clause : Clause) → clause.isVacant = false →
      Ensures (fun _ => True) (· ≠ "") (c.clauseText clause)
  | .test field comparison argument, _ => by
    rw [clauseText]
    exact testText_ensures (fun _ _ => trivial) field comparison (c.nested_ensured argument)
  | .group clauses, h => by
    rw [clauseText]
    apply (joinParts_parts_ne_empty clauses h).bind
    intro parts hparts
    exact .pure (mt parenthesized_eq_empty_iff.1 hparts)
  | .raw fragment, _ => by
    rw [clauseText]
    apply (Ensures.raw (fun _ => trivial) fragment).map
    simp
  | .literal truth, _ => by
    rw [clauseText]
    split
    . apply Ensures.pure
      decide
    . exact .throw trivial
  | .failure error, _ => by
    rw [clauseText]
    exact .throw trivial

theorem joinParts_parts_ne_empty :
    (clauses : List (Connective × Clause)) → Clause.areVacant clauses = false →
      Ensures (fun _ => True) (fun parts => SqlFilter.joinParts parts ≠ "") (c.parts clauses)
  | (connective, clause) :: clauses, h => by
    simp only [Clause.areVacant, Bool.and_eq_false_iff] at h
    rw [parts]
    by_cases hclause : clause.isVacant = true
    . have hclauses := h.resolve_left (by simp [hclause])
      rw [clauseText_of_isVacant clause hclause, pure_bind]
      apply (joinParts_parts_ne_empty clauses hclauses).bind
      intro others hothers
      apply Ensures.pure
      simpa [joinParts_eq_empty_iff] using hothers
    . apply (clauseText_ne_empty clause (by simpa using hclause)).bind
      intro sql hsql
      apply (parts_ensures c clauses).map
      intro others he
      exact hsql (joinParts_eq_empty_iff.1 he _ List.mem_cons_self)

end

theorem compileGroup_sql_eq_empty_iff {group : Group} {compiled : Compiled}
    (h : c.compileGroup group = .ok compiled) :
    compiled.sql = "" ↔ c.softDelete = none ∧ Group.isVacant group = true := by
  obtain ⟨filter, table, sql, after, hf, hsoft, rfl⟩ := compileGroup_eq_ok h
  unfold withSoftDelete at hsoft
  cases hs : c.softDelete with
  | none =>
    simp only [hs] at hsoft
    cases hsoft
    simp only [true_and]
    rw [← Group.areVacant_clauses]
    obtain ⟨⟨parts, _⟩, hp, hf⟩ := bind_eq_ok.1 hf
    cases hf
    constructor
    . intro he
      by_contra hv
      have := joinParts_parts_ne_empty (c := c) _ (by simpa using hv)
      exact this.result hp he
    . intro hv
      rw [parts_of_areVacant _ hv] at hp
      cases hp
      simp [joinParts_eq_empty_iff]
  | some condition =>
    simp only [hs] at hsoft
    rw [run_bind] at hsoft
    obtain ⟨⟨soft, _⟩, hr, hsoft⟩ := bind_eq_ok.1 hsoft
    cases hsoft
    have hne := (clauseText_ne_empty condition.clause condition.isVacant_clause).result hr
    split <;> simp [hne]

end Compiler

end SqlFilter
