import SqlFilter.Clause
import SqlFilter.Compiler

/-!
This module contains rules on the leaves of filters: on raw texts, wherever they stand, and on the
values and lists that an operator is given. A rule that a filter obeys is obeyed by the simple
conditions that it is taken apart into.
-/

namespace SqlFilter

structure LeafRule where
  raw : RawFragment → Bool := fun _ => true
  value : String → Value → Bool := fun _ _ => true
  list : String → List Value → Bool := fun _ _ => true

def Value.beginsWithColon : Value → Bool
  | .text s => s.toList.head? == some ':'
  | _ => false

theorem BindTable.reference?_eq_none {table : BindTable} {v : Value}
    (h : v.beginsWithColon = false) : table.reference? v = none := by
  unfold reference?
  split
  . split
    . next hs => simp [Value.beginsWithColon, hs] at h
    . rfl
  . rfl

def Compiler.standard (schema : Schema) : Compiler where
  config := {}
  operators := .standard
  schema := schema

def Compiler.family? (c : Compiler) (token : String) : Option OperatorFamily :=
  (c.operators.resolve? token).map Operator.family

def FieldRef.obeys (rule : LeafRule) : FieldRef → Bool
  | .raw fragment => rule.raw fragment
  | _ => true

mutual

def Entry.obeys (rule : LeafRule) : Entry → Bool
  | .condition c => c.obeys rule
  | .group entries => Group.obeys rule entries
  | .deferred entries => Group.obeys rule entries
  | .raw fragment => rule.raw fragment
  | .literal _ => true

def Condition.obeys (rule : LeafRule) : Condition → Bool
  | ⟨field, operator, operand, _, _⟩ => field.obeys rule && operand.obeys rule operator

def Operand.obeys (rule : LeafRule) (operator : String) : Operand → Bool
  | .value v => rule.value operator v
  | .list vs => rule.list operator vs
  | .raw fragment => rule.raw fragment
  | .subQuery query => Group.obeys rule query.filter
  | .perField operands => Operand.allObey rule operator operands
  | .conditions items _ => Operand.itemsObey rule items
  | .none => true
  | .column _ _ => true

def Operand.allObey (rule : LeafRule) (operator : String) : List Operand → Bool
  | [] => true
  | operand :: operands => operand.obeys rule operator && Operand.allObey rule operator operands

def Operand.itemsObey (rule : LeafRule) : List (String × Operand) → Bool
  | [] => true
  | (operator, operand) :: items => operand.obeys rule operator && Operand.itemsObey rule items

def Group.obeys (rule : LeafRule) : List (Connective × Entry) → Bool
  | [] => true
  | (_, entry) :: entries => entry.obeys rule && Group.obeys rule entries

end

theorem Operand.itemsObey_of_forall {rule : LeafRule} {items : List (String × Operand)}
    (h : ∀ item ∈ items, item.2.obeys rule item.1 = true) :
    Operand.itemsObey rule items = true := by
  induction items with
  | nil => rfl
  | cons item items ih =>
    simp only [List.mem_cons, forall_eq_or_imp] at h
    rw [Operand.itemsObey, h.1, ih h.2, Bool.and_self]

theorem Group.obeys_of_forall {rule : LeafRule} {group : Group}
    (h : ∀ part ∈ group, part.2.obeys rule = true) : Group.obeys rule group = true := by
  induction group with
  | nil => rfl
  | cons part group ih =>
    simp only [List.mem_cons, forall_eq_or_imp] at h
    rw [Group.obeys, h.1, ih h.2, Bool.and_self]

mutual

def Clause.obeys (rule : LeafRule) : Clause → Bool
  | .test field comparison argument =>
    field.obeys rule && Argument.obeys rule comparison.operator argument
  | .group clauses => Clause.allObey rule clauses
  | .raw fragment => rule.raw fragment
  | .literal _ => true
  | .failure _ => true

def Argument.obeys (rule : LeafRule) (operator : String) :
    Argument (SubQuery (List (Connective × Clause))) → Bool
  | .value v => rule.value operator v
  | .list vs => rule.list operator vs
  | .raw fragment => rule.raw fragment
  | .subQuery query => Clause.allObey rule query.filter
  | .none => true
  | .column _ _ => true
  | .perField _ => true

def Clause.allObey (rule : LeafRule) : List (Connective × Clause) → Bool
  | [] => true
  | (_, clause) :: clauses => clause.obeys rule && Clause.allObey rule clauses

end

namespace FieldTree

mutual

def obeys (rule : LeafRule) : FieldTree → Bool
  | .single field => field.obeys rule
  | .joined _ parts => allObey rule parts

def allObey (rule : LeafRule) : List FieldTree → Bool
  | [] => true
  | part :: parts => part.obeys rule && allObey rule parts

end

variable {rule : LeafRule}

theorem allObey_map (f : String → FieldTree) (h : ∀ name, (f name).obeys rule = true)
    (names : List String) : allObey rule (names.map f) = true := by
  induction names with
  | nil => rfl
  | cons name names ih => simp [allObey, h, ih]

theorem obeys_ofPart (name : String) : (ofPart name).obeys rule = true := by
  unfold ofPart
  split
  . simp only [obeys]
    apply allObey_map
    intro name
    rfl
  . rfl

theorem obeys_ofField {field : FieldRef} (h : field.obeys rule = true) :
    (ofField field).obeys rule = true := by
  unfold ofField
  split
  . simp only [obeys]
    apply allObey_map
    apply obeys_ofPart
  . exact h

mutual

theorem obeys_spread {clause : FieldRef → Clause}
    (hc : ∀ field, field.obeys rule = true → (clause field).obeys rule = true) :
    (tree : FieldTree) → tree.obeys rule = true → (spread clause tree).obeys rule = true
  | .single field, h => hc field h
  | .joined connective parts, h => by
    simp only [spread, Clause.obeys]
    exact allObey_spreadParts hc connective parts h

theorem allObey_spreadParts {clause : FieldRef → Clause}
    (hc : ∀ field, field.obeys rule = true → (clause field).obeys rule = true)
    (connective : Connective) :
    (parts : List FieldTree) → allObey rule parts = true →
      Clause.allObey rule (spreadParts clause connective parts) = true
  | [], _ => rfl
  | part :: parts, h => by
    simp only [allObey, Bool.and_eq_true] at h
    simp only [spreadParts, Clause.allObey, Bool.and_eq_true]
    exact ⟨obeys_spread hc part h.1, allObey_spreadParts hc connective parts h.2⟩

end

theorem obeys_spread_test {c : Comparison}
    {argument : Argument (SubQuery (List (Connective × Clause)))} {tree : FieldTree}
    (ha : Argument.obeys rule c.operator argument = true) (ht : tree.obeys rule = true) :
    (tree.spread fun field => .test field c argument).obeys rule = true := by
  apply obeys_spread _ tree ht
  intro field hf
  simp [Clause.obeys, hf, ha]

end FieldTree

mutual

-- taking a filter apart copies its leaves below the same operators, and adds none
theorem Entry.obeys_clause {rule : LeafRule} :
    (entry : Entry) → entry.obeys rule = true → entry.clause.obeys rule = true
  | .condition c, h => by
    simp only [Entry.obeys] at h
    exact c.obeys_clause h
  | .group entries, h => by
    simp only [Entry.clause, Clause.obeys]
    exact Group.obeys_clauses entries h
  | .deferred entries, h => by
    simp only [Entry.clause, Clause.obeys]
    exact Group.obeys_clauses entries h
  | .raw fragment, h => h
  | .literal _, _ => rfl

theorem Condition.obeys_clause {rule : LeafRule} :
    (c : Condition) → c.obeys rule = true → c.clause.obeys rule = true
  | ⟨field, operator, operand, bindType, listConnective⟩, h => by
    simp only [Condition.obeys, Bool.and_eq_true] at h
    simp only [Condition.clause]
    exact operand.obeys_clause ⟨operator, bindType, listConnective⟩ _ h.2
      (FieldTree.obeys_ofField h.1)

theorem Operand.obeys_clause {rule : LeafRule} :
    (operand : Operand) → (c : Comparison) → (tree : FieldTree) →
      operand.obeys rule c.operator = true → tree.obeys rule = true →
        (operand.clause c tree).obeys rule = true
  | .none, c, tree, _, ht => by
    simp only [Operand.clause]
    exact FieldTree.obeys_spread_test rfl ht
  | .value v, c, tree, h, ht => by
    simp only [Operand.clause]
    exact FieldTree.obeys_spread_test h ht
  | .list vs, c, tree, h, ht => by
    simp only [Operand.clause]
    exact FieldTree.obeys_spread_test h ht
  | .raw fragment, c, tree, h, ht => by
    simp only [Operand.clause]
    exact FieldTree.obeys_spread_test h ht
  | .subQuery ⟨table, filter, selection⟩, c, tree, h, ht => by
    simp only [Operand.clause]
    exact FieldTree.obeys_spread_test (Group.obeys_clauses filter h) ht
  | .column _ _, c, tree, _, ht => by
    simp only [Operand.clause]
    exact FieldTree.obeys_spread_test rfl ht
  | .perField operands, c, .single field, _, ht => by
    simp only [FieldTree.obeys] at ht
    simp [Operand.clause, Clause.obeys, Argument.obeys, ht]
  | .perField operands, c, .joined connective parts, h, ht => by
    simp only [Operand.clause]
    split
    . simp only [Clause.obeys]
      exact Operand.allObey_clauses operands c connective parts h ht
    . rfl
  | .conditions items connective, c, tree, h, ht => by
    simp only [Operand.clause]
    apply FieldTree.obeys_spread _ tree ht
    intro field hf
    split
    . rfl
    . simp only [Clause.obeys]
      exact Operand.allObey_itemClauses items c connective field h hf

theorem Operand.allObey_clauses {rule : LeafRule} :
    (operands : List Operand) → (c : Comparison) → (connective : Connective) →
      (parts : List FieldTree) → Operand.allObey rule c.operator operands = true →
        FieldTree.allObey rule parts = true →
          Clause.allObey rule (Operand.clauses operands c connective parts) = true
  | [], _, _, _, _, _ => by simp [Operand.clauses, Clause.allObey]
  | _ :: _, _, _, [], _, _ => by simp [Operand.clauses, Clause.allObey]
  | operand :: operands, c, connective, part :: parts, h, ht => by
    simp only [Operand.allObey, Bool.and_eq_true] at h
    simp only [FieldTree.allObey, Bool.and_eq_true] at ht
    simp only [Operand.clauses, Clause.allObey, Bool.and_eq_true]
    exact ⟨operand.obeys_clause c part h.1 ht.1,
      Operand.allObey_clauses operands c connective parts h.2 ht.2⟩

theorem Operand.allObey_itemClauses {rule : LeafRule} :
    (items : List (String × Operand)) → (c : Comparison) → (connective : Connective) →
      (field : FieldRef) → Operand.itemsObey rule items = true → field.obeys rule = true →
        Clause.allObey rule (Operand.itemClauses items c connective field) = true
  | [], _, _, _, _, _ => by simp [Operand.itemClauses, Clause.allObey]
  | (operator, operand) :: items, c, connective, field, h, hf => by
    simp only [Operand.itemsObey, Bool.and_eq_true] at h
    simp only [Operand.itemClauses, Clause.allObey, Bool.and_eq_true]
    exact ⟨operand.obeys_clause { c with operator := operator } (.single field) h.1 hf,
      Operand.allObey_itemClauses items c connective field h.2 hf⟩

theorem Group.obeys_clauses {rule : LeafRule} :
    (entries : List (Connective × Entry)) → Group.obeys rule entries = true →
      Clause.allObey rule (Group.clauses entries) = true
  | [], _ => by simp [Group.clauses, Clause.allObey]
  | (connective, entry) :: entries, h => by
    simp only [Group.obeys, Bool.and_eq_true] at h
    simp only [Group.clauses, Clause.allObey, Bool.and_eq_true]
    exact ⟨entry.obeys_clause h.1, Group.obeys_clauses entries h.2⟩

end

end SqlFilter
