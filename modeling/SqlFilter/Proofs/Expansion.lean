import SqlFilter.Proofs.FilterForms
import SqlFilter.Proofs.Vacancy

/-!
This module contains the expansion of conditions step by step: into conditions on the names that a
field joins, or on one field into conditions with one operator each. The parts are smaller, so that
expansion ends, and the clause of a condition is what is left when it has.
-/

namespace SqlFilter

def Operand.distributed (operator : String) (count : Nat) :
    Operand → Except CompileError (List Operand)
  | .perField operands =>
    if operands.length = count then .ok operands
    else .error (.expression operator (.perFieldCount operands.length count))
  | operand => .ok (List.replicate count operand)

def Operand.argument : Operand → Argument (SubQuery (List (Connective × Clause)))
  | .value v => .value v
  | .list vs => .list vs
  | .raw fragment => .raw fragment
  | .subQuery query => .subQuery ⟨query.table, Group.clauses query.filter, query.selection⟩
  | .column operator other => .column operator other
  | .perField operands => .perField operands.length
  | _ => .none

namespace Condition

def comparison (condition : Condition) : Comparison :=
  ⟨condition.operator, condition.bindType, condition.listConnective⟩

/-- One step of expansion, which does nothing with a condition that has one operator on one field. -/
def expanded (condition : Condition) : Except CompileError (Option Group) :=
  match condition.field.multiple?, condition.operand with
  | some (connective, names), operand => do
    let names := FieldTree.present names
    let operands ← operand.distributed condition.operator names.length
    .ok (some (Group.joined connective ((names.zip operands).map fun (name, operand) =>
      .condition { condition with field := .column name, operand := operand })))
  | none, .conditions items connective =>
    if items.isEmpty then .error (.expression condition.operator .emptyConditionList)
    else
      .ok (some (Group.joined connective (items.map fun (operator, operand) =>
        .condition { condition with operator := operator, operand := operand })))
  | none, _ => .ok none

def IsPart (part whole : Condition) : Prop :=
  ∃ group connective, whole.expanded = .ok (some group) ∧
    (connective, Entry.condition part) ∈ group

end Condition

section Termination

theorem Text.sublist_of_mem_splitOn {sep : Char} {cs piece : List Char}
    (h : piece ∈ cs.splitOn sep) : piece.Sublist cs := by
  induction cs generalizing piece with
  | nil =>
    rw [List.splitOn_nil, List.mem_singleton] at h
    rw [h]
  | cons c cs ih =>
    rw [List.splitOn_cons_eq_if_modifyHead] at h
    split at h
    . rcases List.mem_cons.1 h with rfl | h
      . exact List.nil_sublist _
      . exact (ih h).cons c
    . obtain ⟨first, rest, he⟩ := List.exists_cons_of_ne_nil (List.splitOn_ne_nil sep cs)
      rw [he, List.modifyHead_cons, List.mem_cons] at h
      rcases h with rfl | h
      . exact (ih (he ▸ List.mem_cons_self)).cons_cons c
      . exact (ih (he ▸ List.mem_cons_of_mem first h)).cons c

theorem Text.length_lt_of_mem_splitAt {sep : Char} {name piece : String}
    (hs : sep ∈ name.toList) (h : piece ∈ splitAt sep name) :
    piece.toList.length < name.toList.length := by
  obtain ⟨cs, hcs, rfl⟩ := List.mem_map.1 h
  rw [String.toList_ofList]
  have hsub := sublist_of_mem_splitOn hcs
  apply Nat.lt_of_le_of_ne hsub.length_le
  intro he
  exact (mem_of_mem_splitOn hcs (hsub.eq_of_length he ▸ hs)).2 rfl

namespace FieldRef

def length : FieldRef → Nat
  | .column name => name.toList.length
  | _ => 0

theorem mem_of_occursInside {c : Char} {cs : List Char} (h : occursInside c cs = true) :
    c ∈ cs := by
  simp only [occursInside, Bool.and_eq_true, List.contains_iff_mem] at h
  exact h.1

theorem multiple?_eq_some {field : FieldRef} {connective : Connective} {names : List String}
    (h : field.multiple? = some (connective, names)) :
    ∃ name sep, field = .column name ∧ occursInside sep name.toList = true ∧
      names = Text.splitAt sep name ∧
        (connective = .or ∧ sep = '|' ∨
          connective = .and ∧ sep = '&' ∧ occursInside '|' name.toList = false) := by
  unfold multiple? at h
  split at h
  . next name =>
    split at h
    . next hs =>
      cases h
      exact ⟨name, '|', rfl, hs, rfl, .inl ⟨rfl, rfl⟩⟩
    . next hn =>
      split at h
      . next hs =>
        cases h
        exact ⟨name, '&', rfl, hs, rfl, .inr ⟨rfl, rfl, by simpa using hn⟩⟩
      . cases h
  . cases h

end FieldRef

namespace Condition

variable {part whole : Condition}

theorem isPart_cases (h : IsPart part whole) :
    part.field.length < whole.field.length ∨
      part.field = whole.field ∧ sizeOf part.operand < sizeOf whole.operand := by
  obtain ⟨group, link, h, hm⟩ := h
  unfold expanded at h
  split at h
  . next connective names operand hmultiple =>
    obtain ⟨operands, _, h⟩ := bind_eq_ok.1 h
    cases h
    obtain ⟨_, hm, he⟩ := List.mem_map.1 hm
    obtain ⟨⟨name, operand⟩, hzip, rfl⟩ := List.mem_map.1 hm
    cases he
    obtain ⟨joined, sep, hfield, hinside, rfl, _⟩ := FieldRef.multiple?_eq_some hmultiple
    left
    rw [hfield]
    exact Text.length_lt_of_mem_splitAt (FieldRef.mem_of_occursInside hinside)
      (List.mem_of_mem_filter (List.of_mem_zip hzip).1)
  . next items connective hoperand =>
    split at h
    . cases h
    . cases h
      obtain ⟨_, hm, he⟩ := List.mem_map.1 hm
      obtain ⟨⟨operator, operand⟩, hitem, rfl⟩ := List.mem_map.1 hm
      cases he
      right
      rw [hoperand]
      have := List.sizeOf_lt_of_mem hitem
      refine ⟨rfl, ?_⟩
      simp only [Prod.mk.sizeOf_spec, Operand.conditions.sizeOf_spec] at this ⊢
      omega
  . cases h

theorem wellFounded_isPart : WellFounded IsPart := by
  refine Subrelation.wf ?_
    (InvImage.wf (fun condition : Condition => (condition.field.length, sizeOf condition.operand))
      (Prod.lex Nat.lt_wfRel Nat.lt_wfRel).wf)
  intro part whole h
  rcases isPart_cases h with hlt | ⟨hfield, hlt⟩
  . exact .left _ _ hlt
  . change Prod.Lex _ _ (part.field.length, sizeOf part.operand) (whole.field.length, _)
    rw [hfield]
    exact .right _ hlt

end Condition

end Termination

section Clauses

theorem Operand.itemClauses_eq_map (items : List (String × Operand)) (c : Comparison)
    (connective : Connective) (field : FieldRef) :
    itemClauses items c connective field = items.map fun (operator, operand) =>
      (connective, operand.clause { c with operator := operator } (.single field)) := by
  induction items with
  | nil => rfl
  | cons item items ih => rw [itemClauses, ih, List.map_cons]

theorem Operand.clauses_eq_map (f : String → FieldTree) (c : Comparison) (connective : Connective)
    (names : List String) (operands : List Operand) :
    clauses operands c connective (names.map f) =
      (names.zip operands).map fun (name, operand) => (connective, operand.clause c (f name)) := by
  induction names generalizing operands with
  | nil => cases operands <;> rfl
  | cons name names ih =>
    cases operands with
    | nil => rfl
    | cons operand operands =>
      rw [List.map_cons, clauses, ih, List.zip_cons_cons, List.map_cons]

theorem zip_replicate_length {α β : Type} (as : List α) (b : β) :
    as.zip (List.replicate as.length b) = as.map fun a => (a, b) := by
  induction as with
  | nil => rfl
  | cons a as ih => rw [List.length_cons, List.replicate_succ, List.zip_cons_cons, ih, List.map_cons]

theorem Operand.clause_joined (operand : Operand) (c : Comparison) (connective : Connective)
    (f : String → FieldTree) (names : List String) :
    operand.clause c (.joined connective (names.map f)) =
      match operand.distributed c.operator names.length with
      | .error e => .failure e
      | .ok operands => .group ((names.zip operands).map fun (name, operand) =>
        (connective, operand.clause c (f name))) := by
  by_cases h : ∃ operands, operand = .perField operands
  . obtain ⟨operands, rfl⟩ := h
    rw [clause, List.length_map, clauses_eq_map, distributed]
    split <;> rfl
  . have hoperand : ∀ operands, operand ≠ .perField operands := fun operands he => h ⟨operands, he⟩
    have hdistributed : operand.distributed c.operator names.length =
        .ok (List.replicate names.length operand) := by
      cases operand with
      | perField operands => exact absurd rfl (hoperand operands)
      | _ => rfl
    rw [hdistributed, clause_eq_spread hoperand, FieldTree.spread, FieldTree.spreadParts_eq_map]
    dsimp only
    rw [zip_replicate_length, List.map_map, List.map_map]
    congr 1
    apply List.map_congr_left
    intro name _
    simp only [Function.comp, ← clause_eq_spread hoperand]

namespace FieldTree

theorem multiple?_of_not_mem {name : String} (hor : '|' ∉ name.toList)
    (hand : '&' ∉ name.toList) : (FieldRef.column name).multiple? = none := by
  simp [FieldRef.multiple?, FieldRef.occursInside, hor, hand]

theorem ofField_piece {field : FieldRef} {connective : Connective} {names : List String}
    (h : field.multiple? = some (connective, names)) {piece : String} (hp : piece ∈ names) :
    ofField (.column piece) = ofPart piece := by
  obtain ⟨name, sep, _, _, rfl, hsep⟩ := FieldRef.multiple?_eq_some h
  unfold ofField ofPart
  cases hm : (FieldRef.column piece).multiple? with
  | none => rfl
  | some parts =>
    obtain ⟨connective', names⟩ := parts
    obtain ⟨_, sep', hpiece, hinside, rfl, hsep'⟩ := FieldRef.multiple?_eq_some hm
    cases hpiece
    have hne : sep' ≠ sep := by
      rintro rfl
      exact Text.not_mem_of_mem_splitAt hp (FieldRef.mem_of_occursInside hinside)
    dsimp only
    congr 1
    apply List.map_congr_left
    intro last hlast
    have hlast := List.mem_of_mem_filter hlast
    have habsent' := Text.not_mem_of_mem_splitAt hlast
    have habsent : sep ∉ last.toList :=
      fun hm => Text.not_mem_of_mem_splitAt hp (Text.mem_of_mem_splitAt hlast hm)
    have hnone : (FieldRef.column last).multiple? = none := by
      rcases hsep with ⟨_, rfl⟩ | ⟨_, rfl, _⟩ <;> rcases hsep' with ⟨_, rfl⟩ | ⟨_, rfl, _⟩
      . exact absurd rfl hne
      . exact multiple?_of_not_mem habsent habsent'
      . exact multiple?_of_not_mem habsent' habsent
      . exact absurd rfl hne
    rw [hnone]

end FieldTree

end Clauses

namespace Condition

theorem clause_eq (condition : Condition) :
    condition.clause =
      condition.operand.clause condition.comparison (.ofField condition.field) := by
  obtain ⟨field, operator, operand, bindType, listConnective⟩ := condition
  rw [Condition.clause]
  rfl

theorem clause_eq_expanded (condition : Condition) : condition.clause =
    match condition.expanded with
    | .error e => .failure e
    | .ok (some group) => .group (Group.clauses group)
    | .ok none => .test condition.field condition.comparison condition.operand.argument := by
  obtain ⟨field, operator, operand, bindType, listConnective⟩ := condition
  rw [clause_eq]
  unfold expanded
  dsimp only [comparison]
  cases hm : field.multiple? with
  | none =>
    have htree : FieldTree.ofField field = .single field := by
      rw [FieldTree.ofField, hm]
    rw [htree]
    cases operand with
    | conditions items connective =>
      dsimp only [Operand.clause, FieldTree.spread]
      rw [Operand.itemClauses_eq_map]
      split
      . rfl
      . dsimp only
        rw [Group.clauses_joined, List.map_map]
        congr 1
        apply List.map_congr_left
        intro item _
        simp only [Function.comp, Entry.clause, clause_eq, htree, comparison]
    | _ => rfl
  | some parts =>
    obtain ⟨connective, names⟩ := parts
    have htree : FieldTree.ofField field =
        .joined connective ((FieldTree.present names).map FieldTree.ofPart) := by
      rw [FieldTree.ofField, hm]
    rw [htree]
    have hpiece : ∀ name ∈ FieldTree.present names,
        FieldTree.ofField (.column name) = FieldTree.ofPart name :=
      fun name hn => FieldTree.ofField_piece hm (List.mem_of_mem_filter hn)
    rw [Operand.clause_joined]
    dsimp only
    cases operand.distributed operator (FieldTree.present names).length with
    | error e => rfl
    | ok operands =>
      dsimp only [bind, Except.bind]
      rw [Group.clauses_joined, List.map_map]
      congr 1
      apply List.map_congr_left
      intro pair hp
      simp only [Function.comp, Entry.clause, clause_eq, comparison,
        hpiece pair.1 (List.of_mem_zip hp).1]

end Condition

end SqlFilter
