import SqlFilter.Compiler.Input
import SqlFilter.Proofs.Except
import SqlFilter.Proofs.LeafRule

/-!
This module contains the conditions of filters that are decoded from JSON. A decoded filter consists
of nothing but groups, however deep, and of the conditions that its values are decoded to, so that
what holds of these conditions holds of all its conditions: `groupOf_madeOf`.
-/

namespace SqlFilter

inductive Entry.MadeOf (P : Condition → Prop) : Entry → Prop
  | condition {condition : Condition} : P condition → MadeOf P (.condition condition)
  | group {entries : List (Connective × Entry)} :
    (∀ part ∈ entries, MadeOf P part.2) → MadeOf P (.group entries)

def Group.MadeOf (P : Condition → Prop) (group : Group) : Prop :=
  ∀ part ∈ group, part.2.MadeOf P

theorem Entry.MadeOf.mono {P Q : Condition → Prop} {entry : Entry} (h : entry.MadeOf P)
    (hpq : ∀ condition, P condition → Q condition) : entry.MadeOf Q := by
  induction h with
  | condition h => exact .condition (hpq _ h)
  | group _ ih => exact .group ih

namespace Group.MadeOf

variable {P : Condition → Prop}

theorem mono {Q : Condition → Prop} {group : Group} (h : MadeOf P group)
    (hpq : ∀ condition, P condition → Q condition) : MadeOf Q group :=
  fun part hm => (h part hm).mono hpq

theorem nil : MadeOf P [] := by
  rintro part ⟨⟩

theorem cons {connective : Connective} {entry : Entry} {group : Group} (he : entry.MadeOf P)
    (hg : MadeOf P group) : MadeOf P ((connective, entry) :: group) := by
  intro part hm
  rcases List.mem_cons.1 hm with rfl | hm
  . exact he
  . exact hg part hm

theorem joined {connective : Connective} {entries : List Entry}
    (h : ∀ entry ∈ entries, entry.MadeOf P) : MadeOf P (Group.joined connective entries) := by
  intro part hm
  obtain ⟨entry, he, rfl⟩ := List.mem_map.1 hm
  exact h entry he

end Group.MadeOf

theorem Entry.MadeOf.obeys {rule : LeafRule} {entry : Entry}
    (h : entry.MadeOf fun condition => condition.obeys rule = true) : entry.obeys rule = true := by
  induction h with
  | condition h => exact h
  | group _ ih => exact Group.obeys_of_forall ih

theorem Group.MadeOf.obeys {rule : LeafRule} {group : Group}
    (h : Group.MadeOf (fun condition => condition.obeys rule = true) group) :
    Group.obeys rule group = true :=
  Group.obeys_of_forall fun part hm => (h part hm).obeys

namespace WhereMap

def conditionValues (key : String) (value : Json) : List Json :=
  if key.toList.contains '(' then
    match value with
    | .array values => values
    | _ => []
  else
    match (FieldRef.ofName key).multiple?, value.member? perFieldKey with
    | some _, some (.array values) => values
    | _, _ => [value]

def members (entries : Dictionary Json) : Dictionary Json :=
  entries.filter fun member => !isReserved member.1

end WhereMap

def WhereInput.conditionValues : WhereInput → List Json
  | .group _ => []
  | .bracket _ values => values
  | .map entries =>
    (WhereMap.members entries).flatMap fun member => WhereMap.conditionValues member.1 member.2

namespace Compiler

variable {c : Compiler} {P : Condition → Prop}

def DecodesTo (c : Compiler) (P : Condition → Prop) (values : List Json) : Prop :=
  ∀ name, ∀ value ∈ values, ∀ condition, c.conditionOfJson name value = .ok condition → P condition

theorem DecodesTo.subset {values rest : List Json} (h : c.DecodesTo P values)
    (hrest : rest ⊆ values) : c.DecodesTo P rest :=
  fun name value hm => h name value (hrest hm)

mutual

-- a node uses up some of the values, and those behind it are decoded from the others
theorem entryOfNode_madeOf :
    (node : BracketNode) → {values : List Json} → c.DecodesTo P values →
      {entry : Entry} → {rest : List Json} → c.entryOfNode node values = .ok (entry, rest) →
        entry.MadeOf P ∧ rest ⊆ values
  | .field name _, value :: values, hv, entry, rest, h => by
    rw [entryOfNode] at h
    obtain ⟨condition, hc, h⟩ := bind_eq_ok.1 h
    cases h
    exact ⟨.condition (hv name value List.mem_cons_self condition hc),
      List.subset_cons_self value values⟩
  | .field _ _, [], _, entry, rest, h => by
    rw [entryOfNode] at h
    cases h
  | .group nodes _, values, hv, entry, rest, h => by
    rw [entryOfNode] at h
    obtain ⟨⟨group, left⟩, hg, h⟩ := bind_eq_ok.1 h
    cases h
    obtain ⟨hgroup, hrest⟩ := groupOfNodes_madeOf .and nodes hv hg
    exact ⟨.group hgroup, hrest⟩

theorem groupOfNodes_madeOf (connective : Connective) :
    (nodes : List BracketNode) → {values : List Json} → c.DecodesTo P values →
      {group : Group} → {rest : List Json} →
        c.groupOfNodes connective nodes values = .ok (group, rest) →
          Group.MadeOf P group ∧ rest ⊆ values
  | [], values, _, group, rest, h => by
    rw [groupOfNodes] at h
    cases h
    exact ⟨.nil, List.Subset.refl values⟩
  | node :: nodes, values, hv, group, rest, h => by
    rw [groupOfNodes] at h
    obtain ⟨⟨entry, left⟩, he, h⟩ := bind_eq_ok.1 h
    obtain ⟨⟨others, _⟩, hg, h⟩ := bind_eq_ok.1 h
    cases h
    obtain ⟨hentry, hleft⟩ := entryOfNode_madeOf node hv he
    obtain ⟨hothers, hrest⟩ := groupOfNodes_madeOf _ nodes (hv.subset hleft) hg
    exact ⟨.cons hentry hothers, List.Subset.trans hrest hleft⟩

end

theorem groupOfBracket_madeOf {nodes : List BracketNode} {values : List Json} {group : Group}
    (hv : c.DecodesTo P values) (h : c.groupOfBracket nodes values = .ok group) :
    Group.MadeOf P group := by
  unfold groupOfBracket at h
  dsimp only at h
  split at h
  . obtain ⟨⟨group, rest⟩, hg, h⟩ := bind_eq_ok.1 h
    cases h
    exact (groupOfNodes_madeOf .and nodes hv hg).1
  . cases h

theorem entryOfKey_madeOf {key : String} {value : Json} {entry : Entry}
    (hp : key.toList.contains '(' = false)
    (hv : c.DecodesTo P (WhereMap.conditionValues key value))
    (h : c.entryOfKey key value = .ok entry) : entry.MadeOf P := by
  unfold WhereMap.conditionValues at hv
  rw [hp] at hv
  unfold entryOfKey at h
  split at h
  . next connective names values hm hmember =>
    rw [hm, hmember] at hv
    dsimp only at h
    split at h
    . obtain ⟨conditions, hc, h⟩ := bind_eq_ok.1 h
      cases h
      refine .group (Group.MadeOf.joined ?_)
      intro entry he
      obtain ⟨condition, hcondition, rfl⟩ := List.mem_map.1 he
      obtain ⟨⟨name, value⟩, hpair, hdecoded⟩ := exists_of_mem_mapM hc condition hcondition
      exact .condition (hv name value (List.of_mem_zip hpair).2 condition hdecoded)
    . cases h
  . next hone =>
    obtain ⟨condition, hc, h⟩ := bind_eq_ok.1 h
    have hcondition : P condition := by
      apply hv key value _ condition hc
      rw [if_neg Bool.false_ne_true]
      split
      . next connective values hm hmember => exact absurd hmember (hone _ _ _ hm)
      . exact List.mem_singleton_self value
    cases h
    split
    . exact .group (Group.MadeOf.cons (.condition hcondition) .nil)
    . exact .condition hcondition

theorem entryOfMember_madeOf {key : String} {value : Json} {entry : Entry}
    (hv : c.DecodesTo P (WhereMap.conditionValues key value))
    (h : c.entryOfMember key value = .ok entry) : entry.MadeOf P := by
  unfold entryOfMember at h
  split at h
  . next hp =>
    obtain ⟨nodes, _, h⟩ := bind_eq_ok.1 h
    split at h
    . obtain ⟨group, hg, h⟩ := bind_eq_ok.1 h
      cases h
      rw [WhereMap.conditionValues, if_pos hp] at hv
      exact .group (groupOfBracket_madeOf hv hg)
    . cases h
  . next hp =>
    obtain ⟨_, _, h⟩ := bind_eq_ok.1 h
    exact entryOfKey_madeOf (by simpa using hp) hv h

theorem groupOfMap_madeOf {entries : Dictionary Json} {group : Group}
    (hv : c.DecodesTo P (WhereInput.map entries).conditionValues)
    (h : c.groupOfMap entries = .ok group) : Group.MadeOf P group := by
  obtain ⟨connective, _, h⟩ := bind_eq_ok.1 h
  obtain ⟨parts, hparts, h⟩ := bind_eq_ok.1 h
  cases h
  apply Group.MadeOf.joined
  intro entry he
  obtain ⟨⟨key, value⟩, hm, hentry⟩ := exists_of_mem_mapM hparts entry he
  apply entryOfMember_madeOf _ hentry
  apply hv.subset
  intro v hvalue
  exact List.mem_flatMap.2 ⟨(key, value), hm, hvalue⟩

theorem groupOf_madeOf {input : WhereInput} {group : Group} (hj : ∀ g, input ≠ .group g)
    (hv : c.DecodesTo P input.conditionValues) (h : c.groupOf input = .ok group) :
    Group.MadeOf P group := by
  cases input with
  | group g => exact absurd rfl (hj g)
  | bracket key values =>
    obtain ⟨nodes, _, h⟩ := bind_eq_ok.1 h
    exact groupOfBracket_madeOf hv h
  | map entries => exact groupOfMap_madeOf hv h

end Compiler

end SqlFilter
