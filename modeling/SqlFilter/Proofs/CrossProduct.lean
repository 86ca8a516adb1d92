import SqlFilter.Proofs.InvalidNames
import SqlFilter.Proofs.SingleCondition

/-!
This module contains the groups that conditions on joined names stand for: any of the parts between
bars, all of the names between ampersands, and on each name the operators that the operand holds, so
that each name meets each operator once.
-/

namespace SqlFilter

open FieldTree FieldRef

mutual

def Operand.entry (field : FieldRef) : Operand → Comparison → Entry
  | .conditions items connective, c =>
    if items.isEmpty then
      .condition ⟨field, c.operator, .conditions items connective, c.bindType, c.listConnective⟩
    else .group (Operand.itemEntries field items c connective)
  | operand, c => .condition ⟨field, c.operator, operand, c.bindType, c.listConnective⟩

def Operand.itemEntries (field : FieldRef) :
    List (String × Operand) → Comparison → Connective → List (Connective × Entry)
  | [], _, _ => []
  | (operator, operand) :: items, c, connective =>
    (connective, operand.entry field { c with operator := operator }) ::
      Operand.itemEntries field items c connective

end

mutual

def Operand.tests : Operand → String → List (String × Operand)
  | .conditions items connective, operator =>
    if items.isEmpty then [(operator, .conditions items connective)] else Operand.itemTests items
  | operand, operator => [(operator, operand)]

def Operand.itemTests : List (String × Operand) → List (String × Operand)
  | [] => []
  | (operator, operand) :: items => operand.tests operator ++ Operand.itemTests items

end

mutual

def Entry.conditions : Entry → List Condition
  | .condition c => [c]
  | .group entries => Group.conditions entries
  | .deferred entries => Group.conditions entries
  | .raw _ => []
  | .literal _ => []

def Group.conditions : List (Connective × Entry) → List Condition
  | [] => []
  | (_, entry) :: entries => entry.conditions ++ Group.conditions entries

end

namespace Condition

variable (condition : Condition)

def onName (name : String) : Entry :=
  condition.operand.entry (.column name) condition.comparison

def onPiece (piece : String) : Entry :=
  if '&' ∈ piece.toList then
    .group (Group.all ((present (Text.splitAt '&' piece)).map condition.onName))
  else condition.onName piece

def crossProduct (name : String) : Entry :=
  if '|' ∈ name.toList then
    .group (Group.any ((present (Text.splitAt '|' name)).map condition.onPiece))
  else condition.onPiece name

end Condition

section Clauses

mutual

theorem Operand.clause_entry {field : FieldRef} (h : ofField field = .single field) :
    (operand : Operand) → ∀ c : Comparison,
      (operand.entry field c).clause = operand.clause c (.single field)
  | .conditions items connective => by
    intro c
    rw [entry, clause, spread]
    split
    . next he =>
      rw [Entry.clause, Condition.clause_eq, h, clause, spread]
      simp only [he, if_true]
      rfl
    . rw [Entry.clause, clauses_itemEntries h items c connective]
  | .none | .value _ | .list _ | .raw _ | .subQuery _ | .column _ _ | .perField _ => by
    intro c
    simp only [entry, Entry.clause, Condition.clause_eq, h]
    rfl

theorem Operand.clauses_itemEntries {field : FieldRef} (h : ofField field = .single field) :
    (items : List (String × Operand)) → ∀ (c : Comparison) (connective : Connective),
      Group.clauses (Operand.itemEntries field items c connective) =
        Operand.itemClauses items c connective field
  | [] => by
    intro c connective
    rfl
  | (operator, operand) :: items => by
    intro c connective
    rw [itemEntries, Group.clauses, itemClauses, clause_entry h operand,
      clauses_itemEntries h items]

end

namespace Condition

variable {condition : Condition} {name piece : String}

theorem clause_onName (hor : '|' ∉ name.toList) (hand : '&' ∉ name.toList) :
    (condition.onName name).clause =
      condition.operand.clause condition.comparison (.single (.column name)) := by
  apply Operand.clause_entry
  rw [ofField, multiple?_of_not_mem hor hand]

theorem clause_onPiece (hoperand : ∀ operands, condition.operand ≠ .perField operands)
    (hor : '|' ∉ piece.toList) : (condition.onPiece piece).clause =
      condition.operand.clause condition.comparison (ofPiece piece) := by
  unfold onPiece ofPiece
  split
  . rw [Entry.clause, Group.all, Group.clauses_joined, List.map_map,
      Operand.clause_eq_spread hoperand, spread, spreadParts_eq_map, List.map_map]
    congr 1
    apply List.map_congr_left
    intro name hn
    have hn := List.mem_of_mem_filter hn
    have hname : (condition.onName name).clause = _ :=
      clause_onName (fun hm => hor (Text.mem_of_mem_splitAt hn hm)) (Text.not_mem_of_mem_splitAt hn)
    simp only [Function.comp_apply, hname, spread]
  . next hand => exact clause_onName hor hand

theorem clause_crossProduct (hoperand : ∀ operands, condition.operand ≠ .perField operands) :
    (condition.crossProduct name).clause =
      condition.operand.clause condition.comparison (ofPieces name) := by
  unfold crossProduct ofPieces
  split
  . rw [Entry.clause, Group.any, Group.clauses_joined, List.map_map,
      Operand.clause_eq_spread hoperand, spread, spreadParts_eq_map, List.map_map]
    congr 1
    apply List.map_congr_left
    intro piece hp
    have hpiece := clause_onPiece hoperand (Text.not_mem_of_mem_splitAt (List.mem_of_mem_filter hp))
    simp only [Function.comp_apply, hpiece, ← Operand.clause_eq_spread hoperand]
  . next hor => exact clause_onPiece hoperand hor

end Condition

end Clauses

section Conditions

mutual

theorem Operand.conditions_entry (field : FieldRef) : (operand : Operand) → ∀ c : Comparison,
    (operand.entry field c).conditions = (operand.tests c.operator).map fun (operator, operand) =>
      ⟨field, operator, operand, c.bindType, c.listConnective⟩
  | .conditions items connective => by
    intro c
    rw [entry, tests]
    split
    . rfl
    . rw [Entry.conditions, conditions_itemEntries field items]
  | .none | .value _ | .list _ | .raw _ | .subQuery _ | .column _ _ | .perField _ => by
    intro c
    rfl

theorem Operand.conditions_itemEntries (field : FieldRef) : (items : List (String × Operand)) →
    ∀ (c : Comparison) (connective : Connective),
      Group.conditions (Operand.itemEntries field items c connective) =
        (Operand.itemTests items).map fun (operator, operand) =>
          ⟨field, operator, operand, c.bindType, c.listConnective⟩
  | [] => by
    intro c connective
    rfl
  | (operator, operand) :: items => by
    intro c connective
    rw [itemEntries, Group.conditions, itemTests, List.map_append, conditions_entry field operand,
      conditions_itemEntries field items]

end

theorem Group.conditions_joined (connective : Connective) (entries : List Entry) :
    Group.conditions (joined connective entries) = entries.flatMap Entry.conditions := by
  induction entries with
  | nil => rfl
  | cons entry entries ih =>
    rw [List.flatMap_cons, ← ih]
    rfl

theorem FieldTree.present_singleton {name : String} (h : name ≠ "") : present [name] = [name] := by
  simp [present, h]

namespace Condition

variable (condition : Condition) {name piece : String}

def testsOn (name : String) : List Condition :=
  (condition.operand.tests condition.operator).map fun (operator, operand) =>
    ⟨.column name, operator, operand, condition.bindType, condition.listConnective⟩

theorem conditions_onName (name : String) :
    (condition.onName name).conditions = condition.testsOn name :=
  Operand.conditions_entry (.column name) condition.operand condition.comparison

theorem conditions_onPiece (h : piece ≠ "") : (condition.onPiece piece).conditions =
    (present (Text.splitAt '&' piece)).flatMap condition.testsOn := by
  unfold onPiece
  split
  . rw [Entry.conditions, Group.all, Group.conditions_joined, List.flatMap_map]
    exact List.flatMap_congr fun name _ => condition.conditions_onName name
  . next hand =>
    rw [Text.splitAt_of_not_mem hand, present_singleton h, List.flatMap_singleton,
      conditions_onName]

theorem conditions_crossProduct (h : name ≠ "") : (condition.crossProduct name).conditions =
    (singleNames name).flatMap condition.testsOn := by
  unfold crossProduct singleNames
  rw [List.flatMap_assoc]
  split
  . rw [Entry.conditions, Group.any, Group.conditions_joined, List.flatMap_map]
    apply List.flatMap_congr
    intro piece hp
    exact condition.conditions_onPiece (by simpa using (List.mem_filter.1 hp).2)
  . next hor =>
    rw [Text.splitAt_of_not_mem hor, present_singleton h, List.flatMap_singleton]
    exact condition.conditions_onPiece h

end Condition

end Conditions

section Empty

variable {c : Compiler}

mutual

theorem Operand.fails_empty {empty : String × Operand} {link : Connective}
    (he : empty.2 = .conditions [] link) (field : FieldRef) :
    (operand : Operand) → ∀ comparison : Comparison, empty ∈ operand.tests comparison.operator →
      (operand.clause comparison (.single field)).Fails c
  | .conditions items connective => by
    intro comparison hm
    rw [tests] at hm
    rw [clause, spread]
    split
    . exact Clause.fails_failure _
    . next hne =>
      rw [if_neg hne] at hm
      exact Clause.fails_group (exists_fails_empty he field items _ _ hm)
  | .none | .value _ | .list _ | .raw _ | .subQuery _ | .column _ _ | .perField _ => by
    intro comparison hm
    cases List.mem_singleton.1 hm
    cases he

theorem Operand.exists_fails_empty {empty : String × Operand} {link : Connective}
    (he : empty.2 = .conditions [] link) (field : FieldRef) : (items : List (String × Operand)) →
    ∀ (comparison : Comparison) (connective : Connective), empty ∈ Operand.itemTests items →
      ∃ member ∈ Operand.itemClauses items comparison connective field, member.2.Fails c
  | [] => by
    intro _ _ hm
    cases hm
  | (operator, operand) :: items => by
    intro comparison connective hm
    rw [itemTests, List.mem_append] at hm
    rw [itemClauses, List.exists_mem_cons_iff]
    exact hm.imp (fails_empty he field operand _) (exists_fails_empty he field items _ _)

end

namespace FieldTree

mutual

theorem has_of_isVacant : (tree : FieldTree) → tree.isVacant = false → tree.Has fun _ => True
  | .single _ => fun _ => .single trivial
  | .joined _ parts => by
    intro h
    obtain ⟨part, hm, hp⟩ := exists_has_of_areVacant parts h
    exact .joined hm hp

theorem exists_has_of_areVacant : (parts : List FieldTree) → areVacant parts = false →
    ∃ part ∈ parts, part.Has fun _ => True
  | [] => by
    intro h
    cases h
  | part :: parts => by
    intro h
    rw [areVacant, Bool.and_eq_false_iff] at h
    rw [List.exists_mem_cons_iff]
    exact h.imp (has_of_isVacant part) (exists_has_of_areVacant parts)

end

end FieldTree

end Empty

structure Entry.Alike (c : Compiler) (entry entry' : Entry) : Prop where
  text : ∀ table, c.clauseText entry.clause table = c.clauseText entry'.clause table
  filter : c.compileGroup [(.and, entry)] = c.compileGroup [(.and, entry')]

structure Entry.Fails (c : Compiler) (entry : Entry) : Prop where
  text : ∀ table, ∃ e, c.clauseText entry.clause table = .error e
  filter : ∃ e, c.compileGroup [(.and, entry)] = .error e

section Entries

variable {c : Compiler} {entry entry' : Entry}

theorem Entry.Alike.of_clause (h : entry.clause = entry'.clause) : Alike c entry entry' where
  text table := by rw [h]
  filter := by rw [Compiler.compileGroup_single, Compiler.compileGroup_single, h]

theorem Entry.Fails.of_clause (h : entry.clause.Fails c) : Entry.Fails c entry where
  text := h
  filter := by
    obtain ⟨e, he⟩ := h (.empty c.config.bindStem)
    rw [Compiler.compileGroup_single, he]
    exact ⟨e, rfl⟩

end Entries

namespace Condition

def pieces (name : String) : Connective × List String :=
  if '|' ∈ name.toList then (.or, present (Text.splitAt '|' name))
  else (.and, present (Text.splitAt '&' name))

structure Expands (c : Compiler) (condition : Condition) (name : String) : Prop where
  step : ∀ group, condition.expanded = .ok (some group) →
    Entry.Alike c (.condition condition) (.group group)
  terminates : Acc IsPart condition
  malformed : IsMalformed name → Entry.Fails c (.condition condition)
  alike : ¬ IsMalformed name → (∀ operands, condition.operand ≠ .perField operands) →
    Entry.Alike c (.condition condition) (condition.crossProduct name)
  conditions : (condition.crossProduct name).conditions =
    (singleNames name).flatMap condition.testsOn
  empty : (∃ operator connective,
      (operator, .conditions [] connective) ∈ condition.operand.tests condition.operator) →
    Entry.Fails c (.condition condition)
  perField : ∀ operands, condition.operand = .perField operands → ¬ IsMalformed name →
    if operands.length = (pieces name).2.length then
      Entry.Alike c (.condition condition) (.group (Group.joined (pieces name).1
        (((pieces name).2.zip operands).map fun (piece, operand) =>
          .condition { condition with field := .column piece, operand := operand })))
    else Entry.Fails c (.condition condition)

variable {c : Compiler} {condition : Condition} {name : String}

theorem multiple?_pieces (hfront : ∀ c, name.toList.head? = some c → ¬ IsSeparator c)
    (hjoined : ∃ c ∈ name.toList.tail, IsSeparator c) :
    ∃ names, (FieldRef.column name).multiple? = some ((pieces name).1, names) ∧
      present names = (pieces name).2 := by
  unfold pieces
  by_cases hor : '|' ∈ name.toList
  . have hinside := occursInside_of_mem hor fun h => hfront _ h (.inl rfl)
    rw [multiple?, if_pos hinside, if_pos hor]
    exact ⟨_, rfl, rfl⟩
  . obtain ⟨c, hm, rfl | rfl⟩ := hjoined
    . exact absurd (List.mem_of_mem_tail hm) hor
    . have hnot : occursInside '|' name.toList = false := by simp [occursInside, hor]
      have hinside := occursInside_of_mem (List.mem_of_mem_tail hm) fun h => hfront _ h (.inr rfl)
      rw [multiple?, if_neg (by simp [hnot]), if_pos hinside, if_neg hor]
      exact ⟨_, rfl, rfl⟩

theorem expands_joined (hfield : condition.field = .column name)
    (hjoined : ∃ c ∈ name.toList.tail, IsSeparator c) : condition.Expands c name where
  step := by
    intro group h
    apply Entry.Alike.of_clause
    rw [Entry.clause, clause_eq_expanded, h]
    rfl
  terminates := wellFounded_isPart.apply condition
  malformed := by
    intro h
    apply Entry.Fails.of_clause
    rw [Entry.clause, clause_eq, hfield]
    exact Operand.fails_clause _ _ _ (has_ofField h)
  alike := by
    intro h hoperand
    apply Entry.Alike.of_clause
    rw [Entry.clause, clause_eq, hfield, clause_crossProduct hoperand]
    rw [ofField_eq_ofPieces (fun c hhead hc => h (.front hhead hc))
      fun piece hp hhead => h (.piece hp hhead)]
  conditions := by
    apply conditions_crossProduct
    rintro rfl
    obtain ⟨c, hm, _⟩ := hjoined
    cases hm
  empty := by
    rintro ⟨operator, connective, hm⟩
    have hoperand : ∀ operands, condition.operand ≠ .perField operands := by
      intro operands he
      rw [he] at hm
      cases List.mem_singleton.1 hm
    apply Entry.Fails.of_clause
    rw [Entry.clause, clause_eq, Operand.clause_eq_spread hoperand]
    exact fails_spread (has_of_isVacant _ (isVacant_ofField condition.field))
      fun field _ => Operand.fails_empty rfl field _ _ hm
  perField := by
    intro operands hoperand h
    obtain ⟨names, hmultiple, hnames⟩ :=
      multiple?_pieces (fun c hhead hc => h (.front hhead hc)) hjoined
    have hclause := condition.clause_eq_expanded
    unfold expanded at hclause
    rw [hfield, hmultiple] at hclause
    dsimp only at hclause
    rw [hnames, hoperand, Operand.distributed] at hclause
    split
    . next hlength =>
      rw [if_pos hlength] at hclause
      exact .of_clause hclause
    . next hlength =>
      rw [if_neg hlength] at hclause
      apply Entry.Fails.of_clause
      rw [Entry.clause, hclause]
      exact Clause.fails_failure _

def eitherOrBoth : Condition :=
  ⟨.column "a|b&c", "", .conditions [("=", .value (.integer 7)), ("IN", .list [.null, .null])] .or,
    some .int, .and⟩

def eitherOrBothGroup : Entry :=
  let onName (name : String) : Entry := .group
    [(.or, .condition ⟨.column name, "=", .value (.integer 7), some .int, .and⟩),
      (.or, .condition ⟨.column name, "IN", .list [.null, .null], some .int, .and⟩)]
  .group [(.or, onName "a"), (.or, .group [(.and, onName "b"), (.and, onName "c")])]

theorem expands_eitherOrBoth :
    let c := Compiler.standard {}
    eitherOrBoth.field = .column "a|b&c" ∧ (∃ c ∈ "a|b&c".toList.tail, IsSeparator c) ∧
      ¬ IsMalformed "a|b&c" ∧ eitherOrBoth.Expands c "a|b&c" ∧
        ∃ compiled, c.compileCondition eitherOrBoth = .ok compiled ∧
          c.compileGroup [(.and, eitherOrBothGroup)] = .ok compiled ∧
          compiled.sql = "( ( a = :p1 OR a = :p2 ) OR ( ( b = :p3 OR b = :p4 ) AND " ++
            "( c = :p5 OR c = :p6 ) ) )" := by
  intro c
  have hjoined : ∃ c ∈ "a|b&c".toList.tail, IsSeparator c := ⟨'|', by simp, .inl rfl⟩
  have hformed : ¬ IsMalformed "a|b&c" := by
    have hpieces : Text.splitAt '|' "a|b&c" = ["a", "b&c"] := by decide +kernel
    have hsingle : singleNames "a|b&c" = ["a", "b", "c"] := by decide +kernel
    rintro (⟨hhead, hc⟩ | ⟨hp, hhead⟩ | ⟨hs, hcheck⟩)
    . cases hhead
      rcases hc with hc | hc <;> cases hc
    . rw [hpieces] at hp
      simp only [List.mem_cons, List.not_mem_nil, or_false] at hp
      rcases hp with rfl | rfl <;> cases hhead
    . rw [hsingle] at hs
      simp only [List.mem_cons, List.not_mem_nil, or_false] at hs
      rcases hs with rfl | rfl | rfl <;> exact hcheck rfl
  have hexpands : eitherOrBoth.Expands c "a|b&c" := expands_joined rfl hjoined
  have hgroup : eitherOrBoth.crossProduct "a|b&c" = eitherOrBothGroup := by
    have hpieces : present (Text.splitAt '|' "a|b&c") = ["a", "b&c"] := by decide +kernel
    have hnames : present (Text.splitAt '&' "b&c") = ["b", "c"] := by decide +kernel
    rw [crossProduct, if_pos (by simp), hpieces, List.map_cons, List.map_singleton, onPiece,
      if_neg (by simp), onPiece, if_pos (by simp), hnames]
    rfl
  have halike := (hexpands.alike hformed (by rintro operands ⟨⟩)).filter
  have hok : (c.compileCondition eitherOrBoth).toOption.map Compiled.sql =
      some ("( ( a = :p1 OR a = :p2 ) OR ( ( b = :p3 OR b = :p4 ) AND " ++
        "( c = :p5 OR c = :p6 ) ) )") := by
    decide +kernel
  obtain ⟨compiled, hcompiled, hsql⟩ := Option.map_eq_some_iff.1 hok
  have hcompiled := toOption_eq_some hcompiled
  refine ⟨rfl, hjoined, hformed, hexpands, compiled, hcompiled, ?_, hsql⟩
  rw [← hgroup, ← halike]
  exact hcompiled

end Condition

end SqlFilter
