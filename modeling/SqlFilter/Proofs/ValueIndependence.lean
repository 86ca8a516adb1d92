import SqlFilter.Proofs.TestLockstep

/-!
This module contains the proof that values do not influence the text of a filter: two filters of one
shape, with values that look alike to their operators, both fail or get the same text with the same
names and types of binds.
-/

namespace SqlFilter

open Binder

mutual

inductive EntryAlike (c : Compiler) : Entry → Entry → Prop
  | condition {a b : Condition} :
    ConditionAlike c a b → EntryAlike c (.condition a) (.condition b)
  | group {g h : List (Connective × Entry)} : GroupAlike c g h → EntryAlike c (.group g) (.group h)
  | deferred {g h : List (Connective × Entry)} :
    GroupAlike c g h → EntryAlike c (.deferred g) (.deferred h)
  | raw (fragment : RawFragment) : EntryAlike c (.raw fragment) (.raw fragment)
  | literal (truth : Bool) : EntryAlike c (.literal truth) (.literal truth)

inductive ConditionAlike (c : Compiler) : Condition → Condition → Prop
  | mk (field : FieldRef) {operator : String} {a b : Operand} (bindType : Option BindType)
    (listConnective : Connective) :
    OperandAlike c operator a b →
      ConditionAlike c ⟨field, operator, a, bindType, listConnective⟩
        ⟨field, operator, b, bindType, listConnective⟩

inductive OperandAlike (c : Compiler) : String → Operand → Operand → Prop
  | none {operator : String} : OperandAlike c operator .none .none
  | value {operator : String} {v w : Value} :
    v.AlikeUnder (c.family? operator) w → OperandAlike c operator (.value v) (.value w)
  | list {operator : String} {vs ws : List Value} :
    Value.ListsAlike (c.family? operator) vs ws → OperandAlike c operator (.list vs) (.list ws)
  | raw {operator : String} (fragment : RawFragment) :
    OperandAlike c operator (.raw fragment) (.raw fragment)
  | subQuery {operator : String} (table : String) {g h : List (Connective × Entry)}
    (selection : Selection) :
    GroupAlike c g h →
      OperandAlike c operator (.subQuery ⟨table, g, selection⟩) (.subQuery ⟨table, h, selection⟩)
  | column {operator : String} (symbol other : String) :
    OperandAlike c operator (.column symbol other) (.column symbol other)
  | perField {operator : String} {as bs : List Operand} :
    OperandsAlike c operator as bs → OperandAlike c operator (.perField as) (.perField bs)
  | conditions {operator : String} {as bs : List (String × Operand)} (connective : Connective) :
    ItemsAlike c as bs →
      OperandAlike c operator (.conditions as connective) (.conditions bs connective)

inductive OperandsAlike (c : Compiler) : String → List Operand → List Operand → Prop
  | nil {operator : String} : OperandsAlike c operator [] []
  | cons {operator : String} {a b : Operand} {as bs : List Operand} :
    OperandAlike c operator a b → OperandsAlike c operator as bs →
      OperandsAlike c operator (a :: as) (b :: bs)

inductive ItemsAlike (c : Compiler) : List (String × Operand) → List (String × Operand) → Prop
  | nil : ItemsAlike c [] []
  | cons {operator : String} {a b : Operand} {as bs : List (String × Operand)} :
    OperandAlike c operator a b → ItemsAlike c as bs →
      ItemsAlike c ((operator, a) :: as) ((operator, b) :: bs)

inductive GroupAlike (c : Compiler) :
    List (Connective × Entry) → List (Connective × Entry) → Prop
  | nil : GroupAlike c [] []
  | cons (connective : Connective) {a b : Entry} {g h : List (Connective × Entry)} :
    EntryAlike c a b → GroupAlike c g h → GroupAlike c ((connective, a) :: g) ((connective, b) :: h)

end

mutual

theorem EntryAlike.refl (c : Compiler) : (entry : Entry) → EntryAlike c entry entry
  | .condition a => .condition (ConditionAlike.refl c a)
  | .group g => .group (GroupAlike.refl c g)
  | .deferred g => .deferred (GroupAlike.refl c g)
  | .raw fragment => .raw fragment
  | .literal truth => .literal truth

theorem ConditionAlike.refl (c : Compiler) : (a : Condition) → ConditionAlike c a a
  | ⟨field, operator, operand, bindType, listConnective⟩ =>
    .mk field bindType listConnective (OperandAlike.refl c operator operand)

theorem OperandAlike.refl (c : Compiler) (operator : String) :
    (operand : Operand) → OperandAlike c operator operand operand
  | .none => .none
  | .value v => .value (.refl _ v)
  | .list vs => .list (.refl _ vs)
  | .raw fragment => .raw fragment
  | .subQuery ⟨table, filter, selection⟩ => .subQuery table selection (GroupAlike.refl c filter)
  | .column symbol other => .column symbol other
  | .perField operands => .perField (OperandsAlike.refl c operator operands)
  | .conditions items connective => .conditions connective (ItemsAlike.refl c items)

theorem OperandsAlike.refl (c : Compiler) (operator : String) :
    (operands : List Operand) → OperandsAlike c operator operands operands
  | [] => .nil
  | a :: as => .cons (OperandAlike.refl c operator a) (OperandsAlike.refl c operator as)

theorem ItemsAlike.refl (c : Compiler) :
    (items : List (String × Operand)) → ItemsAlike c items items
  | [] => .nil
  | (operator, a) :: as => .cons (OperandAlike.refl c operator a) (ItemsAlike.refl c as)

theorem GroupAlike.refl (c : Compiler) :
    (group : List (Connective × Entry)) → GroupAlike c group group
  | [] => .nil
  | (connective, a) :: g => .cons connective (EntryAlike.refl c a) (GroupAlike.refl c g)

end

theorem OperandsAlike.length_eq {c : Compiler} {operator : String} {as bs : List Operand}
    (h : OperandsAlike c operator as bs) : as.length = bs.length := by
  induction as generalizing bs with
  | nil =>
    cases h
    rfl
  | cons a as ih =>
    cases h with
    | cons _ h => simp [ih h]

theorem ItemsAlike.isEmpty_eq {c : Compiler} {as bs : List (String × Operand)}
    (h : ItemsAlike c as bs) : as.isEmpty = bs.isEmpty := by
  cases h with
  | nil => rfl
  | cons _ _ => rfl

namespace Compiler

variable {c : Compiler}

theorem group_lockstep {clauses clauses' : List (Connective × Clause)}
    (h : Lockstep Eq (c.parts clauses) (c.parts clauses')) :
    Lockstep Eq (c.clauseText (.group clauses)) (c.clauseText (.group clauses')) := by
  simp only [clauseText]
  exact h.map _

theorem parts_cons_lockstep {connective : Connective} {clause clause' : Clause}
    {clauses clauses' : List (Connective × Clause)}
    (hc : Lockstep Eq (c.clauseText clause) (c.clauseText clause'))
    (h : Lockstep Eq (c.parts clauses) (c.parts clauses')) :
    Lockstep Eq (c.parts ((connective, clause) :: clauses))
      (c.parts ((connective, clause') :: clauses')) := by
  simp only [parts]
  apply hc.bind
  intro sql _ hsql
  subst hsql
  exact h.map _

mutual

theorem spread_lockstep {clause clause' : FieldRef → Clause}
    (h : ∀ field, Lockstep Eq (c.clauseText (clause field)) (c.clauseText (clause' field))) :
    (tree : FieldTree) →
      Lockstep Eq (c.clauseText (tree.spread clause)) (c.clauseText (tree.spread clause'))
  | .single field => h field
  | .joined connective parts => by
    simp only [FieldTree.spread]
    exact group_lockstep (spreadParts_lockstep h connective parts)

theorem spreadParts_lockstep {clause clause' : FieldRef → Clause}
    (h : ∀ field, Lockstep Eq (c.clauseText (clause field)) (c.clauseText (clause' field)))
    (connective : Connective) :
    (parts : List FieldTree) →
      Lockstep Eq (c.parts (FieldTree.spreadParts clause connective parts))
        (c.parts (FieldTree.spreadParts clause' connective parts))
  | [] => by
    simp only [FieldTree.spreadParts, parts]
    exact .pure rfl
  | part :: parts => by
    simp only [FieldTree.spreadParts]
    exact parts_cons_lockstep (spread_lockstep h part) (spreadParts_lockstep h connective parts)

end

theorem test_lockstep {comparison : Comparison}
    {argument argument' : Argument (SubQuery (List (Connective × Clause)))}
    (h : ArgumentsAlike (c.family? comparison.operator) (c.nested argument) (c.nested argument'))
    (tree : FieldTree) :
    Lockstep Eq (c.clauseText (tree.spread fun field => .test field comparison argument))
      (c.clauseText (tree.spread fun field => .test field comparison argument')) := by
  apply spread_lockstep
  intro field
  simp only [clauseText]
  exact testText_lockstep h

end Compiler

open Compiler

mutual

-- the recursion is on the first filter; the relation tells in each case what the second one is
theorem EntryAlike.lockstep {c : Compiler} : (a : Entry) → {b : Entry} → EntryAlike c a b →
    Lockstep Eq (c.clauseText a.clause) (c.clauseText b.clause)
  | .condition a, _, h => by
    cases h with
    | condition h => exact ConditionAlike.lockstep a h
  | .group g, _, h => by
    cases h with
    | group h => exact group_lockstep (GroupAlike.lockstep g h)
  | .deferred g, _, h => by
    cases h with
    | deferred h => exact group_lockstep (GroupAlike.lockstep g h)
  | .raw fragment, _, h => by
    cases h
    simp only [Entry.clause, clauseText]
    exact (Lockstep.raw fragment).map _
  | .literal truth, _, h => by
    cases h
    simp only [Entry.clause, clauseText]
    split
    . exact .pure rfl
    . exact .throw _ _
termination_by structural a => a

theorem ConditionAlike.lockstep {c : Compiler} : (a : Condition) → {b : Condition} →
    ConditionAlike c a b → Lockstep Eq (c.clauseText a.clause) (c.clauseText b.clause)
  | ⟨field, operator, a, bindType, listConnective⟩, _, h => by
    cases h with
    | mk _ _ _ h =>
      exact OperandAlike.lockstep a ⟨operator, bindType, listConnective⟩ (.ofField field) h
termination_by structural a => a

theorem OperandAlike.lockstep {c : Compiler} : (a : Operand) → {b : Operand} →
    (comparison : Comparison) → (tree : FieldTree) → OperandAlike c comparison.operator a b →
      Lockstep Eq (c.clauseText (a.clause comparison tree))
        (c.clauseText (b.clause comparison tree))
  | .none, _, comparison, tree, h => by
    cases h
    simp only [Operand.clause]
    exact test_lockstep .none tree
  | .value v, _, comparison, tree, h => by
    cases h with
    | value h =>
      simp only [Operand.clause]
      exact test_lockstep (.value h) tree
  | .list vs, _, comparison, tree, h => by
    cases h with
    | list h =>
      simp only [Operand.clause]
      exact test_lockstep (.list h) tree
  | .raw fragment, _, comparison, tree, h => by
    cases h
    simp only [Operand.clause]
    exact test_lockstep (.raw fragment) tree
  | .subQuery ⟨table, filter, selection⟩, _, comparison, tree, h => by
    cases h with
    | subQuery _ _ h =>
      simp only [Operand.clause]
      apply test_lockstep
      simp only [nested]
      apply ArgumentsAlike.subQuery
      apply selectText_lockstep
      exact (GroupAlike.lockstep filter h).map SqlFilter.joinParts
  | .column symbol other, _, comparison, tree, h => by
    cases h
    simp only [Operand.clause]
    exact test_lockstep (.column symbol other) tree
  | .perField as, _, comparison, .single field, h => by
    cases h with
    | perField h =>
      simp only [Operand.clause]
      rw [h.length_eq]
      exact test_lockstep (.perField _) (.single field)
  | .perField as, _, comparison, .joined connective parts, h => by
    cases h with
    | perField h =>
      simp only [Operand.clause]
      rw [h.length_eq]
      split
      . exact group_lockstep (OperandsAlike.lockstep as comparison connective parts h)
      . simp only [clauseText]
        exact .throw _ _
  | .conditions as connective, _, comparison, tree, h => by
    cases h with
    | conditions _ h =>
      simp only [Operand.clause]
      apply spread_lockstep
      intro field
      rw [h.isEmpty_eq]
      split
      . simp only [clauseText]
        exact .throw _ _
      . exact group_lockstep (ItemsAlike.lockstep as comparison connective field h)
termination_by structural a => a

theorem OperandsAlike.lockstep {c : Compiler} : (as : List Operand) → {bs : List Operand} →
    (comparison : Comparison) → (connective : Connective) → (parts : List FieldTree) →
      OperandsAlike c comparison.operator as bs →
        Lockstep Eq (c.parts (Operand.clauses as comparison connective parts))
          (c.parts (Operand.clauses bs comparison connective parts))
  | [], _, comparison, connective, parts, h => by
    cases h
    simp only [Operand.clauses, Compiler.parts]
    exact .pure rfl
  | a :: as, _, comparison, connective, [], h => by
    simp only [Operand.clauses, Compiler.parts]
    exact .pure rfl
  | a :: as, _, comparison, connective, part :: parts, h => by
    cases h with
    | cons ha h =>
      simp only [Operand.clauses]
      exact parts_cons_lockstep (OperandAlike.lockstep a comparison part ha)
        (OperandsAlike.lockstep as comparison connective parts h)
termination_by structural as => as

theorem ItemsAlike.lockstep {c : Compiler} : (as : List (String × Operand)) →
    {bs : List (String × Operand)} → (comparison : Comparison) → (connective : Connective) →
      (field : FieldRef) → ItemsAlike c as bs →
        Lockstep Eq (c.parts (Operand.itemClauses as comparison connective field))
          (c.parts (Operand.itemClauses bs comparison connective field))
  | [], _, comparison, connective, field, h => by
    cases h
    simp only [Operand.itemClauses, Compiler.parts]
    exact .pure rfl
  | (operator, a) :: as, _, comparison, connective, field, h => by
    cases h with
    | cons ha h =>
      simp only [Operand.itemClauses]
      exact parts_cons_lockstep
        (OperandAlike.lockstep a { comparison with operator := operator } (.single field) ha)
        (ItemsAlike.lockstep as comparison connective field h)
termination_by structural as => as

theorem GroupAlike.lockstep {c : Compiler} : (g : List (Connective × Entry)) →
    {h : List (Connective × Entry)} → GroupAlike c g h →
      Lockstep Eq (c.parts (Group.clauses g)) (c.parts (Group.clauses h))
  | [], _, h => by
    cases h
    simp only [Group.clauses, Compiler.parts]
    exact .pure rfl
  | (connective, a) :: g, _, h => by
    cases h with
    | cons _ ha h =>
      simp only [Group.clauses]
      exact parts_cons_lockstep (EntryAlike.lockstep a ha) (GroupAlike.lockstep g h)
termination_by structural g => g

end

inductive SameText : Except CompileError Compiled → Except CompileError Compiled → Prop
  | error (e e' : CompileError) : SameText (.error e) (.error e')
  | ok {compiled compiled' : Compiled} :
    compiled.sql = compiled'.sql →
      compiled.binds.map Bind.name = compiled'.binds.map Bind.name →
        compiled.binds.map Bind.type = compiled'.binds.map Bind.type →
          SameText (.ok compiled) (.ok compiled')

namespace Compiler

theorem withSoftDelete_lockstep {c : Compiler} (sql : String) :
    Lockstep Eq (c.withSoftDelete sql) (c.withSoftDelete sql) := by
  unfold withSoftDelete
  split
  . exact .pure rfl
  . next condition _ =>
    exact (ConditionAlike.lockstep condition (.refl c condition)).map _

theorem compileGroup_alike (c : Compiler) {g h : Group} (hgh : GroupAlike c g h) :
    SameText (c.compileGroup g) (c.compileGroup h) := by
  have hgroup : Lockstep Eq (c.groupText g) (c.groupText h) :=
    (GroupAlike.lockstep g hgh).map SqlFilter.joinParts
  have htext : Lockstep Eq (c.groupText g >>= fun sql => c.withSoftDelete sql)
      (c.groupText h >>= fun sql => c.withSoftDelete sql) := by
    apply hgroup.bind
    intro sql _ hsql
    subst hsql
    apply withSoftDelete_lockstep
  have hrun := htext _ _ (BindTable.Agrees.refl (.empty c.config.bindStem))
  unfold compileGroup
  dsimp only [StateT.run]
  revert hrun
  generalize (c.groupText g >>= fun sql => c.withSoftDelete sql) (.empty c.config.bindStem) = x
  generalize (c.groupText h >>= fun sql => c.withSoftDelete sql) (.empty c.config.bindStem) = y
  intro hrun
  cases hrun with
  | error e e' => exact .error e e'
  | ok hsql hagree =>
    apply SameText.ok hsql
    . simpa [List.map_map, Function.comp_def] using congrArg (List.map Prod.fst) hagree.binds
    . simpa [List.map_map, Function.comp_def] using congrArg (List.map Prod.snd) hagree.binds

def nameAndNumbers (name : String) (numbers : List Int64) : Group :=
  Group.all [.condition (.ofOperator "a" .equal (.value (.text name))),
    .condition (.ofOperator "b" .oneOf (.list (numbers.map .integer)))]

theorem compileGroup_alike_nameAndNumbers :
    GroupAlike (standard {}) (nameAndNumbers "x" [1, 2, 1]) (nameAndNumbers "' OR 1" [7, -3, 7]) ∧
      SameText ((standard {}).compileGroup (nameAndNumbers "x" [1, 2, 1]))
        ((standard {}).compileGroup (nameAndNumbers "' OR 1" [7, -3, 7])) := by
  have hname : (Value.text "x").AlikeUnder ((standard {}).family? "=") (.text "' OR 1") :=
    have hf : (standard {}).family? "=" = some .compare := by decide +kernel
    { alike := ⟨rfl, fun h => absurd h (by decide +kernel)⟩
      members := by simp [hf]
      bounds := by simp [hf]
      column := by simp [hf] }
  have hnumbers : Value.ListsAlike ((standard {}).family? "IN") ([1, 2, 1].map .integer)
      ([7, -3, 7].map .integer) :=
    have hf : (standard {}).family? "IN" = some .oneOf := by decide +kernel
    { alike := .cons (.integer 1 7) (.cons (.integer 2 (-3)) (.cons (.integer 1 7) .nil))
      members := fun _ => ⟨rfl, by decide +kernel⟩
      endBound := by simp [hf] }
  have hgroup : GroupAlike (standard {}) (nameAndNumbers "x" [1, 2, 1])
      (nameAndNumbers "' OR 1" [7, -3, 7]) :=
    .cons _ (.condition (.mk _ _ _ (.value hname)))
      (.cons _ (.condition (.mk _ _ _ (.list hnumbers))) .nil)
  exact ⟨hgroup, compileGroup_alike (standard {}) hgroup⟩

end Compiler

end SqlFilter
