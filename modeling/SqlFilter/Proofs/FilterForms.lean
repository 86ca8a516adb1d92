import SqlFilter.Proofs.JoinedFields
import SqlFilter.Proofs.KeyMirror
import SqlFilter.Proofs.Unfiltered

/-!
This module contains the proof that the ways to write a filter on joined fields agree: a bracket key,
the same key in parentheses, a list of values below the key, and one value for all fields are compiled
to the same text in more or fewer parentheses, with the same binds.
-/

namespace SqlFilter

open SqlFilter.Bracket

def Compiled.inParentheses (compiled : Compiled) : Compiled :=
  { compiled with sql := "( " ++ compiled.sql ++ " )" }

def Condition.on (condition : Condition) (name : String) : Condition :=
  { condition with field := .ofName name }

def Group.leading (connective : Connective) : Group → Group
  | [] => []
  | (_, entry) :: entries => (connective, entry) :: entries

theorem Group.leading_joined (connective : Connective) (entries : List Entry) :
    Group.leading connective (Group.joined connective entries) =
      Group.joined connective entries := by
  cases entries <;> rfl

def Group.ofConditions (connective : Connective) (conditions : List Condition) : Group :=
  Group.joined connective (conditions.map .condition)

theorem Group.clauses_joined (connective : Connective) (entries : List Entry) :
    Group.clauses (joined connective entries) =
      entries.map fun entry => (connective, entry.clause) := by
  induction entries with
  | nil => rfl
  | cons entry entries ih =>
    rw [List.map_cons, ← ih]
    rfl

theorem Group.clauses_ofConditions (connective : Connective) (conditions : List Condition) :
    Group.clauses (ofConditions connective conditions) =
      conditions.map fun condition => (connective, condition.clause) := by
  rw [ofConditions, clauses_joined, List.map_map]
  rfl

section Spread

variable {config : CompilerConfig} {field : String} {condition : Condition}

theorem Operand.clause_eq_spread {operand : Operand}
    (h : ∀ operands, operand ≠ .perField operands) (c : Comparison) (tree : FieldTree) :
    operand.clause c tree = tree.spread fun field => operand.clause c (.single field) := by
  cases operand with
  | perField operands => exact absurd rfl (h operands)
  | _ => simp only [Operand.clause, FieldTree.spread]

theorem Condition.OfJson.operand_ne (h : condition.OfJson config field) (operands : List Operand) :
    condition.operand ≠ .perField operands := by
  cases h with
  | single ho => cases ho <;> rintro ⟨⟩
  | several => rintro ⟨⟩

theorem FieldTree.spreadParts_eq_map (clause : FieldRef → Clause) (connective : Connective)
    (parts : List FieldTree) :
    spreadParts clause connective parts =
      parts.map fun part => (connective, spread clause part) := by
  induction parts with
  | nil => rfl
  | cons part parts ih => rw [spreadParts, ih, List.map_cons]

theorem Condition.OfJson.field_eq (h : condition.OfJson config field) :
    condition.field = .ofName field := by
  cases h <;> rfl

theorem JoinedFields.clause_eq_group (fields : JoinedFields)
    (hfield : condition.field = .ofName fields.key)
    (hoperand : ∀ operands, condition.operand ≠ .perField operands) : condition.clause =
      .group (Group.clauses (Group.ofConditions fields.connective
        (fields.names.map condition.on))) := by
  obtain ⟨field, operator, operand, bindType, listConnective⟩ := condition
  dsimp only at hfield hoperand
  subst hfield
  rw [Condition.clause, Operand.clause_eq_spread hoperand, fields.ofField_key]
  rw [FieldTree.spread, FieldTree.spreadParts_eq_map, Group.clauses_ofConditions, List.map_map,
    List.map_map]
  congr 1
  apply List.map_congr_left
  intro name hn
  have hvalid := fields.check_names name hn
  simp only [Function.comp, Condition.on, Condition.clause]
  rw [FieldTree.ofField_of_check hvalid, FieldRef.ofName_of_check hvalid, FieldTree.spread]

end Spread

theorem joinParts_leading (connective connective' : Connective) (first : String)
    (parts : List (Connective × String)) :
    joinParts ((connective, first) :: parts) = joinParts ((connective', first) :: parts) := by
  by_cases h : first = "" <;> simp [joinParts, h]

namespace Compiler

variable {c : Compiler}

theorem compileGroup_leading (connective : Connective) (group : Group) :
    c.compileGroup (group.leading connective) = c.compileGroup group := by
  cases group with
  | nil => rfl
  | cons part group =>
    obtain ⟨connective', entry⟩ := part
    unfold compileGroup groupText
    simp only [Group.leading, Group.clauses, parts, map_bind, map_pure]
    simp only [joinParts_leading connective connective']

theorem compileGroup_congr {group group' : Group} (h : Group.clauses group = Group.clauses group') :
    c.compileGroup group = c.compileGroup group' := by
  unfold compileGroup groupText
  rw [h]

theorem compileGroup_group (hs : c.softDelete = none) (connective : Connective) (group : Group) :
    c.compileGroup [(connective, .group group)] = (do
      let compiled ← c.compileGroup group
      .ok { compiled with sql := parenthesized compiled.sql }) := by
  rw [compileGroup_parts hs, compileGroup_parts hs]
  simp only [Group.clauses, Entry.clause, parts, clauseText, bind_assoc, pure_bind]
  rw [Binder.run_bind]
  cases c.parts (Group.clauses group) (.empty c.config.bindStem) with
  | error e => rfl
  | ok r =>
    change Except.ok (Compiled.mk (joinParts [(connective, parenthesized (joinParts r.1))]) _ _) =
      Except.ok _
    rw [joinParts_singleton]

theorem groupOfNodes_linked (first connective : Connective) (names : List String)
    (values : List Json) (h : names.length = values.length) :
    c.groupOfNodes first (JoinedFields.linked connective names) values = (do
      let conditions ← c.decoded (names.zip values)
      .ok ((Group.ofConditions connective conditions).leading first, [])) := by
  induction names generalizing first values with
  | nil =>
    cases values with
    | nil => rfl
    | cons value values => cases h
  | cons name names ih =>
    cases values with
    | nil => cases h
    | cons value values =>
      have hlength : names.length = values.length := Nat.succ.inj h
      rw [JoinedFields.linked, groupOfNodes, entryOfNode, List.zip_cons_cons, decoded,
        List.mapM_cons]
      simp only [bind_assoc, pure_bind, BracketNode.trailing]
      apply bind_congr
      intro condition
      change (c.groupOfNodes _ (JoinedFields.linked connective names) values >>= _) = _
      rw [ih _ values hlength, bind_assoc]
      cases names with
      | nil => rfl
      | cons next names =>
        apply bind_congr
        intro conditions
        change Except.ok ((first, Entry.condition condition) ::
          Group.leading connective (Group.ofConditions connective conditions), []) = _
        rw [Group.ofConditions, Group.leading_joined]
        rfl

section Shared

theorem pairsOfJson_rename {field : String} {items : List Json} {connective : Connective}
    {pair : OperatorOperand} (h : c.pairsOfJson field items connective = .ok pair)
    (other : String) : c.pairsOfJson other items connective = .ok pair := by
  unfold pairsOfJson at h ⊢
  split at h
  . cases h
  . next hne => rwa [if_neg hne]

theorem itemsOfJson_rename {field : String} {items : List Json} {pair : OperatorOperand}
    (h : c.itemsOfJson field items = .ok pair) (other : String) :
    c.itemsOfJson other items = .ok pair := by
  unfold itemsOfJson at h ⊢
  dsimp only at h ⊢
  split at h
  . obtain ⟨connective, hc, h⟩ := bind_eq_ok.1 h
    obtain ⟨_, hi, h⟩ := bind_eq_ok.1 h
    cases hi
    rw [hc]
    exact pairsOfJson_rename h other
  . obtain ⟨_, hi, h⟩ := bind_eq_ok.1 h
    cases hi
    exact pairsOfJson_rename h other

-- the name of the field is part of the errors only
theorem conditionOfJson_rename {field : String} {value : Json} {condition : Condition}
    (h : c.conditionOfJson field value = .ok condition) (other : String) :
    c.conditionOfJson other value = .ok (condition.on other) := by
  unfold conditionOfJson at h ⊢
  dsimp only at h ⊢
  split at h
  . obtain ⟨_, ho, _⟩ := bind_eq_ok.1 h
    cases ho
  . obtain ⟨pair, ho, h⟩ := bind_eq_ok.1 h
    cases h
    rw [ho]
    rfl
  . obtain ⟨pair, ho, h⟩ := bind_eq_ok.1 h
    cases h
    rw [itemsOfJson_rename ho other]
    rfl
  . obtain ⟨_, ho, _⟩ := bind_eq_ok.1 h
    cases ho
  . obtain ⟨_, ho, h⟩ := bind_eq_ok.1 h
    cases ho
    cases h
    rfl

end Shared

section Forms

variable (fields : JoinedFields) {values : List Json}

theorem compile_joined (hd : 1 ≤ c.config.maxBracketDepth)
    (hk : fields.key.utf8ByteSize ≤ Identifier.maxLength)
    (hv : fields.names.length = values.length) :
    c.compile (.bracket fields.key values) = (do
      let conditions ← c.decoded (fields.names.zip values)
      c.compileGroup (Group.ofConditions fields.connective conditions)) := by
  rw [compile_bracket (fields.parse_key hd hk)]
  rw [JoinedFields.nodes, JoinedFields.terminalCounts_linked, if_pos hv]
  rw [groupOfNodes_linked .and _ _ _ hv, bind_assoc]
  apply bind_congr
  intro conditions
  exact compileGroup_leading _ _

theorem compile_member {key : String} (hr : WhereMap.isReserved key = false) (value : Json) :
    c.compile (.map [(key, value)]) = (do
      let entry ← c.entryOfMember key value
      c.compileGroup [(.and, entry)]) := by
  have hlookup : List.lookup WhereMap.connectiveKey [(key, value)] = none := by
    have hne : WhereMap.connectiveKey ≠ key := by
      rintro rfl
      cases hr
    rw [Dictionary.lookup_cons, if_neg hne, List.lookup_nil]
  have hconnective : WhereMap.connective [(key, value)] = .ok .and := by
    rw [WhereMap.connective, hlookup]
  change (c.groupOfMap [(key, value)] >>= c.compileGroup) = _
  rw [groupOfMap, hconnective]
  simp only [List.filter_cons, hr, List.filter_nil, Bool.not_false, if_true, List.mapM_cons,
    List.mapM_nil, pure_bind]
  cases c.entryOfMember key value <;> rfl

theorem entryOfMember_key (hk : fields.key.utf8ByteSize ≤ Identifier.maxLength) (value : Json) :
    c.entryOfMember fields.key value = c.entryOfKey fields.key value := by
  unfold entryOfMember
  rw [fields.contains_key, fields.checkKey_key hk]
  rfl

theorem entryOfKey_listed (hv : fields.names.length = values.length) :
    c.entryOfKey fields.key (.object [(WhereMap.perFieldKey, .array values)]) = (do
      let conditions ← c.decoded (fields.names.zip values)
      .ok (.group (Group.ofConditions fields.connective conditions))) := by
  have hmember : (Json.object [(WhereMap.perFieldKey, .array values)]).member?
      WhereMap.perFieldKey = some (.array values) := by
    simp [Json.member?]
  unfold entryOfKey
  rw [fields.multiple?_key, hmember]
  dsimp only
  rw [fields.present_names, if_pos hv]
  rfl

theorem entryOfMember_groupKey (hd : 2 ≤ c.config.maxBracketDepth)
    (hk : fields.key.utf8ByteSize + 2 ≤ Identifier.maxLength)
    (hv : fields.names.length = values.length) :
    c.entryOfMember fields.groupKey (.array values) = (do
      let conditions ← c.decoded (fields.names.zip values)
      .ok (.group [(.and,
        .group ((Group.ofConditions fields.connective conditions).leading .and))])) := by
  have hcontains : fields.groupKey.toList.contains '(' = true := by
    simp [JoinedFields.groupKey]
  unfold entryOfMember entryOfBracketKey
  rw [hcontains, fields.parse_groupKey hd hk, if_pos rfl]
  change (do
      let group ← c.groupOfBracket [.group fields.nodes none] values
      Except.ok (Entry.group group)) = _
  unfold groupOfBracket
  simp only [BracketNode.terminalCounts, BracketNode.terminalCount, JoinedFields.nodes,
    JoinedFields.terminalCounts_linked, Nat.add_zero, hv, if_true, groupOfNodes, entryOfNode,
    groupOfNodes_linked .and _ _ _ hv, bind_assoc]
  cases c.decoded (fields.names.zip values) <;> rfl

theorem decoded_replicate {key : String} {value : Json} {condition : Condition}
    (h : c.conditionOfJson key value = .ok condition) (names : List String) :
    c.decoded (names.zip (List.replicate names.length value)) =
      .ok (names.map condition.on) := by
  induction names with
  | nil => rfl
  | cons name names ih =>
    rw [List.length_cons, List.replicate_succ, List.zip_cons_cons, decoded, List.mapM_cons]
    rw [conditionOfJson_rename h name]
    change (c.decoded _ >>= _) = _
    rw [ih]
    rfl

theorem decoded_replicate_error {key : String} {value : Json} {e : CompileError}
    (h : c.conditionOfJson key value = .error e) {names : List String} (hne : names ≠ []) :
    ∃ e', c.decoded (names.zip (List.replicate names.length value)) = .error e' := by
  obtain ⟨name, names, rfl⟩ := List.exists_cons_of_ne_nil hne
  rw [List.length_cons, List.replicate_succ, List.zip_cons_cons, decoded, List.mapM_cons]
  cases hc : c.conditionOfJson name value with
  | error e' => exact ⟨e', rfl⟩
  | ok condition =>
    rw [conditionOfJson_rename hc key] at h
    cases h

theorem entryOfKey_shared {value : Json} (hv : value.member? WhereMap.perFieldKey = none) :
    c.entryOfKey fields.key value = (do
      let condition ← c.conditionOfJson fields.key value
      .ok (.condition condition)) := by
  unfold entryOfKey
  rw [fields.multiple?_key, hv]
  dsimp only
  cases hc : c.conditionOfJson fields.key value with
  | error e => rfl
  | ok condition =>
    have hfield := (conditionOfJson_form hc).field_eq
    have hsimple : condition.isSimple = false := by
      rw [Condition.isSimple, hfield, fields.multiple?_key]
    change Except.ok (if condition.isSimple then _ else _) = _
    rw [hsimple]
    rfl

end Forms

section Agreement

variable (hs : c.softDelete = none) (fields : JoinedFields)
  (hk : fields.key.utf8ByteSize + 2 ≤ Identifier.maxLength) {values : List Json}
  (hv : fields.names.length = values.length)

theorem parenthesized_eq_inParentheses {x : Except CompileError Compiled}
    (h : ∀ compiled, x = .ok compiled → compiled.sql ≠ "") : (do
      let compiled ← x
      .ok { compiled with sql := parenthesized compiled.sql }) =
      x.map Compiled.inParentheses := by
  cases x with
  | error e => rfl
  | ok compiled =>
    change Except.ok { compiled with sql := parenthesized compiled.sql } = _
    rw [parenthesized_eq (h compiled rfl)]
    rfl

theorem bracket_ne_empty {key : String} (compiled : Compiled)
    (h : c.compile (.bracket key values) = .ok compiled) : compiled.sql ≠ "" := by
  intro he
  cases ((compile_sql_eq_empty_iff h).1 he).2

theorem inParentheses_ne_empty {x : Except CompileError Compiled} (compiled : Compiled)
    (h : x.map Compiled.inParentheses = .ok compiled) : compiled.sql ≠ "" := by
  cases x with
  | error e => cases h
  | ok compiled' =>
    cases h
    simp [Compiled.inParentheses]

include hs hk hv

theorem compile_wrapped (hd : 1 ≤ c.config.maxBracketDepth) {group : List Condition → Group}
    (hg : ∀ conditions, c.compileGroup (group conditions) =
      c.compileGroup (Group.ofConditions fields.connective conditions)) :
    (do
      let conditions ← c.decoded (fields.names.zip values)
      c.compileGroup [(.and, .group (group conditions))]) =
      (c.compile (.bracket fields.key values)).map Compiled.inParentheses := by
  rw [← parenthesized_eq_inParentheses bracket_ne_empty]
  rw [compile_joined fields hd (by omega) hv, bind_assoc]
  apply bind_congr
  intro conditions
  rw [compileGroup_group hs, hg]

theorem compile_listed (hd : 1 ≤ c.config.maxBracketDepth)
    (hr : WhereMap.isReserved fields.key = false) :
    c.compile (.map [(fields.key, .object [(WhereMap.perFieldKey, .array values)])]) =
      (c.compile (.bracket fields.key values)).map Compiled.inParentheses := by
  rw [compile_member hr, entryOfMember_key fields (by omega), entryOfKey_listed fields hv,
    bind_assoc]
  exact compile_wrapped hs fields hk hv hd fun _ => rfl

theorem compile_groupKey (hd : 2 ≤ c.config.maxBracketDepth) :
    c.compile (.map [(fields.groupKey, .array values)]) =
      ((c.compile (.bracket fields.key values)).map Compiled.inParentheses).map
        Compiled.inParentheses := by
  have hreserved : WhereMap.isReserved fields.groupKey = false := by
    simp [WhereMap.isReserved, JoinedFields.groupKey]
  have hinner := compile_wrapped hs fields hk hv (by omega) fun conditions =>
    compileGroup_leading .and (Group.ofConditions fields.connective conditions)
  rw [compile_member hreserved, entryOfMember_groupKey fields hd hk hv, bind_assoc]
  rw [← parenthesized_eq_inParentheses inParentheses_ne_empty, ← hinner, bind_assoc]
  apply bind_congr
  intro conditions
  exact compileGroup_group hs .and _

end Agreement

theorem compile_shared (hs : c.softDelete = none) (hd : 1 ≤ c.config.maxBracketDepth)
    (fields : JoinedFields) (hk : fields.key.utf8ByteSize + 2 ≤ Identifier.maxLength)
    (hr : WhereMap.isReserved fields.key = false) {value : Json}
    (hvalue : ∀ members, value ≠ .object members) :
    (c.compile (.map [(fields.key, value)])).toOption =
      (c.compile (.bracket fields.key (.replicate fields.names.length value))).toOption.map
        Compiled.inParentheses := by
  have hv : fields.names.length = (List.replicate fields.names.length value).length := by simp
  have hmember : value.member? WhereMap.perFieldKey = none := by
    cases value with
    | object members => exact absurd rfl (hvalue members)
    | _ => rfl
  rw [compile_member hr, entryOfMember_key fields (by omega), entryOfKey_shared fields hmember]
  cases hc : c.conditionOfJson fields.key value with
  | ok condition =>
    have hform := conditionOfJson_form hc
    have hclause := fields.clause_eq_group hform.field_eq hform.operand_ne
    have hwrapped := compile_wrapped hs fields hk hv hd fun _ => rfl
    rw [decoded_replicate hc] at hwrapped
    have hcompile : c.compileGroup [(.and, .condition condition)] =
        c.compileGroup [(.and, .group (Group.ofConditions fields.connective
          (fields.names.map condition.on)))] := by
      apply compileGroup_congr
      simp only [Group.clauses, Entry.clause, hclause]
    change c.compileGroup _ = _ at hwrapped
    change (c.compileGroup [(.and, .condition condition)]).toOption = _
    rw [hcompile, hwrapped]
    cases c.compile _ <;> rfl
  | error e =>
    obtain ⟨e', he⟩ := decoded_replicate_error hc fields.names_ne_nil
    rw [compile_joined fields hd (by omega) hv, he]
    rfl

structure FormsAgree (c : Compiler) (fields : JoinedFields) (values : List Json) : Prop where
  listed : c.compile (.map [(fields.key, .object [(WhereMap.perFieldKey, .array values)])]) =
    (c.compile (.bracket fields.key values)).map Compiled.inParentheses
  grouped : c.compile (.map [(fields.groupKey, .array values)]) =
    ((c.compile (.bracket fields.key values)).map Compiled.inParentheses).map
      Compiled.inParentheses
  /-- one value for all fields; only the errors may differ, since they name the field -/
  shared : ∀ value, (∀ members, value ≠ .object members) →
    values = .replicate fields.names.length value →
      (c.compile (.map [(fields.key, value)])).toOption =
        (c.compile (.bracket fields.key values)).toOption.map Compiled.inParentheses

theorem formsAgree_compile (hs : c.softDelete = none) (hd : 2 ≤ c.config.maxBracketDepth)
    (fields : JoinedFields) (hk : fields.key.utf8ByteSize ≤ 190)
    (hr : WhereMap.isReserved fields.key = false) {values : List Json}
    (hv : fields.names.length = values.length) : c.FormsAgree fields values := by
  have hk : fields.key.utf8ByteSize + 2 ≤ Identifier.maxLength := Nat.add_le_add_right hk 2
  constructor
  . exact compile_listed hs fields hk hv (by omega) hr
  . exact compile_groupKey hs fields hk hv hd
  . rintro value hvalue rfl
    exact compile_shared hs (by omega) fields hk hr hvalue

def aOrB : JoinedFields where
  separator := '|'
  connective := .or
  names := ["a", "b"]
  connective?_separator := rfl
  check_names := by
    intro name hn
    simp only [List.mem_cons, List.not_mem_nil, or_false] at hn
    rcases hn with rfl | rfl <;> rfl
  two_le_length := by decide

theorem formsAgree_aOrB : aOrB.key = "a|b" ∧ aOrB.groupKey = "(a|b)" ∧
    ∃ compiled, (standard {}).compile (.bracket "a|b" [.int 7, .int 7]) = .ok compiled ∧
      compiled.sql = "a = :p1 OR b = :p2" ∧
        (standard {}).compile (.map [("(a|b)", .array [.int 7, .int 7])]) =
          .ok compiled.inParentheses.inParentheses ∧
        (standard {}).compile (.map [("a|b", .int 7)]) = .ok compiled.inParentheses := by
  have h : (standard {}).FormsAgree aOrB [.int 7, .int 7] :=
    formsAgree_compile rfl (by decide) aOrB (by decide) (by decide) rfl
  have hkey : aOrB.key = "a|b" := by decide
  have hgroupKey : aOrB.groupKey = "(a|b)" := by decide
  have hgrouped := h.grouped
  have hshared := h.shared (.int 7) (by rintro members ⟨⟩) rfl
  rw [hkey] at hgrouped hshared
  rw [hgroupKey] at hgrouped
  have hok : ((standard {}).compile (.map [("a|b", .int 7)])).toOption.map Compiled.sql =
      some "( a = :p1 OR b = :p2 )" := by
    decide +kernel
  refine ⟨hkey, hgroupKey, ?_⟩
  cases hc : (standard {}).compile (.bracket "a|b" [.int 7, .int 7]) with
  | error e =>
    rw [hshared, hc] at hok
    cases hok
  | ok compiled =>
    rw [hc] at hgrouped hshared
    refine ⟨compiled, rfl, ?_, hgrouped, toOption_eq_some hshared⟩
    rw [hshared] at hok
    have hsql : "( " ++ compiled.sql ++ " )" = "( " ++ "a = :p1 OR b = :p2" ++ " )" :=
      Option.some.inj hok
    simp only [← String.toList_inj, String.toList_append, List.append_cancel_right_eq,
      List.append_cancel_left_eq] at hsql
    exact String.toList_inj.1 hsql

end Compiler

end SqlFilter
