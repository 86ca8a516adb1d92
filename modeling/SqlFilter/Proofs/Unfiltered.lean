import SqlFilter.Proofs.KeyReading
import SqlFilter.Proofs.Pruning
import SqlFilter.Proofs.WholeStatement

/-!
This module contains the proof that statements are filtered unless there is nothing to filter by: a
select or a delete goes on with a condition behind its table exactly if its table has one for all
filters, or its own filter has one.
-/

namespace SqlFilter

open SqlFilter.Bracket

theorem Group.isVacant_joined (connective : Connective) (entries : List Entry) :
    Group.isVacant (Group.joined connective entries) = entries.all Entry.isVacant := by
  induction entries with
  | nil => rfl
  | cons entry entries ih =>
    rw [List.all_cons, ← ih]
    rfl

def WhereInput.isVacant : WhereInput → Bool
  | .group g => Group.isVacant g
  | .bracket _ _ => false
  | .map entries => entries.all fun member => WhereMap.isReserved member.1

namespace Compiler

variable {c : Compiler}

mutual

theorem isVacant_entryOfNode :
    (node : BracketNode) → IsPart node → {values : List Json} → {r : Entry × List Json} →
      c.entryOfNode node values = .ok r → r.1.isVacant = false
  | .field name _, _, value :: values, r, h => by
    rw [entryOfNode] at h
    obtain ⟨condition, _, h⟩ := bind_eq_ok.1 h
    cases h
    rfl
  | .field _ _, _, [], r, h => by
    rw [entryOfNode] at h
    cases h
  | .group nodes _, hn, values, r, h => by
    have hn : WellFormed nodes := hn
    rw [entryOfNode] at h
    obtain ⟨⟨group, rest⟩, hg, h⟩ := bind_eq_ok.1 h
    cases h
    exact isVacant_groupOfNodes nodes hn.ne_nil hn.parts hg

theorem isVacant_groupOfNodes :
    (nodes : List BracketNode) → nodes ≠ [] → (∀ node ∈ nodes, IsPart node) →
      {connective : Connective} → {values : List Json} → {r : Group × List Json} →
        c.groupOfNodes connective nodes values = .ok r → Group.isVacant r.1 = false
  | [], hne, _, _, _, _, _ => absurd rfl hne
  | node :: nodes, _, hn, connective, values, r, h => by
    rw [groupOfNodes] at h
    obtain ⟨⟨entry, rest⟩, he, h⟩ := bind_eq_ok.1 h
    obtain ⟨⟨group, _⟩, _, h⟩ := bind_eq_ok.1 h
    cases h
    rw [Group.isVacant, isVacant_entryOfNode node (hn node List.mem_cons_self) he, Bool.false_and]

end

theorem isVacant_groupOfBracket {key : String} {nodes : List BracketNode}
    (hp : Bracket.parse c.config.maxBracketDepth key = .ok nodes) {values : List Json}
    {group : Group} (h : c.groupOfBracket nodes values = .ok group) :
    Group.isVacant group = false := by
  have hn := (parse_eq_ok_iff.1 hp).2.1
  unfold groupOfBracket at h
  dsimp only at h
  split at h
  . obtain ⟨r, hr, h⟩ := bind_eq_ok.1 h
    cases h
    exact isVacant_groupOfNodes nodes hn.ne_nil hn.parts hr
  . cases h

theorem isVacant_entryOfKey {key : String} {value : Json} {entry : Entry}
    (h : c.entryOfKey key value = .ok entry) : entry.isVacant = false := by
  unfold entryOfKey at h
  split at h
  . next connective names values hm _ =>
    dsimp only at h
    split at h
    . next hlength =>
      obtain ⟨conditions, hc, h⟩ := bind_eq_ok.1 h
      cases h
      have hnames := FieldTree.present_ne_nil_of_multiple? hm
      have hconditions := length_mapM hc
      rw [Entry.isVacant, Group.isVacant_joined]
      cases conditions with
      | nil =>
        rw [List.length_zip, hlength, Nat.min_self, ← hlength] at hconditions
        exact absurd (List.length_eq_zero_iff.1 hconditions.symm) hnames
      | cons condition conditions => rfl
    . cases h
  . obtain ⟨condition, _, h⟩ := bind_eq_ok.1 h
    cases h
    split <;> rfl

theorem isVacant_entryOfMember {key : String} {value : Json} {entry : Entry}
    (h : c.entryOfMember key value = .ok entry) : entry.isVacant = false := by
  unfold entryOfMember at h
  split at h
  . obtain ⟨nodes, hp, h⟩ := bind_eq_ok.1 h
    split at h
    . obtain ⟨group, hg, h⟩ := bind_eq_ok.1 h
      cases h
      exact isVacant_groupOfBracket hp hg
    . cases h
  . obtain ⟨_, _, h⟩ := bind_eq_ok.1 h
    exact isVacant_entryOfKey h

theorem isVacant_groupOf {input : WhereInput} {group : Group} (h : c.groupOf input = .ok group) :
    Group.isVacant group = input.isVacant := by
  cases input with
  | group group' =>
    cases h
    rfl
  | bracket key values =>
    obtain ⟨nodes, hp, h⟩ := bind_eq_ok.1 h
    exact isVacant_groupOfBracket hp h
  | map entries =>
    obtain ⟨connective, _, h⟩ := bind_eq_ok.1 h
    obtain ⟨parts, hp, h⟩ := bind_eq_ok.1 h
    cases h
    have hparts : ∀ part ∈ parts, part.isVacant = false := by
      intro part hm
      obtain ⟨member, _, he⟩ := exists_of_mem_mapM hp part hm
      exact isVacant_entryOfMember he
    have hlength := length_mapM hp
    rw [Group.isVacant_joined, WhereInput.isVacant]
    cases parts with
    | nil =>
      have hnone := List.filter_eq_nil_iff.1 (List.length_eq_zero_iff.1 hlength.symm)
      rw [List.all_nil, eq_comm, List.all_eq_true]
      simpa using hnone
    | cons part parts =>
      obtain ⟨member, hm⟩ := List.exists_mem_of_length_pos (by rw [← hlength]; simp)
      rw [List.all_cons, hparts part List.mem_cons_self, Bool.false_and]
      rw [eq_comm, List.all_eq_false]
      rw [List.mem_filter] at hm
      exact ⟨member, hm.1, by simpa using hm.2⟩

theorem compile_sql_eq_empty_iff {input : WhereInput} {compiled : Compiled}
    (h : c.compile input = .ok compiled) :
    compiled.sql = "" ↔ c.softDelete = none ∧ input.isVacant = true := by
  obtain ⟨group, hg, h⟩ := bind_eq_ok.1 h
  rw [compileGroup_sql_eq_empty_iff h, isVacant_groupOf hg]

end Compiler

def Statement.HasCondition (statement : Statement) (front : String) : Prop :=
  ∃ condition, statement.sql = front ++ " WHERE" ++ condition

theorem order_append_window_ne (schema : Schema) (selection : Selection) (condition : String) :
    schema.listedOrder selection ++ selection.windowClause ≠ " WHERE" ++ condition := by
  intro h
  have h := congrArg (fun s => s.toList[1]?) h
  simp only [Schema.listedOrder, Selection.windowClause, String.toList_append] at h
  split at h
  . split at h
    . simp at h
    . next hwindow =>
      obtain ⟨fields, order, limit, offset⟩ := selection
      cases limit with
      | none =>
        cases offset with
        | none => exact hwindow rfl
        | some n => simp [Window.sql] at h
      | some n => cases offset <;> simp [Window.sql] at h
  . simp at h

structure CatalogTable.Unfiltered (entry : CatalogTable) (input : WhereInput) : Prop where
  softDelete : entry.softDelete = none
  input : input.isVacant = true

namespace Catalog

variable {catalog : Catalog} {name : String} {entry : CatalogTable} {input : WhereInput}
  {compiled : Compiled} {statement : Statement}

theorem compile_sql_eq_empty_iff (ht : catalog.table name = .ok entry)
    (h : catalog.compile name input = .ok compiled) :
    compiled.sql = "" ↔ entry.Unfiltered input := by
  obtain ⟨compiler, hc, h⟩ := bind_eq_ok.1 h
  obtain ⟨_, _, hsoft⟩ := compiler_eq_ok ht hc
  rw [Compiler.compile_sql_eq_empty_iff (mapError_eq_ok h), hsoft]
  exact ⟨fun h => ⟨h.1, h.2⟩, fun h => ⟨h.softDelete, h.input⟩⟩

theorem hasCondition_finish {front : String} {c : Char} (hf : Text.IsInert front.toList)
    (hc : front.toList.head? = some c) (hb : Text.isBlank c = false) (hne : compiled.sql ≠ "")
    (behind : String) :
    (finish (String.ofList (Text.trimChars (front ++ compiled.whereClause ++ behind).toList))
      compiled).HasCondition front := by
  have htext : front ++ compiled.whereClause ++ behind =
      front ++ " WHERE" ++ (" " ++ compiled.sql ++ behind) := by
    rw [Compiled.whereClause, whereClause_of_ne_empty hne, ← String.toList_inj]
    simp
  have hhead : (front ++ " WHERE").toList.head? = some c := by
    rw [String.toList_append, List.head?_append, hc]
    rfl
  have hlast : (front ++ " WHERE").toList.getLast? = some 'E' := by simp
  obtain ⟨rest, hrest⟩ := Text.exists_trimChars_append hhead hb hlast (by decide)
    (" " ++ compiled.sql ++ behind).toList
  have hinert : Text.IsInert (front ++ " WHERE").toList := by
    rw [String.toList_append]
    exact hf.append (by decide)
  rw [htext, String.toList_append, hrest, String.ofList_append, String.ofList_toList]
  refine ⟨(compiled.withSql (String.ofList rest)).finish.sql, ?_⟩
  change (compiled.withSql _).finish.sql = _
  rw [Compiled.finish_front compiled hinert]

theorem hasCondition_iff {front : String} (behind : String)
    (hbehind : ∀ condition, behind ≠ " WHERE" ++ condition)
    (hempty : compiled.sql = "" → statement.sql = front ++ behind)
    (hcondition : compiled.sql ≠ "" → statement.HasCondition front) :
    statement.HasCondition front ↔ compiled.sql ≠ "" := by
  refine ⟨?_, hcondition⟩
  rintro ⟨condition, h⟩ he
  rw [hempty he, String.append_assoc, ← String.toList_inj, String.toList_append,
    String.toList_append, List.append_cancel_left_eq, String.toList_inj] at h
  exact hbehind condition h

section Finished

variable {selection : Selection} (schema : Schema) (hname : Identifier.check name = .ok ())

include hname

theorem delete_sql_of_eq_empty (he : compiled.sql = "") :
    (finish (Templates.standard.assemble .delete
      (Templates.deleteSlots (schema.identifierText name) compiled.whereClause)) compiled).sql =
        "DELETE FROM " ++ schema.identifierText name := by
  rw [delete_sql hname (.of_eq_empty he), compiled.finish_sql_eq_empty_iff.2 he]
  exact String.append_empty

theorem delete_hasCondition_iff : (finish (Templates.standard.assemble .delete
    (Templates.deleteSlots (schema.identifierText name) compiled.whereClause))
      compiled).HasCondition ("DELETE FROM " ++ schema.identifierText name) ↔
        compiled.sql ≠ "" := by
  apply hasCondition_iff ""
  . simp
  . intro he
    rw [delete_sql_of_eq_empty schema hname he, String.append_empty]
  . intro hne
    unfold Templates.assemble
    rw [Templates.fill_delete]
    have := hasCondition_finish (isInert_deleteFront schema hname) (by simp)
      (by decide : Text.isBlank 'D' = false) hne ""
    rwa [String.append_empty] at this

variable (hvalid : selection.IsValid)

include hvalid

theorem select_sql_of_eq_empty (he : compiled.sql = "") :
    (finish (Templates.standard.assemble .select
      (selectSlots (schema.listedFields selection) (schema.identifierText name)
        compiled.whereClause (schema.listedOrder selection) selection.windowClause)) compiled).sql =
      "SELECT " ++ schema.listedFields selection ++ " FROM " ++ schema.identifierText name ++
        schema.listedOrder selection ++ selection.windowClause := by
  have hnone : whereClause "" = "" := rfl
  rw [select_sql hname hvalid (.of_eq_empty he), compiled.finish_sql_eq_empty_iff.2 he, hnone,
    String.append_empty]

theorem select_hasCondition_iff : (finish (Templates.standard.assemble .select
    (selectSlots (schema.listedFields selection) (schema.identifierText name)
      compiled.whereClause (schema.listedOrder selection) selection.windowClause))
        compiled).HasCondition ("SELECT " ++ schema.listedFields selection ++ " FROM " ++
          schema.identifierText name) ↔ compiled.sql ≠ "" := by
  apply hasCondition_iff (schema.listedOrder selection ++ selection.windowClause)
  . exact order_append_window_ne schema selection
  . intro he
    rw [select_sql_of_eq_empty schema hname hvalid he, String.append_assoc]
  . intro hne
    unfold Templates.assemble
    rw [Templates.fill_select]
    have := hasCondition_finish (isInert_selectFront schema hname hvalid) (by simp)
      (by decide : Text.isBlank 'S' = false) hne
        (schema.listedOrder selection ++ selection.windowClause)
    rwa [← String.append_assoc] at this

end Finished

structure FiltersAlways (catalog : Catalog) (entry : CatalogTable) (name : String)
    (input : WhereInput) : Prop where
  compile : ∀ compiled, catalog.compile name input = .ok compiled →
    (compiled.sql = "" ↔ entry.Unfiltered input)
  delete : ∀ statement, catalog.delete name input = .ok statement →
    (statement.HasCondition ("DELETE FROM " ++ entry.schema.identifierText name) ↔
        ¬entry.Unfiltered input) ∧
      (entry.Unfiltered input →
        statement.sql = "DELETE FROM " ++ entry.schema.identifierText name)
  select : ∀ selection statement, catalog.select name input selection = .ok statement →
    (statement.HasCondition ("SELECT " ++ entry.schema.listedFields selection ++ " FROM " ++
          entry.schema.identifierText name) ↔ ¬entry.Unfiltered input) ∧
      (entry.Unfiltered input →
        statement.sql = "SELECT " ++ entry.schema.listedFields selection ++ " FROM " ++
          entry.schema.identifierText name ++ entry.schema.listedOrder selection ++
            selection.windowClause)
  bracket : ∀ key values compiled, catalog.compile name (.bracket key values) = .ok compiled →
    compiled.sql ≠ ""
  pruned : ∀ (compiler : Compiler) (group : Group),
    (∀ part ∈ Group.pruned group, part.2.isVacant = false) ∧
      compiler.compileGroup (Group.pruned group) = compiler.compileGroup group

theorem filtersAlways (ht : catalog.table name = .ok entry) (input : WhereInput) :
    catalog.FiltersAlways entry name input := by
  have hcompile (compiled : Compiled) (h : catalog.compile name input = .ok compiled) :
      compiled.sql = "" ↔ entry.Unfiltered input := compile_sql_eq_empty_iff ht h
  constructor
  . exact hcompile
  . intro statement h
    obtain ⟨compiled, hc, hname, rfl⟩ := (delete_eq_ok_iff ht).1 h
    rw [← hcompile compiled hc]
    exact ⟨delete_hasCondition_iff entry.schema hname,
      delete_sql_of_eq_empty entry.schema hname⟩
  . intro selection statement h
    obtain ⟨compiled, hc, hname, hvalid, rfl⟩ := (select_eq_ok_iff ht).1 h
    rw [← hcompile compiled hc]
    exact ⟨select_hasCondition_iff entry.schema hname hvalid,
      select_sql_of_eq_empty entry.schema hname hvalid⟩
  . intro key values compiled h he
    cases ((compile_sql_eq_empty_iff ht h).1 he).input
  . intro compiler group
    exact ⟨Group.isVacant_of_mem_pruned, compiler.compileGroup_pruned group⟩

def archived : Catalog where
  config := {}
  tables := [("users", { schema := {} }),
    ("posts", { schema := {}, softDelete := some Compiler.removedRows })]

def hollow : Group :=
  [(.and, .group []), (.or, .deferred [(.and, .group [])])]

theorem filtersAlways_hollow :
    archived.table "users" = .ok { schema := {} } ∧
      (∃ statement, archived.delete "users" (.group hollow) = .ok statement ∧
        statement.sql = "DELETE FROM users") ∧
      (∃ statement, archived.delete "posts" (.group hollow) = .ok statement ∧
        statement.HasCondition "DELETE FROM posts") ∧
      (∃ statement,
        archived.delete "users" (.map [("_op", .string "or"), ("a", .int 1)]) = .ok statement ∧
        statement.HasCondition "DELETE FROM users") := by
  have hposts : archived.table "posts" =
    .ok { schema := {}, softDelete := some Compiler.removedRows } := rfl
  have succeeds (name : String) (input : WhereInput)
      (h : (archived.delete name input).toOption.isSome = true) :
      ∃ statement, archived.delete name input = .ok statement :=
    (Option.isSome_iff_exists.1 h).imp fun _ => toOption_eq_some
  have husers (input : WhereInput) := filtersAlways (rfl : archived.table "users" = _) input
  refine ⟨rfl, ?_, ?_, ?_⟩
  . obtain ⟨statement, h⟩ := succeeds "users" (.group hollow) (by decide +kernel)
    exact ⟨statement, h, ((husers _).delete statement h).2 ⟨rfl, rfl⟩⟩
  . obtain ⟨statement, h⟩ := succeeds "posts" (.group hollow) (by decide +kernel)
    refine ⟨statement, h, ((filtersAlways hposts _).delete statement h).1.2 ?_⟩
    exact fun hu => nomatch hu.softDelete
  . obtain ⟨statement, h⟩ := succeeds "users" (.map [("_op", .string "or"), ("a", .int 1)])
      (by decide +kernel)
    refine ⟨statement, h, ((husers _).delete statement h).1.2 ?_⟩
    exact fun hu => nomatch hu.input

end Catalog

end SqlFilter
