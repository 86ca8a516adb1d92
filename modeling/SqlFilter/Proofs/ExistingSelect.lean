import SqlFilter.Proofs.OperatorForms
import SqlFilter.Proofs.SoftDelete
import SqlFilter.Proofs.WholeStatement

/-!
This module contains the proof that a sub-query whose rows have to exist is the select that a
catalog makes of the same parts: one is accepted exactly if the other is, they have the same text,
and they bind the same values. They are made apart, one of them with the binds of the condition
around it, so that their checks come in different orders.
-/

namespace SqlFilter

open Binder

namespace Compiler

variable {c : Compiler} {compiled : Compiled}

theorem compileGroup_eq_ok_iff (hs : c.softDelete = none) {group : Group} :
    c.compileGroup group = .ok compiled ↔
      ∃ sql table, c.groupText group (.empty c.config.bindStem) = .ok (sql, table) ∧
        compiled = ⟨sql, table.binds, c.placeholder⟩ := by
  constructor
  . intro h
    obtain ⟨filter, table, sql, after, hf, hsoft, rfl⟩ := compileGroup_eq_ok h
    simp only [withSoftDelete, hs] at hsoft
    cases hsoft
    exact ⟨filter, table, hf, rfl⟩
  . rintro ⟨sql, table, hg, rfl⟩
    unfold compileGroup withSoftDelete
    simp only [hs]
    change ((c.groupText group >>= pure) (.empty c.config.bindStem) >>= _) = _
    rw [run_bind, hg]
    rfl

theorem compileCondition_eq_ok_iff (hs : c.softDelete = none) {condition : Condition}
    (hne : ∀ table text after,
      c.clauseText condition.clause table = .ok (text, after) → text ≠ "") :
    c.compileCondition condition = .ok compiled ↔
      ∃ text table, c.clauseText condition.clause (.empty c.config.bindStem) = .ok (text, table) ∧
        compiled = ⟨text, table.binds, c.placeholder⟩ := by
  have hgroup : c.groupText [(.and, .condition condition)] =
      (c.clauseText condition.clause >>= fun text => pure (joinParts [(.and, text)])) := by
    simp only [groupText, Group.clauses, Entry.clause, parts]
    simp
  rw [compileCondition, compileGroup_eq_ok_iff hs, hgroup]
  simp only [run_bind, bind_eq_ok]
  constructor
  . rintro ⟨sql, table, ⟨⟨text, after⟩, ht, h⟩, rfl⟩
    cases h
    refine ⟨text, after, ht, ?_⟩
    simp [joinParts, hne _ _ _ ht]
  . rintro ⟨text, table, ht, rfl⟩
    refine ⟨text, table, ⟨_, ht, ?_⟩, rfl⟩
    simp [joinParts, hne _ _ _ ht]
    rfl

theorem testText_existing (ho : c.operators.resolve? Operator.existing.token = some .existing)
    (type : Option BindType) (connective : Connective) (argument : Argument NestedSelect) :
    c.testText .none ⟨Operator.existing.token, type, connective⟩ argument =
      Operator.existing.existingText argument := by
  unfold testText
  rw [OperatorTable.resolve, ho]
  rfl

theorem clauseText_existing (ho : c.operators.resolve? Operator.existing.token = some .existing)
    (query : SubQuery Group) :
    c.clauseText (Condition.existing query).clause =
      (fun text => "EXISTS ( " ++ text ++ " )") <$>
        c.selectText query.table query.selection (c.groupText query.filter) := by
  have hclause : (Condition.existing query).clause =
      .test .none ⟨Operator.existing.token, none, .and⟩
        (.subQuery ⟨query.table, Group.clauses query.filter, query.selection⟩) := rfl
  rw [hclause, clauseText, nested, testText_existing ho]
  rfl

theorem selectText_eq_ok_iff {name : String} {selection : Selection} {filter : Binder String}
    {table after : BindTable} {text : String} :
    c.selectText name selection filter table = .ok (text, after) ↔
      Identifier.check name = .ok () ∧ selection.IsValid ∧
        ∃ sql, filter table = .ok (sql, after) ∧
          text = c.templates.assemble .select
            (selectSlots (c.schema.listedFields selection) (c.schema.identifierText name)
              (whereClause sql) (c.schema.listedOrder selection) selection.windowClause) := by
  unfold selectText
  simp only [run_lift_bind]
  simp only [bind_eq_ok, Schema.identifier_eq_ok_iff, Schema.fieldsText_eq_ok_iff]
  constructor
  . rintro ⟨_, ⟨hname, rfl⟩, _, ⟨hfields, rfl⟩, h⟩
    rw [run_bind] at h
    obtain ⟨⟨sql, _⟩, hf, h⟩ := bind_eq_ok.1 h
    rw [run_lift_bind] at h
    obtain ⟨_, ho, h⟩ := bind_eq_ok.1 h
    obtain ⟨horder, rfl⟩ := Schema.orderClause_eq_ok_iff.1 ho
    obtain ⟨htext, rfl⟩ := Prod.mk.inj (Except.ok.inj h)
    exact ⟨hname, ⟨hfields, horder⟩, sql, hf, htext.symm⟩
  . rintro ⟨hname, hvalid, sql, hf, rfl⟩
    refine ⟨_, ⟨hname, rfl⟩, _, ⟨hvalid.fields, rfl⟩, ?_⟩
    rw [run_bind, bind_eq_ok]
    refine ⟨_, hf, ?_⟩
    rw [run_lift_bind, bind_eq_ok]
    exact ⟨_, Schema.orderClause_eq_ok_iff.2 ⟨hvalid.orderBy, rfl⟩, rfl⟩

theorem compileCondition_existing_eq_ok_iff (hs : c.softDelete = none)
    (ho : c.operators.resolve? Operator.existing.token = some .existing) {query : SubQuery Group} :
    c.compileCondition (.existing query) = .ok compiled ↔
      ∃ text table, c.selectText query.table query.selection (c.groupText query.filter)
          (.empty c.config.bindStem) = .ok (text, table) ∧
        compiled = ⟨"EXISTS ( " ++ text ++ " )", table.binds, c.placeholder⟩ := by
  have hrun (table : BindTable) (text : String) (after : BindTable) :
      c.clauseText (Condition.existing query).clause table = .ok (text, after) ↔
        ∃ inner, c.selectText query.table query.selection (c.groupText query.filter) table =
          .ok (inner, after) ∧ text = "EXISTS ( " ++ inner ++ " )" := by
    rw [clauseText_existing ho, map_eq_pure_bind, run_bind, bind_eq_ok]
    constructor
    . rintro ⟨⟨inner, _⟩, hi, h⟩
      cases h
      exact ⟨inner, hi, rfl⟩
    . rintro ⟨inner, hi, rfl⟩
      exact ⟨_, hi, rfl⟩
  have hne (table : BindTable) (text : String) (after : BindTable)
      (h : c.clauseText (Condition.existing query).clause table = .ok (text, after)) :
      text ≠ "" := by
    obtain ⟨inner, -, rfl⟩ := (hrun _ _ _).1 h
    simp
  rw [compileCondition_eq_ok_iff hs hne]
  simp only [hrun]
  constructor
  . rintro ⟨_, table, ⟨inner, hi, rfl⟩, rfl⟩
    exact ⟨inner, table, hi, rfl⟩
  . rintro ⟨inner, table, hi, rfl⟩
    exact ⟨_, table, ⟨inner, hi, rfl⟩, rfl⟩

end Compiler

namespace Catalog

variable {catalog : Catalog} {name : String}

theorem compile_eq_ok_iff {c : Compiler} (hc : catalog.compiler name = .ok c) {input : WhereInput}
    {compiled : Compiled} :
    catalog.compile name input = .ok compiled ↔ c.compile input = .ok compiled := by
  rw [compile, hc]
  change Except.mapError _ _ = _ ↔ _
  cases c.compile input <;> simp [Except.mapError]

theorem compiler_eq_ok_new {entry : CatalogTable} {c : Compiler}
    (ht : catalog.table name = .ok entry) (hc : catalog.compiler name = .ok c) :
    ∃ operators,
      OperatorTable.addAliases catalog.config.compiler.operatorAliases .standard = .ok operators ∧
        c = { config := catalog.config.compiler
              operators := operators
              schema := entry.schema
              placeholder := catalog.config.dialect.placeholder
              softDelete := entry.softDelete } := by
  obtain ⟨entry', ht', hc⟩ := bind_eq_ok.1 hc
  rw [ht] at ht'
  cases ht'
  obtain ⟨_, hnew, hc⟩ := bind_eq_ok.1 hc
  obtain ⟨operators, ha, hnew⟩ := bind_eq_ok.1 (mapError_eq_ok hnew)
  cases hnew
  cases hc
  exact ⟨operators, ha, rfl⟩

def KeepsExisting (catalog : Catalog) : Prop :=
  ∀ operators,
    OperatorTable.addAliases catalog.config.compiler.operatorAliases .standard = .ok operators →
      operators.resolve? Operator.existing.token = some .existing

theorem keepsExisting_of_ne (h : ∀ entry ∈ catalog.config.compiler.operatorAliases,
    OperatorTable.normalize entry.1 ≠ Operator.existing.token) : catalog.KeepsExisting :=
  fun _ ha => OperatorTable.resolve?_token_of_addAliases ha h
    (OperatorTable.standard_resolve?_token .existing)

structure NestsSelect (catalog : Catalog) (name : String) (filter : Group) (selection : Selection) :
    Prop where
  accepts : (∃ c compiled, catalog.compiler name = .ok c ∧
      c.compileCondition (.existing ⟨name, filter, selection⟩) = .ok compiled) ↔
    ∃ statement, catalog.select name (.group filter) selection = .ok statement
  agrees : ∀ c compiled statement, catalog.compiler name = .ok c →
    c.compileCondition (.existing ⟨name, filter, selection⟩) = .ok compiled →
      catalog.select name (.group filter) selection = .ok statement →
        compiled.sql = "EXISTS ( " ++ statement.sql ++ " )" ∧
          compiled.binds.map Bind.value = statement.values

section NestsSelect

variable {schema : Schema} (ht : catalog.table name = .ok ⟨schema, none⟩)
  (hstyle : catalog.config.dialect.placeholder = .named)

include ht hstyle

theorem select_group_eq_ok_iff {c : Compiler} (hc : catalog.compiler name = .ok c)
    {filter : Group} {selection : Selection} {statement : Statement} :
    catalog.select name (.group filter) selection = .ok statement ↔
      ∃ text table, c.selectText name selection (c.groupText filter)
          (.empty c.config.bindStem) = .ok (text, table) ∧
        statement = ⟨text, table.binds.map Bind.value⟩ := by
  obtain ⟨operators, -, rfl⟩ := compiler_eq_ok_new ht hc
  simp only [select_eq_ok_iff ht, compile_eq_ok_iff hc, Compiler.selectText_eq_ok_iff]
  simp only [Compiler.compile, Compiler.groupOf]
  constructor
  . rintro ⟨_, hcompile, hname, hvalid, rfl⟩
    obtain ⟨sql, table, hf, rfl⟩ := (Compiler.compileGroup_eq_ok_iff rfl).1 hcompile
    refine ⟨_, table, ⟨hname, hvalid, sql, hf, rfl⟩, ?_⟩
    rw [hstyle]
    rfl
  . rintro ⟨_, table, ⟨hname, hvalid, sql, hf, rfl⟩, rfl⟩
    refine ⟨_, (Compiler.compileGroup_eq_ok_iff rfl).2 ⟨sql, table, hf, rfl⟩, hname, hvalid, ?_⟩
    rw [hstyle]
    rfl

theorem nestsSelect (ho : catalog.KeepsExisting) (filter : Group) (selection : Selection) :
    catalog.NestsSelect name filter selection := by
  have nested {c : Compiler} (hc : catalog.compiler name = .ok c) {compiled : Compiled} :
      c.compileCondition (.existing ⟨name, filter, selection⟩) = .ok compiled ↔
        ∃ text table, c.selectText name selection (c.groupText filter)
            (.empty c.config.bindStem) = .ok (text, table) ∧
          compiled = ⟨"EXISTS ( " ++ text ++ " )", table.binds, c.placeholder⟩ := by
    obtain ⟨operators, ha, rfl⟩ := compiler_eq_ok_new ht hc
    exact Compiler.compileCondition_existing_eq_ok_iff rfl (ho operators ha)
  constructor
  . constructor
    . rintro ⟨c, compiled, hc, h⟩
      obtain ⟨text, table, hs, -⟩ := (nested hc).1 h
      exact ⟨_, (select_group_eq_ok_iff ht hstyle hc).2 ⟨text, table, hs, rfl⟩⟩
    . rintro ⟨statement, h⟩
      obtain ⟨c, hc, -⟩ := bind_eq_ok.1 h
      obtain ⟨text, table, hs, -⟩ := (select_group_eq_ok_iff ht hstyle hc).1 h
      exact ⟨c, _, hc, (nested hc).2 ⟨text, table, hs, rfl⟩⟩
  . intro c compiled statement hc hn h
    obtain ⟨text, table, hs, rfl⟩ := (nested hc).1 hn
    obtain ⟨text', table', hs', rfl⟩ := (select_group_eq_ok_iff ht hstyle hc).1 h
    rw [hs] at hs'
    cases hs'
    exact ⟨rfl, rfl⟩

end NestsSelect

def named : Catalog where
  config := { compiler := { operatorAliases := [("at least", ">=")] } }
  tables := [("posts", { schema := {} })]

def linkedPosts : Group :=
  Group.all [.condition (.ofOperator "stars" .greaterEqual (.value (.integer 3))),
    .raw ⟨"author = users.id OR author = :me", [⟨"me", .integer 1, .int⟩]⟩]

theorem nestsSelect_linkedPosts :
    named.table "posts" = .ok ⟨{}, none⟩ ∧ named.config.dialect.placeholder = .named ∧
      named.KeepsExisting ∧ ∃ c compiled statement, named.compiler "posts" = .ok c ∧
        c.compileCondition (.existing ⟨"posts", linkedPosts, newest⟩) = .ok compiled ∧
        named.select "posts" (.group linkedPosts) newest = .ok statement ∧
        compiled.sql = "EXISTS ( SELECT * FROM posts WHERE stars >= :p1 AND " ++
          "( author = users.id OR author = :me ) ORDER BY id DESC LIMIT 2 )" ∧
        compiled.binds.map Bind.value = statement.values := by
  have hkeeps : named.KeepsExisting := keepsExisting_of_ne (by decide +kernel)
  have h := nestsSelect (rfl : named.table "posts" = .ok ⟨{}, none⟩) rfl hkeeps linkedPosts newest
  have hok : (named.select "posts" (.group linkedPosts) newest).toOption.map Statement.sql =
      some ("SELECT * FROM posts WHERE stars >= :p1 AND " ++
        "( author = users.id OR author = :me ) ORDER BY id DESC LIMIT 2") := by
    decide +kernel
  obtain ⟨statement, hs, hsql⟩ := Option.map_eq_some_iff.1 hok
  have hs := toOption_eq_some hs
  obtain ⟨c, compiled, hc, hcompile⟩ := h.accepts.2 ⟨statement, hs⟩
  obtain ⟨htext, hvalues⟩ := h.agrees c compiled statement hc hcompile hs
  refine ⟨rfl, rfl, hkeeps, c, compiled, statement, hc, hcompile, hs, ?_, hvalues⟩
  rw [htext, hsql]
  decide +kernel

end Catalog

end SqlFilter
