import SqlFilter.Proofs.StatementText

/-!
This module contains the proof that statements are finished as their conditions are: a select or a
delete is the finished condition between the other clauses, with the same values.
-/

namespace SqlFilter

structure Selection.IsValid (selection : Selection) : Prop where
  fields : ∀ field ∈ selection.fields, Identifier.check field = .ok ()
  orderBy : ∀ order ∈ selection.orderBy, Identifier.check order.1 = .ok ()

namespace Schema

variable (schema : Schema)

def listedFields (selection : Selection) : String :=
  if selection.fields.isEmpty then "*"
  else ", ".intercalate (selection.fields.map schema.identifierText)

def listedOrder (selection : Selection) : String :=
  if selection.orderBy.isEmpty then ""
  else
    " ORDER BY " ++ ", ".intercalate
      (selection.orderBy.map fun order => schema.identifierText order.1 ++ " " ++ order.2.sql)

variable {schema}

theorem identifier_eq_ok_iff {name s : String} :
    schema.identifier name = .ok s ↔
      Identifier.check name = .ok () ∧ s = schema.identifierText name := by
  unfold identifier
  rw [bind_eq_ok]
  constructor
  . rintro ⟨_, hc, h⟩
    cases h
    exact ⟨check_of_checkField hc, rfl⟩
  . rintro ⟨hc, rfl⟩
    refine ⟨(), ?_, rfl⟩
    rw [checkField, hc]
    rfl

theorem fieldsText_eq_ok_iff {selection : Selection} {s : String} :
    schema.fieldsText selection = .ok s ↔
      (∀ field ∈ selection.fields, Identifier.check field = .ok ()) ∧
        s = schema.listedFields selection := by
  unfold fieldsText listedFields
  cases hf : selection.fields with
  | nil => simp [eq_comm]
  | cons field fields =>
    simp only [List.isEmpty_cons, Bool.false_eq_true, if_false]
    rw [bind_eq_ok]
    simp only [mapM_eq_ok_iff fun _ _ => identifier_eq_ok_iff, Except.ok.injEq]
    grind

theorem orderClause_eq_ok_iff {selection : Selection} {s : String} :
    schema.orderClause selection = .ok s ↔
      (∀ order ∈ selection.orderBy, Identifier.check order.1 = .ok ()) ∧
        s = schema.listedOrder selection := by
  have one (order : String × SortOrder) (t : String) : schema.orderText order = .ok t ↔
      Identifier.check order.1 = .ok () ∧
        t = schema.identifierText order.1 ++ " " ++ order.2.sql := by
    unfold orderText
    rw [bind_eq_ok]
    simp only [identifier_eq_ok_iff, Except.ok.injEq]
    grind
  unfold orderClause listedOrder
  rw [bind_eq_ok]
  simp only [mapM_eq_ok_iff one, Except.ok.injEq]
  cases ho : selection.orderBy <;> grind

end Schema

namespace Catalog

variable {catalog : Catalog} {name : String} {entry : CatalogTable} {input : WhereInput}
  {selection : Selection} {statement : Statement}

theorem compiler_eq_ok {compiler : Compiler} (ht : catalog.table name = .ok entry)
    (h : catalog.compiler name = .ok compiler) :
    compiler.schema = entry.schema ∧ compiler.templates = .standard ∧
      compiler.softDelete = entry.softDelete := by
  obtain ⟨entry', ht', h⟩ := bind_eq_ok.1 h
  rw [ht] at ht'
  cases ht'
  obtain ⟨compiler', hc, h⟩ := bind_eq_ok.1 h
  cases h
  obtain ⟨operators, _, hc⟩ := bind_eq_ok.1 (mapError_eq_ok hc)
  cases hc
  exact ⟨rfl, rfl, rfl⟩

theorem select_eq_ok_iff (ht : catalog.table name = .ok entry) :
    catalog.select name input selection = .ok statement ↔
      ∃ compiled, catalog.compile name input = .ok compiled ∧
        Identifier.check name = .ok () ∧ selection.IsValid ∧
          statement = finish (Templates.standard.assemble .select
            (selectSlots (entry.schema.listedFields selection) (entry.schema.identifierText name)
              compiled.whereClause (entry.schema.listedOrder selection) selection.windowClause))
            compiled := by
  unfold select compile
  rw [bind_eq_ok]
  constructor
  . rintro ⟨compiler, hc, h⟩
    obtain ⟨hschema, htemplates, _⟩ := compiler_eq_ok ht hc
    obtain ⟨⟨slots, compiled⟩, hs, h⟩ := bind_eq_ok.1 h
    obtain ⟨_, hcompile, hs⟩ := bind_eq_ok.1 (mapError_eq_ok hs)
    obtain ⟨fields, hf, hs⟩ := bind_eq_ok.1 hs
    obtain ⟨table, hi, hs⟩ := bind_eq_ok.1 hs
    obtain ⟨order, ho, hs⟩ := bind_eq_ok.1 hs
    cases hs
    cases h
    rw [hschema] at hf hi ho
    obtain ⟨hfields, rfl⟩ := Schema.fieldsText_eq_ok_iff.1 hf
    obtain ⟨hname, rfl⟩ := Schema.identifier_eq_ok_iff.1 hi
    obtain ⟨horder, rfl⟩ := Schema.orderClause_eq_ok_iff.1 ho
    refine ⟨compiled, ?_, hname, ⟨hfields, horder⟩, ?_⟩
    . rw [hc]
      change Except.mapError _ _ = _
      rw [hcompile]
      rfl
    . rw [htemplates]
  . rintro ⟨compiled, hcompile, hname, hvalid, rfl⟩
    obtain ⟨compiler, hc, hcompile⟩ := bind_eq_ok.1 hcompile
    obtain ⟨hschema, htemplates, _⟩ := compiler_eq_ok ht hc
    refine ⟨compiler, hc, ?_⟩
    dsimp only
    rw [mapError_eq_ok hcompile, hschema, htemplates]
    rw [Schema.fieldsText_eq_ok_iff.2 ⟨hvalid.fields, rfl⟩]
    rw [Schema.identifier_eq_ok_iff.2 ⟨hname, rfl⟩]
    rw [Schema.orderClause_eq_ok_iff.2 ⟨hvalid.orderBy, rfl⟩]
    rfl

theorem delete_eq_ok_iff (ht : catalog.table name = .ok entry) :
    catalog.delete name input = .ok statement ↔
      ∃ compiled, catalog.compile name input = .ok compiled ∧
        Identifier.check name = .ok () ∧
          statement = finish (Templates.standard.assemble .delete
            (Templates.deleteSlots (entry.schema.identifierText name) compiled.whereClause))
            compiled := by
  unfold delete compile
  rw [bind_eq_ok]
  constructor
  . rintro ⟨compiler, hc, h⟩
    obtain ⟨hschema, htemplates, _⟩ := compiler_eq_ok ht hc
    obtain ⟨⟨slots, compiled⟩, hs, h⟩ := bind_eq_ok.1 h
    obtain ⟨_, hcompile, hs⟩ := bind_eq_ok.1 (mapError_eq_ok hs)
    obtain ⟨table, hi, hs⟩ := bind_eq_ok.1 hs
    cases hs
    cases h
    rw [hschema] at hi
    obtain ⟨hname, rfl⟩ := Schema.identifier_eq_ok_iff.1 hi
    refine ⟨compiled, ?_, hname, ?_⟩
    . rw [hc]
      change Except.mapError _ _ = _
      rw [hcompile]
      rfl
    . rw [htemplates]
      rfl
  . rintro ⟨compiled, hcompile, hname, rfl⟩
    obtain ⟨compiler, hc, hcompile⟩ := bind_eq_ok.1 hcompile
    obtain ⟨hschema, htemplates, _⟩ := compiler_eq_ok ht hc
    refine ⟨compiler, hc, ?_⟩
    dsimp only
    rw [mapError_eq_ok hcompile, hschema, htemplates]
    rw [Schema.identifier_eq_ok_iff.2 ⟨hname, rfl⟩]
    rfl

end Catalog

theorem SafeText.isInert {style : QuoteStyle} {cs : List Char}
    (h : SafeText Text.isPlain style.char cs) : Text.IsInert cs := by
  intro c hc
  have := h.ne_of_mem hc
  exact ⟨this.1, this.2.1⟩

namespace Compiled

variable (compiled : Compiled)

def EndsTight : Prop :=
  ∀ c, compiled.sql.toList.getLast? = some c → Text.isBlank c = false

theorem EndsTight.of_eq_empty {compiled : Compiled} (h : compiled.sql = "") :
    compiled.EndsTight := by
  simp [EndsTight, h]

theorem finish_whereClause {front behind : String} (hf : Text.IsInert front.toList)
    (hb : Text.IsInert behind.toList) (hnext : behind = "" ∨ behind.toList.head? = some ' ') :
    (compiled.withSql (front ++ compiled.whereClause ++ behind)).finish =
      ⟨front ++ SqlFilter.whereClause compiled.finish.sql ++ behind, compiled.finish.values⟩ := by
  have hself : compiled.withSql compiled.sql = compiled := rfl
  rw [finish_back compiled hb hnext]
  unfold whereClause
  by_cases hsql : compiled.sql = ""
  . have hfinish := (finish_sql_eq_empty_iff compiled).2 hsql
    have hnone : SqlFilter.whereClause "" = "" := rfl
    rw [hsql] at hself
    rw [hsql, hfinish, hnone, finish_front compiled hf, hself, hfinish]
  . have hfinish := mt (finish_sql_eq_empty_iff compiled).1 hsql
    have hf : Text.IsInert (front ++ " WHERE ").toList := by
      rw [String.toList_append]
      exact hf.append (by decide)
    rw [whereClause_of_ne_empty hsql, whereClause_of_ne_empty hfinish]
    rw [← String.append_assoc, finish_front compiled hf, hself, ← String.append_assoc]

end Compiled

namespace Catalog

variable {catalog : Catalog} {name : String} {entry : CatalogTable} {input : WhereInput}
  {selection : Selection} {statement : Statement} {compiled : Compiled}

structure FinishesAlike (catalog : Catalog) (schema : Schema) (name : String) (input : WhereInput)
    (selection : Selection) : Prop where
  selects : (∃ statement, catalog.select name input selection = .ok statement) ↔
    (∃ compiled, catalog.compile name input = .ok compiled) ∧ Identifier.check name = .ok () ∧
      selection.IsValid
  select : ∀ compiled statement, catalog.compile name input = .ok compiled → compiled.EndsTight →
    catalog.select name input selection = .ok statement →
      statement.values = compiled.finish.values ∧
        statement.sql = "SELECT " ++ schema.listedFields selection ++ " FROM " ++
          schema.identifierText name ++ whereClause compiled.finish.sql ++
            schema.listedOrder selection ++ selection.windowClause
  deletes : (∃ statement, catalog.delete name input = .ok statement) ↔
    (∃ compiled, catalog.compile name input = .ok compiled) ∧ Identifier.check name = .ok ()
  delete : ∀ compiled statement, catalog.compile name input = .ok compiled → compiled.EndsTight →
    catalog.delete name input = .ok statement →
      statement.values = compiled.finish.values ∧
        statement.sql = "DELETE FROM " ++ schema.identifierText name ++
          whereClause compiled.finish.sql

section Inert

variable (schema : Schema) (hname : Identifier.check name = .ok ())

include hname

theorem isInert_deleteFront :
    Text.IsInert ("DELETE FROM " ++ schema.identifierText name).toList := by
  have hi : schema.IsIdentifier (schema.identifierText name) := ⟨name, hname, rfl⟩
  rw [String.toList_append]
  exact .append (by decide) hi.safe.isInert

theorem isInert_selectFront (hvalid : selection.IsValid) :
    Text.IsInert ("SELECT " ++ schema.listedFields selection ++ " FROM " ++
      schema.identifierText name).toList := by
  have hi : schema.IsIdentifier (schema.identifierText name) := ⟨name, hname, rfl⟩
  have hf := schema.fieldsText_eq_ok_iff.2 ⟨hvalid.fields, rfl⟩
  simp only [String.toList_append]
  refine .append (.append (.append (by decide) ?_) (by decide)) hi.safe.isInert
  exact ((Schema.safe_fieldsText hf).mono fun _ => Text.isPlain_of_isFlat).isInert

end Inert

theorem endsSolid_condition {schema : Schema} {table : String} (ht : schema.IsIdentifier table)
    (hc : compiled.EndsTight) : EndsSolid (table ++ compiled.whereClause) := by
  unfold Compiled.whereClause
  by_cases hsql : compiled.sql = ""
  . rw [hsql]
    exact ht.endsSolid.append_of_eq_empty_or (.inl rfl)
  . rw [whereClause_of_ne_empty hsql]
    have hlast := List.getLast?_eq_some_getLast (mt String.toList_eq_nil_iff.1 hsql)
    have hsolid : EndsSolid compiled.sql := ⟨_, hlast, hc _ hlast⟩
    exact (hsolid.append_left _).append_left _

theorem select_sql {schema : Schema} (hname : Identifier.check name = .ok ())
    (hvalid : selection.IsValid) (hc : compiled.EndsTight) :
    finish (Templates.standard.assemble .select
      (selectSlots (schema.listedFields selection) (schema.identifierText name)
        compiled.whereClause (schema.listedOrder selection) selection.windowClause)) compiled =
      ⟨"SELECT " ++ schema.listedFields selection ++ " FROM " ++ schema.identifierText name ++
        whereClause compiled.finish.sql ++ schema.listedOrder selection ++ selection.windowClause,
        compiled.finish.values⟩ := by
  have hi : schema.IsIdentifier (schema.identifierText name) := ⟨name, hname, rfl⟩
  have ho := schema.orderClause_eq_ok_iff.2 ⟨hvalid.orderBy, rfl⟩
  have hbehind := Schema.orderClause_append_windowClause ho
  have hends := ((endsSolid_condition hi hc).append_of_eq_empty_or
    (hbehind.imp_right And.left)).append_left
      ("SELECT " ++ schema.listedFields selection ++ " FROM ")
  simp only [← String.append_assoc] at hends
  have hinert : Text.IsInert (schema.listedOrder selection ++ selection.windowClause).toList := by
    rw [String.toList_append]
    exact (((Schema.orderClause_eq_ok ho).1.append (selection.windowClause_cases _).1).mono
      fun _ => Text.isPlain_of_isFlat).isInert
  rw [Templates.assemble_select hends]
  have := compiled.finish_whereClause (isInert_selectFront schema hname hvalid) hinert
    (hbehind.imp_right And.right)
  simp only [← String.append_assoc] at this
  exact this

theorem delete_sql {schema : Schema} (hname : Identifier.check name = .ok ())
    (hc : compiled.EndsTight) :
    finish (Templates.standard.assemble .delete
      (Templates.deleteSlots (schema.identifierText name) compiled.whereClause)) compiled =
      ⟨"DELETE FROM " ++ schema.identifierText name ++ whereClause compiled.finish.sql,
        compiled.finish.values⟩ := by
  have hi : schema.IsIdentifier (schema.identifierText name) := ⟨name, hname, rfl⟩
  have hends := (endsSolid_condition hi hc).append_left "DELETE FROM "
  rw [← String.append_assoc] at hends
  rw [Templates.assemble_delete hends]
  have := compiled.finish_whereClause (isInert_deleteFront schema hname)
    (by decide : Text.IsInert "".toList) (.inl rfl)
  simp only [String.append_empty] at this
  exact this

theorem finishesAlike (ht : catalog.table name = .ok entry) (input : WhereInput)
    (selection : Selection) : catalog.FinishesAlike entry.schema name input selection := by
  constructor
  . simp only [select_eq_ok_iff ht]
    grind
  . intro compiled statement hcompile htight h
    obtain ⟨compiled', hcompile', hname, hvalid, rfl⟩ := (select_eq_ok_iff ht).1 h
    rw [hcompile] at hcompile'
    cases hcompile'
    rw [select_sql hname hvalid htight]
    exact ⟨rfl, rfl⟩
  . simp only [delete_eq_ok_iff ht]
    grind
  . intro compiled statement hcompile htight h
    obtain ⟨compiled', hcompile', hname, rfl⟩ := (delete_eq_ok_iff ht).1 h
    rw [hcompile] at hcompile'
    cases hcompile'
    rw [delete_sql hname htight]
    exact ⟨rfl, rfl⟩

def numbered : Catalog where
  config := { dialect := { placeholder := .dollar } }
  tables := [("users", { schema := {} })]

def openLiteral : WhereInput :=
  .group (Group.all [.condition (.ofOperator "a" .equal (.value (.text "x"))),
    .raw ⟨"b = :b::int OR c = ' :b", [⟨"b", .integer 1, .int⟩]⟩])

def newest : Selection where
  orderBy := [("id", .descending)]
  window := { limit := some 2 }

theorem finishesAlike_openLiteral :
    numbered.table "users" = .ok { schema := {} } ∧
      ∃ compiled statement, numbered.compile "users" openLiteral = .ok compiled ∧
        compiled.EndsTight ∧ compiled.finish.sql = "a = $1 AND ( b = $2::int OR c = ' :b )" ∧
          numbered.select "users" openLiteral newest = .ok statement ∧
            statement.values = compiled.finish.values ∧
              statement.sql = "SELECT * FROM users WHERE a = $1 AND ( b = $2::int OR c = ' :b )" ++
                " ORDER BY id DESC LIMIT 2" := by
  have h := finishesAlike (rfl : numbered.table "users" = .ok { schema := {} }) openLiteral newest
  have hok : ((numbered.compile "users" openLiteral).toOption.map fun compiled =>
      (compiled.sql, compiled.finish.sql)) =
        some ("a = :p1 AND ( b = :b::int OR c = ' :b )",
          "a = $1 AND ( b = $2::int OR c = ' :b )") := by
    decide +kernel
  obtain ⟨compiled, hc, hsql⟩ := Option.map_eq_some_iff.1 hok
  rw [Prod.mk.injEq] at hsql
  have hc := toOption_eq_some hc
  have htight : compiled.EndsTight := by
    intro c hlast
    rw [hsql.1] at hlast
    cases hlast
    decide
  have hvalid : newest.IsValid := by
    constructor
    . simp [newest]
    . intro order ho
      rw [List.mem_singleton.1 ho]
      rfl
  obtain ⟨statement, hs⟩ := h.selects.2 ⟨⟨compiled, hc⟩, rfl, hvalid⟩
  obtain ⟨hvalues, htext⟩ := h.select compiled statement hc htight hs
  refine ⟨rfl, compiled, statement, hc, htight, hsql.2, hs, hvalues, ?_⟩
  rw [htext, hsql.2]
  decide +kernel

end Catalog

end SqlFilter
