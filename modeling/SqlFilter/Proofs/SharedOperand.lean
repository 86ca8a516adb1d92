import SqlFilter.Proofs.FilterForms
import SqlFilter.Proofs.RelatedRuns
import SqlFilter.Proofs.SingleCondition

/-!
This module contains conditions on joined fields that share their operand. Each field has a copy of
it, which is compiled with the binds that the copies before it leave. Names that are generated never
stand in the way of a copy, so that the condition compiles if it does on each field; a bind that the
operand declares does, because the next copy declares it again.
-/

namespace SqlFilter

open Binder BindTable

namespace BindTable

def IsGenerated (stem name : String) : Prop :=
  ∃ number, 0 < number ∧ name = stem ++ Decimal.natText number

structure AgreeBeside (stem : String) (t t' : BindTable) : Prop where
  stem_left : t.stem = stem
  stem_right : t'.stem = stem
  isRegistered_eq : ∀ name, ¬ IsGenerated stem name → t.isRegistered name = t'.isRegistered name

variable {stem : String} {t t' t'' : BindTable}

namespace AgreeBeside

theorem refl (h : t.stem = stem) : AgreeBeside stem t t :=
  ⟨h, h, fun _ _ => rfl⟩

theorem symm (h : AgreeBeside stem t t') : AgreeBeside stem t' t :=
  ⟨h.stem_right, h.stem_left, fun name hn => (h.isRegistered_eq name hn).symm⟩

theorem trans (h : AgreeBeside stem t t') (h' : AgreeBeside stem t' t'') :
    AgreeBeside stem t t'' :=
  ⟨h.stem_left, h'.stem_right,
    fun name hn => (h.isRegistered_eq name hn).trans (h'.isRegistered_eq name hn)⟩

theorem register (h : AgreeBeside stem t t') (v : Value) (type : BindType) :
    AgreeBeside stem t (t'.register v type).2 := by
  refine ⟨h.stem_left, h.stem_right, ?_⟩
  intro name hn
  have hne : ((t'.register v type).1 == name) = false := by
    rw [beq_eq_false_iff_ne]
    rintro rfl
    apply hn
    have hnumber := (t'.isLeastFree_freeNumber (t'.counter + 1)).le
    exact ⟨t'.freeNumber (t'.counter + 1), by omega, by rw [← h.stem_right]; rfl⟩
  rw [h.isRegistered_eq name hn, isRegistered, isRegistered, binds_register]
  simp [hne]

end AgreeBeside

theorem keeps_agreeBeside (stem : String) :
    Keeps (fun bind => ¬ IsGenerated stem bind.name) (AgreeBeside stem) where
  register type v t t' ht := .ok ⟨trivial, (((ht.register v type).symm).register v type).symm⟩
  scalar type v t t' ht := by
    have next {t t' : BindTable} (ht : AgreeBeside stem t t') :
        ∃ s n, Binder.scalar type v t' = .ok (s, n) ∧ AgreeBeside stem t n := by
      rcases scalar_cases type v t' with ⟨s, h⟩ | ⟨s, h⟩
      . exact ⟨s, _, h, ht⟩
      . exact ⟨s, _, h, ht.register v type⟩
    obtain ⟨_, n', h', hn'⟩ := next ht
    obtain ⟨_, n, h, hn⟩ := next hn'.symm
    rw [h, h']
    exact .ok ⟨trivial, hn.symm⟩
  registerNamed := by
    intro bind hb t t' ht
    unfold BindTable.registerNamed
    rw [ht.isRegistered_eq bind.name hb]
    split
    . exact .error _
    . apply Alongside.ok
      refine ⟨ht.stem_left, ht.stem_right, ?_⟩
      intro name hn
      have := ht.isRegistered_eq name hn
      unfold isRegistered at this ⊢
      rw [List.any_append, List.any_append, this]

theorem keeps_undeclared (first : BindTable) :
    Keeps (fun _ => False) (Same (AgreeBeside first.stem first)) := by
  apply keeps_same
  intro t call hcall ht
  cases call with
  | register v type => exact ht.register v type
  | registerNamed bind => exact (hcall bind rfl).elim

end BindTable

namespace Compiler

variable {c : Compiler} {first table : BindTable}

theorem parts_of_each {clauses : List (Connective × Clause)}
    (hdeclared : Clause.allDeclared c clauses = [])
    (h : ∀ part ∈ clauses, ∃ r, c.clauseText part.2 first = .ok r)
    (ht : AgreeBeside first.stem first table) :
    ∃ parts after, c.parts clauses table = .ok (parts, after) ∧
      AgreeBeside first.stem first after := by
  induction clauses generalizing table with
  | nil =>
    refine ⟨[], table, ?_, ht⟩
    rw [parts]
    rfl
  | cons part clauses ih =>
    obtain ⟨connective, clause⟩ := part
    rw [Clause.allDeclared, List.append_eq_nil_iff] at hdeclared
    simp only [List.mem_cons, forall_eq_or_imp] at h
    obtain ⟨r, hr⟩ := h.1
    have hnone (bind : Bind) : bind ∉ clause.declared c := by
      rw [hdeclared.1]
      exact List.not_mem_nil
    have hsteady := clauseText_steady (keeps_agreeBeside first.stem) clause
      fun bind hb => absurd hb (hnone bind)
    obtain ⟨⟨sql, next⟩, hclause, _⟩ := hsteady.exists_ok ht hr
    have hnext : AgreeBeside first.stem first next :=
      same_of_steady (clauseText_steady (keeps_undeclared first) clause hnone) ht hclause
    obtain ⟨others, after, hothers, hafter⟩ := ih hdeclared.2 h.2 hnext
    exact ⟨(connective, sql) :: others, after, parts_cons_eq_ok hclause hothers, hafter⟩

theorem allDeclared_eq_nil_iff {clauses : List (Connective × Clause)} :
    Clause.allDeclared c clauses = [] ↔ ∀ part ∈ clauses, part.2.declared c = [] := by
  induction clauses with
  | nil => simp [Clause.allDeclared]
  | cons part clauses ih => simp [Clause.allDeclared, ih]

theorem compileGroup_single_eq_ok {connective : Connective} {entry : Entry} {compiled : Compiled}
    (h : c.compileGroup [(connective, entry)] = .ok compiled) :
    ∃ sql table soft, c.clauseText entry.clause (.empty c.config.bindStem) = .ok (sql, table) ∧
      c.withSoftDelete sql table = .ok soft := by
  rw [compileGroup_single] at h
  obtain ⟨⟨sql, table⟩, hclause, h⟩ := bind_eq_ok.1 h
  obtain ⟨soft, hsoft, _⟩ := bind_eq_ok.1 h
  exact ⟨sql, table, soft, hclause, hsoft⟩

def Shares (c : Compiler) (fields : JoinedFields) (condition : Condition) : Prop :=
  (∀ name ∈ fields.names, ∃ compiled, c.compileCondition (condition.on name) = .ok compiled) →
    ∃ compiled, c.compileCondition (condition.on fields.key) = .ok compiled

variable {condition : Condition}

theorem clauseText_joined (fields : JoinedFields)
    (hoperand : ∀ operands, condition.operand ≠ .perField operands)
    (hdeclared : (condition.on fields.key).clause.declared c = [])
    (h : ∀ name ∈ fields.names, ∃ r, c.clauseText (condition.on name).clause first = .ok r) :
    (∀ name ∈ fields.names, (condition.on name).clause.declared c = []) ∧
      ∃ sql table, c.clauseText (condition.on fields.key).clause first = .ok (sql, table) ∧
        AgreeBeside first.stem first table := by
  have hgroup : (condition.on fields.key).clause = _ := fields.clause_eq_group rfl hoperand
  rw [Group.clauses_ofConditions, List.map_map] at hgroup
  rw [hgroup, Clause.declared] at hdeclared
  obtain ⟨parts, table, hparts, htable⟩ := parts_of_each hdeclared
    (by
      intro part hp
      obtain ⟨name, hn, rfl⟩ := List.mem_map.1 hp
      exact h name hn)
    (AgreeBeside.refl rfl)
  constructor
  . intro name hn
    exact allDeclared_eq_nil_iff.1 hdeclared (fields.connective, (condition.on name).clause)
      (List.mem_map_of_mem hn)
  . refine ⟨parenthesized (joinParts parts), table, ?_, htable⟩
    rw [hgroup, clauseText, run_bind, hparts]
    rfl

theorem shares_compileCondition (fields : JoinedFields)
    (hoperand : ∀ operands, condition.operand ≠ .perField operands)
    (hdeclared : (condition.on fields.key).clause.declared c = [])
    (hsoft : ∀ soft, c.softDelete = some soft → ∀ bind ∈ soft.clause.declared c,
      ¬ IsGenerated c.config.bindStem bind.name) : c.Shares fields condition := by
  intro h
  have halone : ∀ name ∈ fields.names, ∃ sql table soft,
      c.clauseText (condition.on name).clause (.empty c.config.bindStem) = .ok (sql, table) ∧
        c.withSoftDelete sql table = .ok soft := by
    intro name hn
    obtain ⟨compiled, hcompiled⟩ := h name hn
    exact compileGroup_single_eq_ok hcompiled
  obtain ⟨hnone, sql, table, htext, htable⟩ := clauseText_joined fields hoperand hdeclared
    fun name hn => by
      obtain ⟨sql, table, _, hclause, _⟩ := halone name hn
      exact ⟨(sql, table), hclause⟩
  -- what the filter is joined with compiles behind the first field, so also behind all of them
  obtain ⟨name, hn⟩ := List.exists_mem_of_ne_nil _ fields.names_ne_nil
  obtain ⟨first, alone, soft, hclause, hfirst⟩ := halone name hn
  have hsteady : Steady (Same (AgreeBeside c.config.bindStem (.empty c.config.bindStem)))
      (c.clauseText (condition.on name).clause) := by
    apply clauseText_steady (keeps_undeclared (.empty c.config.bindStem))
    rw [hnone name hn]
    exact fun _ => List.not_mem_nil
  have hbeside := same_of_steady hsteady (AgreeBeside.refl rfl) hclause
  obtain ⟨⟨after, last⟩, hafter, _⟩ := Paired.exists_ok
    (withSoftDelete_paired (keeps_agreeBeside _) hsoft first sql)
    (hbeside.symm.trans htable) hfirst
  refine ⟨⟨after, last.binds, c.placeholder⟩, ?_⟩
  rw [compileCondition_of_clauseText htext, completed, hafter]
  rfl

def tenantRows : Condition :=
  .of (.ofName "tenant") "=" (.raw ⟨":tenant", [⟨"tenant", .integer 3, .int⟩]⟩)

def mixedOperands : Condition :=
  .of .none "" (.conditions
    [("IN", .subQuery ⟨"users", [(.and, .condition (.ofOperator "c" .equal (.value (.integer 7))))],
        { fields := ["id"] }⟩),
      ("<>", .raw ⟨"lower(c)", []⟩), ("=", .value (.text ":p1")),
      ("NOT NULL", .raw ⟨"", [⟨"x", .null, .str⟩]⟩)] .and)

theorem exists_ok_of_isSome {names : List String}
    (h : ∀ name ∈ names, (c.compileCondition (condition.on name)).toOption.isSome = true) :
    ∀ name ∈ names, ∃ compiled, c.compileCondition (condition.on name) = .ok compiled := by
  intro name hn
  obtain ⟨compiled, hc⟩ := Option.isSome_iff_exists.1 (h name hn)
  exact ⟨compiled, toOption_eq_some hc⟩

theorem shares_compileCondition_mixedOperands :
    let c := { standard {} with softDelete := some tenantRows }
    (∀ operands, mixedOperands.operand ≠ .perField operands) ∧
      (mixedOperands.on aOrB.key).clause.declared c = [] ∧
        (∀ soft, c.softDelete = some soft → ∀ bind ∈ soft.clause.declared c,
          ¬ IsGenerated c.config.bindStem bind.name) ∧
          ∃ compiled, c.compileCondition (mixedOperands.on "a|b") = .ok compiled := by
  intro c
  have hoperand : ∀ operands, mixedOperands.operand ≠ .perField operands := by
    rintro operands ⟨⟩
  have hdeclared : (mixedOperands.on aOrB.key).clause.declared c = [] :=
    List.isEmpty_iff.1 (by decide +kernel)
  have hsoft : ∀ soft, c.softDelete = some soft → ∀ bind ∈ soft.clause.declared c,
      ¬ IsGenerated c.config.bindStem bind.name := by
    rintro soft ⟨⟩ bind hb ⟨number, _, hname⟩
    have hnames : (tenantRows.clause.declared c).map Bind.name = ["tenant"] := by decide +kernel
    have hmem := List.mem_map_of_mem (f := Bind.name) hb
    have hstem : c.config.bindStem = "p" := rfl
    rw [hnames, List.mem_singleton, hname, hstem, ← String.toList_inj] at hmem
    simp at hmem
  have halone : ∀ name ∈ ["a", "b"],
      (c.compileCondition (mixedOperands.on name)).toOption.isSome = true := by
    decide +kernel
  have hkey : aOrB.key = "a|b" := by decide
  refine ⟨hoperand, hdeclared, hsoft, ?_⟩
  rw [← hkey]
  exact shares_compileCondition aOrB hoperand hdeclared hsoft (exists_ok_of_isSome halone)

def loweredOperand : Condition :=
  .of .none "=" (.raw ⟨"lower(:x)", [⟨"x", .text "V", .str⟩]⟩)

def keptRows : Condition :=
  .of (.ofName "deleted") "=" (.raw ⟨":p2", [⟨"p2", .integer 0, .int⟩]⟩)

/-- A bind that is declared with the operand, or later under a name that the second copy of a value
takes, is declared once too often. -/
theorem not_shares_declaring :
    ¬ (standard {}).Shares aOrB loweredOperand ∧
      ¬ Shares { standard {} with softDelete := some keptRows } aOrB
        (.of .none "=" (.value (.integer 5))) := by
  have hkey : aOrB.key = "a|b" := by decide
  have refute (c : Compiler) (condition : Condition)
      (halone : ∀ name ∈ ["a", "b"],
        (c.compileCondition (condition.on name)).toOption.isSome = true)
      (hjoined : (c.compileCondition (condition.on "a|b")).toOption.isSome = false) :
      ¬ c.Shares aOrB condition := by
    intro h
    obtain ⟨compiled, hc⟩ := h (exists_ok_of_isSome halone)
    rw [← hkey, hc] at hjoined
    cases hjoined
  exact ⟨refute _ _ (by decide +kernel) (by decide +kernel),
    refute _ _ (by decide +kernel) (by decide +kernel)⟩

end Compiler

end SqlFilter
