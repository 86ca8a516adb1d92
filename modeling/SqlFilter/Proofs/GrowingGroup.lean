import SqlFilter.Proofs.RelatedRuns
import SqlFilter.Proofs.SingleCondition
import SqlFilter.Proofs.SoftDelete

/-!
This module contains groups that grow by an entry. What has been compiled stays as it is: the entry
is compiled with the binds that the group leaves, its text and its binds come behind those of the
group, and an error of the group is the first one still.
-/

namespace SqlFilter

open Binder BindTable

theorem joinParts_append_singleton (parts : List (Connective × String)) (connective : Connective)
    (sql : String) :
    joinParts (parts ++ [(connective, sql)]) =
      if sql = "" then joinParts parts
      else if joinParts parts = "" then sql
      else joinParts parts ++ " " ++ connective.sql ++ " " ++ sql := by
  by_cases hs : sql = ""
  . simp [joinParts, hs]
  . rw [if_neg hs]
    by_cases hp : joinParts parts = ""
    . rw [if_pos hp]
      have hall := joinParts_eq_empty_iff.1 hp
      have hfilter : parts.filter (fun part => !part.2.isEmpty) = [] := by
        rw [List.filter_eq_nil_iff]
        simpa using hall
      simp [joinParts, hfilter, hs]
    . rw [if_neg hp]
      cases hf : parts.filter fun part => !part.2.isEmpty with
      | nil => exact absurd (by rw [joinParts, hf]) hp
      | cons first rest => simp [joinParts, hf, hs, String.append_assoc]

namespace BindTable

def IsRun (stem : String) (table : BindTable) : Prop :=
  ∃ calls, table = run stem calls

theorem keeps_isRun (stem : String) : Keeps (fun _ => True) (Same (IsRun stem)) := by
  apply keeps_same
  rintro _ call _ ⟨calls, rfl⟩
  refine ⟨calls ++ [call], ?_⟩
  rw [run, run, List.foldl_append]
  rfl

end BindTable

namespace Compiler

variable {c : Compiler}

theorem isRun_of_groupText {group : Group} {sql : String} {table : BindTable}
    (h : c.groupText group (.empty c.config.bindStem) = .ok (sql, table)) :
    table.IsRun c.config.bindStem := by
  have hsteady : Steady (Same (IsRun c.config.bindStem)) (c.groupText group) :=
    (parts_steady (keeps_isRun _) _ fun _ _ => trivial).map _
  exact same_of_steady hsteady ⟨[], rfl⟩ h

theorem parts_append_singleton (clauses : List (Connective × Clause)) (connective : Connective)
    (clause : Clause) :
    c.parts (clauses ++ [(connective, clause)]) = (do
      let parts ← c.parts clauses
      let sql ← c.clauseText clause
      return parts ++ [(connective, sql)]) := by
  induction clauses with
  | nil => simp [parts]
  | cons part clauses ih =>
    obtain ⟨connective', clause'⟩ := part
    simp [parts, ih]

def grown (connective : Connective) (before sql : String) : String :=
  if sql = "" then before
  else if before = "" then sql
  else before ++ " " ++ connective.sql ++ " " ++ sql

theorem groupText_push (group : Group) (connective : Connective) (entry : Entry) :
    c.groupText (group.push connective entry) = (do
      let before ← c.groupText group
      let sql ← c.clauseText entry.clause
      return grown connective before sql) := by
  unfold groupText Group.push
  rw [Group.clauses_append]
  simp only [Group.clauses]
  rw [parts_append_singleton]
  simp [joinParts_append_singleton, grown]

structure Grows (c : Compiler) (group : Group) (connective : Connective) (entry : Entry)
    (before after : Compiled) : Prop where
  binds : before.binds <+: after.binds
  nodup : (after.binds.map Bind.name).Nodup
  entry : ∃ table sql table', c.groupText group (.empty c.config.bindStem) = .ok (before.sql, table) ∧
    table.binds = before.binds ∧ c.clauseText entry.clause table = .ok (sql, table') ∧
      table'.binds = after.binds ∧ after.sql = grown connective before.sql sql

theorem compileGroup_push (hs : c.softDelete = none) (group : Group) (connective : Connective)
    (entry : Entry) :
    (∀ e, c.compileGroup group = .error e →
        c.compileGroup (group.push connective entry) = .error e) ∧
      ∀ after, c.compileGroup (group.push connective entry) = .ok after →
        ∃ before, c.compileGroup group = .ok before ∧
          c.Grows group connective entry before after := by
  rw [compileGroup_eq, compileGroup_eq]
  simp only [completed_of_none hs]
  constructor
  . intro e h
    rw [groupText_push, run_bind]
    generalize c.groupText group (.empty c.config.bindStem) = x at h ⊢
    cases x with
    | error e' => exact h
    | ok r => cases h
  . intro after h
    obtain ⟨⟨sql, table'⟩, hpush, h⟩ := bind_eq_ok.1 h
    cases h
    have hrun := isRun_of_groupText hpush
    rw [groupText_push, run_bind] at hpush
    obtain ⟨⟨before, table⟩, hgroup, hpush⟩ := bind_eq_ok.1 hpush
    rw [run_bind] at hpush
    obtain ⟨⟨text, last⟩, hentry, hpush⟩ := bind_eq_ok.1 hpush
    cases hpush
    refine ⟨⟨before, table.binds, c.placeholder⟩, ?_, ?_⟩
    . rw [hgroup]
      rfl
    . constructor
      . exact (c.clauseText_ensures entry.clause).binds hentry
      . obtain ⟨calls, he⟩ := hrun
        rw [he]
        exact nodup_run calls _
      . exact ⟨table, text, _, hgroup, rfl, hentry, rfl, rfl⟩

def declaring : Entry :=
  .raw ⟨"x = :p1", [⟨"p1", .integer 1, .int⟩]⟩

def referring : Group :=
  [(.and, declaring), (.and, .condition (.ofOperator "a" .equal (.value (.text ":p1"))))]

def laterMembers : Entry :=
  .deferred [(.and, .condition (.ofOperator "b" .oneOf (.list [.integer 7, .integer 8])))]

theorem compileGroup_push_laterMembers :
    (standard {}).softDelete = none ∧
      (∃ before after, (standard {}).compileGroup (referring.push .or laterMembers) = .ok after ∧
        after.sql = "( x = :p1 ) AND a = :p1 OR ( b IN (:p2,:p3) )" ∧
          (standard {}).Grows referring .or laterMembers before after) ∧
        (standard {}).compileGroup ((referring.push .and declaring).push .or laterMembers) =
          .error (.duplicateBind "p1") := by
  have hgrows := compileGroup_push (c := standard {}) rfl referring .or laterMembers
  have hok : ((standard {}).compileGroup (referring.push .or laterMembers)).toOption.map
      Compiled.sql = some "( x = :p1 ) AND a = :p1 OR ( b IN (:p2,:p3) )" := by
    decide +kernel
  obtain ⟨after, hafter, hsql⟩ := Option.map_eq_some_iff.1 hok
  have hafter := toOption_eq_some hafter
  obtain ⟨before, _, h⟩ := hgrows.2 after hafter
  refine ⟨rfl, ⟨before, after, hafter, hsql, h⟩, ?_⟩
  apply (compileGroup_push rfl _ .or laterMembers).1
  rfl

end Compiler

end SqlFilter
