import SqlFilter.Proofs.ColumnCheck
import SqlFilter.Proofs.Ensures
import SqlFilter.Proofs.NestedDraft

/-!
This module contains the proof that a filter stays apart from the condition that every filter is
joined with: it is compiled as if there were no such condition, and the parentheses around it close
in front of the condition.
-/

namespace SqlFilter

open Binder Draft

namespace Compiler

def withoutSoftDelete (c : Compiler) : Compiler :=
  { c with softDelete := none }

section Clauses

variable (c : Compiler)

theorem guards_withoutSoftDelete : c.withoutSoftDelete.Guards (fun _ => True) c :=
  ⟨fun _ => .refl trivial _, fun _ => rfl, rfl, rfl⟩

theorem decodesAs_withoutSoftDelete : c.withoutSoftDelete.DecodesAs c :=
  ⟨fun _ => rfl, rfl, rfl⟩

mutual

-- no bind is lost, not even by raw texts and the errors of clauses
theorem clauseText_ensures :
    (clause : Clause) → Ensures (fun _ => True) (fun _ => True) (c.clauseText clause)
  | .test field comparison argument => by
    simp only [clauseText]
    have htest := testText_ensures (c := c) (fun _ _ => trivial) field comparison
      (nested_ensured argument)
    exact ⟨fun _ => trivial, fun _ => trivial, htest.binds⟩
  | .group clauses => by
    simp only [clauseText]
    exact (parts_ensures clauses).map fun _ => trivial
  | .raw fragment => by
    simp only [clauseText]
    exact (Ensures.raw (fun _ => trivial) fragment).map fun _ => trivial
  | .literal truth => by
    simp only [clauseText]
    split
    . exact .pure trivial
    . exact .throw trivial
  | .failure error => by
    simp only [clauseText]
    exact .throw trivial

theorem nested_ensured :
    (argument : Argument (SubQuery (List (Connective × Clause)))) →
      (c.nested argument).Ensured fun _ => True
  | .none => trivial
  | .value _ => trivial
  | .list _ => trivial
  | .raw _ => trivial
  | .subQuery ⟨table, filter, selection⟩ => by
    simp only [nested]
    change Ensures _ _ (c.selectText table selection (SqlFilter.joinParts <$> c.parts filter))
    apply (Ensures.lift (fun _ _ => trivial) fun _ _ => trivial).bind
    intro _ _
    apply (Ensures.lift (fun _ _ => trivial) fun _ _ => trivial).bind
    intro _ _
    have hfilter : Ensures (fun _ => True) (fun _ => True)
        (SqlFilter.joinParts <$> c.parts filter) := (parts_ensures filter).map fun _ => trivial
    apply hfilter.bind
    intro _ _
    apply (Ensures.lift (fun _ _ => trivial) fun _ _ => trivial).bind
    intro _ _
    exact .pure trivial
  | .column _ _ => trivial
  | .perField _ => trivial

theorem parts_ensures :
    (clauses : List (Connective × Clause)) →
      Ensures (fun _ => True) (fun _ => True) (c.parts clauses)
  | [] => by
    simp only [parts]
    exact .pure trivial
  | (connective, clause) :: clauses => by
    simp only [parts]
    apply (clauseText_ensures clause).bind
    intro _ _
    exact (parts_ensures clauses).map fun _ => trivial

end

theorem groupOf_withoutSoftDelete (input : WhereInput) :
    c.withoutSoftDelete.groupOf input = c.groupOf input :=
  c.decodesAs_withoutSoftDelete.groupOf_eq input

theorem groupText_withoutSoftDelete (group : Group) :
    c.withoutSoftDelete.groupText group = c.groupText group := by
  unfold groupText
  rw [c.guards_withoutSoftDelete.parts_eq fun _ => trivial]

end Clauses

structure Isolated (c : Compiler) (condition : Condition) (table : BindTable)
    (alone compiled : Compiled) : Prop where
  filterBinds : table.binds = alone.binds
  unfiltered : alone.sql = "" → table = .empty c.config.bindStem
  binds : alone.binds <+: compiled.binds
  balanced : Text.Balanced alone.sql.toList
  joined : ∃ soft after, c.clauseText condition.clause table = .ok (soft, after) ∧
    compiled.binds = after.binds ∧
      compiled.sql = (if alone.sql = "" then soft else "( " ++ alone.sql ++ " ) AND " ++ soft) ∧
        (alone.sql ≠ "" → ∃ inside, compiled.sql.toList = '(' :: inside ∧
          Bracket.closeGroup? 0 inside =
            some ((" " ++ alone.sql ++ " ").toList, (" AND " ++ soft).toList))

variable {c : Compiler} {condition : Condition} {input : WhereInput} {compiled : Compiled}

theorem compileGroup_eq_ok {group : Group} (h : c.compileGroup group = .ok compiled) :
    ∃ filter table sql after, c.groupText group (.empty c.config.bindStem) = .ok (filter, table) ∧
      c.withSoftDelete filter table = .ok (sql, after) ∧
        compiled = ⟨sql, after.binds, c.placeholder⟩ := by
  obtain ⟨⟨sql, after⟩, ht, h⟩ := bind_eq_ok.1 h
  cases h
  change (c.groupText group >>= c.withSoftDelete) _ = _ at ht
  rw [run_bind] at ht
  obtain ⟨⟨filter, table⟩, hf, ht⟩ := bind_eq_ok.1 ht
  exact ⟨filter, table, sql, after, hf, ht, rfl⟩

theorem compileGroup_withoutSoftDelete {group : Group} {filter : String} {table : BindTable}
    (h : c.groupText group (.empty c.config.bindStem) = .ok (filter, table)) :
    c.withoutSoftDelete.compileGroup group = .ok ⟨filter, table.binds, c.placeholder⟩ := by
  unfold compileGroup
  rw [groupText_withoutSoftDelete]
  change ((c.groupText group >>= fun sql => pure sql) (.empty c.config.bindStem) >>= _) = _
  rw [run_bind, h]
  rfl

theorem isolated_compile (hc : c.withoutSoftDelete.Regular) (hs : c.softDelete = some condition)
    (hi : input.rawFree c.config = true) (h : c.compile input = .ok compiled) :
    ∃ group table alone, c.groupOf input = .ok group ∧
      c.groupText group (.empty c.config.bindStem) = .ok (alone.sql, table) ∧
        c.withoutSoftDelete.compile input = .ok alone ∧
          c.Isolated condition table alone compiled := by
  obtain ⟨group, hg, h⟩ := bind_eq_ok.1 h
  have hraw : group.rawFree = true := groupOf_rawFree hi hg
  obtain ⟨filter, table, sql, after, hf, hsoft, rfl⟩ := compileGroup_eq_ok h
  have halone : c.withoutSoftDelete.compile input = .ok ⟨filter, table.binds, c.placeholder⟩ := by
    unfold compile
    rw [groupOf_withoutSoftDelete, hg]
    exact compileGroup_withoutSoftDelete hf
  -- the text of the filter is that of a draft
  have hwrites := groupText_writes hc.templates hraw (.empty c.config.bindStem)
    (BindTable.numbered_empty _)
  rw [groupText_withoutSoftDelete, hf] at hwrites
  obtain ⟨d, hd, hw⟩ := Option.map_eq_some_iff.1 hwrites.symm
  cases hw
  have hclosed := closed_groupDraft hraw hd _ (BindTable.numbered_empty c.config.bindStem)
    (CompilerConfig.isStem_of_fault? hc.valid)
  unfold withSoftDelete at hsoft
  simp only [hs] at hsoft
  rw [run_bind] at hsoft
  obtain ⟨⟨soft, last⟩, hr, hsoft⟩ := bind_eq_ok.1 hsoft
  cases hsoft
  refine ⟨group, _, _, hg, hf, halone, ?_⟩
  constructor
  . rfl
  . intro he
    have hempty := written_eq_empty_iff (isClauseDraft_groupDraft hraw hd).2
      (BindTable.numbered_empty c.config.bindStem)
    rw [hempty.1 he]
    rfl
  . exact (c.clauseText_ensures condition.clause).binds hr
  . exact hclosed.balanced
  . refine ⟨soft, _, hr, rfl, by simp, ?_⟩
    intro hne
    have hne : written (.empty c.config.bindStem) d ≠ "" := hne
    refine ⟨_, ?_, Bracket.closeGroup?_of_closed (Text.closed_spaced hclosed) _⟩
    simp [hne]

def removedRows : Condition :=
  .ofOperator "deleted_at" .isNull .none

def eitherName : WhereInput :=
  .group (Group.any [.condition (.ofOperator "a" .equal (.value (.text "x"))),
    .condition (.ofOperator "b" .equal (.value (.text "y")))])

theorem isolated_eitherName :
    let c := { standard {} with softDelete := some removedRows }
    c.withoutSoftDelete.Regular ∧ eitherName.rawFree c.config = true ∧
      ∃ compiled alone table, c.compile eitherName = .ok compiled ∧
        compiled.sql = "( a = :p1 OR b = :p2 ) AND deleted_at IS NULL" ∧
          c.Isolated removedRows table alone compiled := by
  intro c
  have hregular : c.withoutSoftDelete.Regular := regular_standard {}
  have hok : (c.compile eitherName).toOption.map Compiled.sql =
      some "( a = :p1 OR b = :p2 ) AND deleted_at IS NULL" := by
    decide +kernel
  obtain ⟨compiled, hc, hsql⟩ := Option.map_eq_some_iff.1 hok
  have hc := toOption_eq_some hc
  obtain ⟨_, table, alone, _, _, _, h⟩ :=
    isolated_compile hregular (rfl : c.softDelete = some removedRows) rfl hc
  exact ⟨hregular, rfl, compiled, alone, table, hc, hsql, h⟩

end Compiler

end SqlFilter
