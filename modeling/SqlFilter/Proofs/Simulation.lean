import SqlFilter.Proofs.LeafRule
import SqlFilter.Proofs.Operand
import SqlFilter.Proofs.RawFree
import SqlFilter.Proofs.Writes

/-!
This module contains the proof that compiling writes drafts: on a filter without raw texts the
compiler with a table of binds succeeds exactly if the one without does, and then it writes that
one's draft in its table: `clauseText_writes`.
-/

namespace SqlFilter

open Binder Draft

inductive Simulates : Argument NestedSelect → Argument (Option Draft) → Prop
  | none : Simulates .none .none
  | value (v : Value) : Simulates (.value v) (.value v)
  | list (vs : List Value) : Simulates (.list vs) (.list vs)
  | subQuery {query : NestedSelect} {d : Option Draft} :
    Writes query.text d → Simulates (.subQuery query) (.subQuery d)
  | column (symbol other : String) : Simulates (.column symbol other) (.column symbol other)
  | perField (count : Nat) : Simulates (.perField count) (.perField count)

namespace Operator

variable {op : Operator} {field : String} {type : BindType} {argument : Argument NestedSelect}
  {argument' : Argument (Option Draft)}

theorem written_appliedDraft (op : Operator) (field : String) (table : BindTable) (d : Draft) :
    written table (op.appliedDraft field d) = op.applied field (written table d) := by
  simp [appliedDraft, applied, String.append_assoc]

theorem after_appliedDraft (op : Operator) (field : String) (table : BindTable) (d : Draft) :
    after table (op.appliedDraft field d) = after table d := by
  simp [appliedDraft]

theorem applied_writes {m : Binder String} {d : Option Draft} (h : Writes m d) :
    Writes (do return op.applied field (← m)) (d.map (op.appliedDraft field)) :=
  h.map (written_appliedDraft op field) (after_appliedDraft op field)

theorem applied_select_writes {m : Binder String} {d : Option Draft} (h : Writes m d) :
    Writes (do return op.applied field ("( " ++ (← m) ++ " )"))
      (d.map fun d => op.appliedDraft field d.inParentheses) := by
  apply h.map
  . intro table d
    rw [written_appliedDraft]
    rw [written_inParentheses]
  . intro table d
    rw [after_appliedDraft]
    rw [after_inParentheses]

theorem compareText_writes (h : Simulates argument argument') :
    Writes (op.compareText field type argument) (op.compareDraft field type argument') := by
  cases h with
  | value v =>
    cases v with
    | null =>
      simp only [compareText, compareDraft]
      split
      . apply Writes.pure
      . split
        . apply Writes.pure
        . apply Writes.throw
    | _ => exact applied_writes (.scalar type _)
  | subQuery hq => exact applied_select_writes hq
  | _ => apply Writes.throw

theorem likeText_writes {connective : Connective} (h : Simulates argument argument') :
    Writes (op.likeText field type connective argument)
      (op.likeDraft field type connective argument') := by
  cases h with
  | value v =>
    unfold likeText likeDraft
    dsimp only
    split
    . apply Writes.throw
    . exact applied_writes (.scalar type v)
  | list vs =>
    unfold likeText likeDraft
    dsimp only
    split
    . apply Writes.throw
    . have hg (table : BindTable) (q : Piece) :
          written table (op.appliedDraft field [q]) = op.applied field (q.written table) := by
        simp [written_appliedDraft, written]
      have hk (table : BindTable) (q : Piece) :
          after table (op.appliedDraft field [q]) = q.after table := by
        simp [after_appliedDraft, after_cons]
      apply Writes.list (scalar_eq type) hg hk (fun s => "(" ++ s ++ ")")
        fun d => .text "(" :: d ++ [Piece.text ")"]
      . intro table d
        simp [String.append_assoc]
      . intro table d
        simp
  | _ => apply Writes.throw

theorem listText_writes (vs : List Value) :
    Writes (op.listText field type vs) (some (op.listDraft field type vs)) := by
  match vs with
  | [] => apply Writes.pure
  | [v] =>
    have hone (op' : Operator) (link : String) (hl : " " ++ op'.sql ++ " " = link) :
        Writes (do return field ++ link ++ (← Binder.register type v))
          (some (op'.appliedDraft field [.fresh type v])) := by
      apply (Writes.register type v).map
      . intro table d
        rw [written_appliedDraft]
        simp [applied, ← hl, String.append_assoc]
      . apply after_appliedDraft
    unfold listText listDraft
    dsimp only
    split
    . exact hone notEqual " <> " rfl
    . exact hone equal " = " rfl
  | v :: w :: vs =>
    have hg (table : BindTable) (q : Piece) : written table [q] = id (q.written table) := by
      simp [written]
    have hlist := Writes.list (register_eq type) hg (fun _ _ => rfl)
      (fun s => op.applied field ("(" ++ s ++ ")"))
      (fun d => op.appliedDraft field (.text "(" :: d ++ [.text ")"]))
      (fun table d => by simp [written_appliedDraft, String.append_assoc])
      (fun table d => by simp [after_appliedDraft]) "," (v :: w :: vs)
    simp only [List.map_id] at hlist
    exact hlist

theorem toOption_members (h : Simulates argument argument') :
    (op.members argument).toOption = members? argument' := by
  cases h with
  | value v =>
    cases v <;> rfl
  | _ => rfl

theorem memberText_writes (h : Simulates argument argument') :
    Writes (op.memberText field type argument) (op.memberDraft field type argument') := by
  have hm : (op.members argument).toOption = members? argument' := toOption_members h
  cases h with
  | subQuery hq => exact applied_select_writes hq
  | _ => exact .bind hm fun vs _ => listText_writes _

theorem toOption_boundsOfList (vs : List Value) : (op.boundsOfList vs).toOption = pair? vs := by
  match vs with
  | [low, high] =>
    unfold boundsOfList pair?
    dsimp only
    split
    . rfl
    . rfl
  | [] => rfl
  | [_] => rfl
  | _ :: _ :: _ :: _ => rfl

theorem toOption_bounds (h : Simulates argument argument') :
    (op.bounds argument).toOption = bounds? argument' := by
  cases h with
  | value v =>
    cases v with
    | text s =>
      rw [bounds_text]
      apply toOption_boundsOfList
    | _ => rfl
  | list vs =>
    rw [bounds_list]
    apply toOption_boundsOfList
  | _ => rfl

theorem rangeText_writes (low high : Value) :
    Writes (op.rangeText field type low high) (some (op.rangeDraft field type low high)) := by
  intro table _
  unfold rangeText rangeDraft
  rw [toOption_bind, register_eq]
  rw [toOption_ok, Option.bind_some]
  rw [toOption_bind, register_eq]
  simp [written_appliedDraft, after_appliedDraft, written, after_cons, Piece.written, Piece.after,
    String.append_assoc]

theorem existingText_writes (h : Simulates argument argument') :
    Writes (op.existingText argument) (op.existingDraft argument') := by
  cases h with
  | subQuery hq =>
    apply Writes.map hq
    . intro table d
      rw [written_text]
      rw [written_inParentheses]
      rw [show " ( " = " " ++ "( " by rfl]
      simp only [String.append_assoc]
    . intro table d
      rw [after_text]
      rw [after_inParentheses]
  | _ => apply Writes.throw

theorem expressionText_writes (h : Simulates argument argument') :
    Writes (op.expressionText field argument) none := by
  cases h <;> apply Writes.throw

end Operator

namespace Compiler

variable {c : Compiler} {argument : Argument NestedSelect} {argument' : Argument (Option Draft)}

theorem toOption_resolve (operators : OperatorTable) (token : String) :
    (operators.resolve token).toOption = operators.resolve? token := by
  unfold OperatorTable.resolve
  split
  . next h => simp [h]
  . next h => simp [h]

theorem timeText_writes {op : Operator} {left : LeftSide} {type : BindType}
    (h : Simulates argument argument') :
    Writes (c.timeText op left type argument) (c.timeDraft op left type argument') := by
  cases h with
  | value v =>
    unfold timeText timeDraft
    dsimp only
    split
    . apply Writes.throw
    . exact Operator.applied_writes (.register type _)
  | _ => apply Writes.throw

theorem timeRangeText_writes {op : Operator} {left : LeftSide} {type : BindType}
    (h : Simulates argument argument') :
    Writes (c.timeRangeText op left type argument) (c.timeRangeDraft op left type argument') := by
  apply Writes.bind (Operator.toOption_bounds h)
  intro ⟨low, high⟩ _
  dsimp only
  cases high.addSeconds? endOfDaySeconds with
  | none => apply Writes.throw
  | some high => apply Operator.rangeText_writes

theorem toOption_comparisonText (op : Operator) (left : LeftSide) (symbol other : String) :
    (c.comparisonText op left.sql symbol other).toOption.map (fun s => [Piece.text s]) =
      columnsDraft.comparison c left symbol other := by
  unfold comparisonText columnsDraft.comparison
  cases (c.operators.resolve? symbol).filter Operator.isComparison with
  | none => rfl
  | some comparison =>
    cases c.column other with
    | error e => rfl
    | ok sql => rfl

theorem columnsText_writes {op : Operator} {left : LeftSide} (h : Simulates argument argument') :
    Writes (liftM (c.columnsText op left argument)) (c.columnsDraft left argument') := by
  apply Writes.ofExcept
  cases h with
  | value v =>
    cases v with
    | text other =>
      rw [columnsText_text]
      apply toOption_comparisonText
    | _ => rfl
  | column symbol other =>
    rw [columnsText_column]
    apply toOption_comparisonText
  | _ => rfl

theorem toOption_leftSide {field : FieldRef} (hf : field.obeys .noRaw = true)
    (table : BindTable) :
    (c.leftSide field table).toOption = (c.leftSide? field).map fun left => (left, table) := by
  cases field with
  | column name =>
    unfold leftSide leftSide?
    dsimp only
    rw [toOption_bind, toOption_lift]
    cases c.column name with
    | error e => rfl
    | ok sql => rfl
  | raw fragment => cases hf
  | none => rfl

theorem testText_writes {field : FieldRef} {comparison : Comparison}
    (hf : field.obeys .noRaw = true) (h : Simulates argument argument') :
    Writes (c.testText field comparison argument) (c.testDraft field comparison argument') := by
  intro table ht
  unfold testText testDraft
  rw [toOption_bind, toOption_leftSide hf]
  cases c.leftSide? field with
  | none => rfl
  | some left =>
    apply Writes.bind (toOption_resolve _ _) _ table ht
    intro op _
    dsimp only
    split
    . apply Writes.throw
    . cases op.family with
      | compare => exact Operator.compareText_writes h
      | like => exact Operator.likeText_writes h
      | between => exact .bind (Operator.toOption_bounds h) fun _ _ => Operator.rangeText_writes _ _
      | oneOf => exact Operator.memberText_writes h
      | isNull => apply Writes.pure
      | existing => exact Operator.existingText_writes h
      | expression => exact Operator.expressionText_writes h
      | column => exact columnsText_writes h
      | time => exact timeText_writes h
      | betweenTime => exact timeRangeText_writes h

theorem selectText_writes (hstd : c.templates = .standard) {table : String}
    {selection : Selection} {filter : Binder String} {d : Option Draft} (h : Writes filter d)
    (hd : ∀ d', d = some d' → d' = [] ∨ Solid d') :
    Writes (c.selectText table selection filter) (c.selectDraft table selection d) := by
  apply Writes.bind rfl
  intro name hname
  apply Writes.bind rfl
  intro fields hfields binds ht
  rw [toOption_bind, h binds ht]
  cases d with
  | none => rfl
  | some d =>
    have hd := hd d rfl
    simp only [Option.map_some, Option.bind_some]
    rw [toOption_bind, toOption_lift]
    cases ho : c.schema.orderClause selection with
    | error e => simp
    | ok order =>
      -- the template is trimmed, which changes nothing if the select ends solid
      have hsolid : Solid (select fields name d (order ++ selection.windowClause)) :=
        solid_select (Schema.isIdentifier_of_identifier hname) hd
          ((Schema.orderClause_append_windowClause ho).imp_right And.left)
      have hends := hsolid.endsSolid_written ht
      rw [written_select hd ht] at hends
      rw [← String.append_assoc] at hends
      simp [hstd, Templates.assemble_select hends, written_select hd ht, after_select,
        String.append_assoc]

theorem solid_partDrafts {clauses : List (Connective × Clause)}
    (h : Clause.allObey .noRaw clauses = true) :
    ∀ parts, c.partDrafts clauses = some parts → ∀ part ∈ parts, part.2 = [] ∨ Solid part.2 :=
  fun _ hd part hp => ((draftInvariant_clean c .noRaw).partDrafts clauses h hd part hp).2

mutual

theorem clauseText_writes (hstd : c.templates = .standard) :
    (clause : Clause) → clause.rawFree = true → Writes (c.clauseText clause) (c.clauseDraft clause)
  | .test field comparison argument, h => by
    simp only [Clause.rawFree, Clause.obeys, Bool.and_eq_true] at h
    simp only [clauseText, clauseDraft]
    exact testText_writes h.1 (nested_simulates hstd argument h.2)
  | .group clauses, h => by
    simp only [clauseText, clauseDraft]
    exact (parts_writes hstd clauses h).group (solid_partDrafts h)
  | .raw _, h => by cases h
  | .literal truth, _ => by
    simp only [clauseText, clauseDraft]
    split
    . apply Writes.pure
    . apply Writes.throw
  | .failure _, _ => by
    simp only [clauseText, clauseDraft]
    apply Writes.throw

theorem nested_simulates (hstd : c.templates = .standard) {operator : String} :
    (argument : Argument (SubQuery (List (Connective × Clause)))) →
      Argument.obeys .noRaw operator argument = true →
        Simulates (c.nested argument) (c.nestedDraft argument)
  | .none, _ => .none
  | .value v, _ => .value v
  | .list vs, _ => .list vs
  | .raw _, h => by cases h
  | .subQuery ⟨table, filter, selection⟩, h => by
    simp only [nested, nestedDraft]
    apply Simulates.subQuery
    apply selectText_writes hstd
    . exact (parts_writes hstd filter h).join (solid_partDrafts h)
    . intro d hd
      obtain ⟨parts, hp, rfl⟩ := Option.map_eq_some_iff.1 hd
      exact solid_joinParts (solid_partDrafts h parts hp)
  | .column symbol other, _ => .column symbol other
  | .perField count, _ => .perField count

theorem parts_writes (hstd : c.templates = .standard) :
    (clauses : List (Connective × Clause)) → Clause.allObey .noRaw clauses = true →
      WritesParts (c.parts clauses) (c.partDrafts clauses)
  | [], _ => by
    simp only [parts, partDrafts]
    exact .nil
  | (connective, clause) :: clauses, h => by
    simp only [Clause.allObey, Bool.and_eq_true] at h
    simp only [parts, partDrafts]
    exact .cons (clauseText_writes hstd clause h.1) (parts_writes hstd clauses h.2)

end

theorem groupText_writes (hstd : c.templates = .standard) {group : Group}
    (h : group.rawFree = true) : Writes (c.groupText group) (c.groupDraft group) := by
  have hclauses := Group.obeys_clauses group h
  exact (parts_writes hstd _ hclauses).join (solid_partDrafts hclauses)

end Compiler

structure Compiler.Regular (c : Compiler) : Prop where
  valid : c.config.fault? = none
  templates : c.templates = .standard
  softDelete : ∀ condition ∈ c.softDelete, condition.rawFree = true

namespace Compiler

theorem regular_standard (schema : Schema) : (standard schema).Regular where
  valid := (by decide : CompilerConfig.fault? {} = none)
  templates := rfl
  softDelete := by simp [standard]

variable {c : Compiler} {group : Group}

theorem filterText_writes (hc : c.Regular) (h : group.rawFree = true) :
    Writes (do
        let sql ← c.groupText group
        c.withSoftDelete sql)
      (c.filterDraft group) := by
  intro table ht
  unfold filterDraft
  rw [toOption_bind, groupText_writes hc.templates h table ht]
  cases hd : c.groupDraft group with
  | none => rfl
  | some d =>
    -- the condition that is added asks whether the text of the filter is empty
    have hempty := isEmpty_written (isClauseDraft_groupDraft h hd).2 ht
    simp only [Option.map_some, Option.bind_some, withSoftDelete]
    cases hs : c.softDelete with
    | none => simp
    | some condition =>
      have hsoft := clauseText_writes hc.templates condition.clause
        (condition.obeys_clause (hc.softDelete condition hs))
      dsimp only
      rw [toOption_bind, hsoft _ (ht.after d)]
      cases c.clauseDraft condition.clause with
      | none => rfl
      | some soft =>
        simp only [hempty, Option.map_some, Option.bind_some, Option.bind_eq_bind, toOption_pure]
        split
        . next he =>
          simp [List.isEmpty_iff.1 he]
        . next hne =>
          rw [show " ) AND " = " )" ++ " AND " by rfl]
          simp only [written_append, after_append, written_inParentheses, after_inParentheses,
            written_text, after_text, String.append_assoc]

theorem toOption_compileGroup (hc : c.Regular) (h : group.rawFree = true) :
    (c.compileGroup group).toOption =
      (c.filterDraft group).map (Draft.compiled c.config.bindStem c.placeholder) := by
  have hw := filterText_writes hc h (.empty c.config.bindStem) (BindTable.numbered_empty _)
  unfold compileGroup
  dsimp only [StateT.run]
  generalize hd : c.filterDraft group = d at hw
  generalize (do
    let sql ← c.groupText group
    c.withSoftDelete sql) = text at hw
  cases d with
  | none =>
    cases ht : text (.empty c.config.bindStem) with
    | error e => rfl
    | ok r => simp [ht] at hw
  | some d =>
    rw [toOption_eq_some hw]
    rfl

end Compiler

end SqlFilter
