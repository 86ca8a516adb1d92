import SqlFilter.Compiler.Text
import SqlFilter.Proofs.Except
import SqlFilter.Proofs.Operand

/-!
This module contains what every computation with a table of binds ensures, whatever the table is: no
bind is lost. For simple conditions it also shows that their texts are not empty, and that none of
their errors is one of bracket keys.
-/

namespace SqlFilter

def CompileError.isBracket : CompileError → Bool
  | .bracket _ => true
  | _ => false

def Faults {α : Type} (IsFault : CompileError → Prop) (x : Except CompileError α) : Prop :=
  ∀ e, x = .error e → IsFault e

namespace Faults

variable {α β : Type} {IsFault : CompileError → Prop}

theorem ok (a : α) : Faults IsFault (.ok a) := by
  rintro e ⟨⟩

theorem error {e : CompileError} (h : IsFault e) : Faults IsFault (.error e : Except _ α) := by
  rintro e ⟨⟩
  exact h

theorem bind {x : Except CompileError α} {f : α → Except CompileError β} (hx : Faults IsFault x)
    (hf : ∀ a, Faults IsFault (f a)) : Faults IsFault (x >>= f) := by
  cases x with
  | error e =>
    rintro e ⟨⟩
    exact hx e rfl
  | ok a => exact hf a

theorem mapError {ε : Type} {x : Except ε α} {f : ε → CompileError} (h : ∀ e, IsFault (f e)) :
    Faults IsFault (x.mapError f) := by
  cases x with
  | error e => exact .error (h e)
  | ok a => exact .ok a

theorem mapM {f : α → Except CompileError β} {as : List α} (h : ∀ a ∈ as, Faults IsFault (f a)) :
    Faults IsFault (as.mapM f) := by
  induction as with
  | nil => exact .ok []
  | cons a as ih =>
    simp only [List.mem_cons, forall_eq_or_imp] at h
    rw [List.mapM_cons]
    apply h.1.bind
    intro b
    apply (ih h.2).bind
    intro bs
    apply ok

end Faults

namespace Binder

variable {α β : Type}

theorem run_bind (m : Binder α) (f : α → Binder β) (table : BindTable) :
    (m >>= f) table = (m table >>= fun r => f r.1 r.2) := rfl

theorem run_lift_bind (x : Except CompileError α) (f : α → Binder β) (table : BindTable) :
    ((liftM x : Binder α) >>= f) table = (x >>= fun a => f a table) := by
  cases x with
  | error e => rfl
  | ok a => rfl

structure Ensures (IsFault : CompileError → Prop) (IsResult : α → Prop) (m : Binder α) : Prop where
  fault : ∀ {table e}, m table = .error e → IsFault e
  result : ∀ {table a table'}, m table = .ok (a, table') → IsResult a
  binds : ∀ {table a table'}, m table = .ok (a, table') → table.binds <+: table'.binds

namespace Ensures

variable {IsFault : CompileError → Prop} {P : α → Prop} {Q : β → Prop} {m : Binder α}

theorem pure {a : α} (h : P a) : Ensures IsFault P (pure a) where
  fault := by
    rintro table e ⟨⟩
  result := by
    rintro table a table' ⟨⟩
    exact h
  binds := by
    rintro table a table' ⟨⟩
    apply List.prefix_refl

theorem throw {e : CompileError} (h : IsFault e) : Ensures IsFault P (throw e) where
  fault := by
    rintro table e ⟨⟩
    exact h
  result := by
    rintro table a table' ⟨⟩
  binds := by
    rintro table a table' ⟨⟩

theorem lift {x : Except CompileError α} (hx : Faults IsFault x) (h : ∀ a, x = .ok a → P a) :
    Ensures IsFault P (liftM x) := by
  cases x with
  | error e => exact .throw (hx e rfl)
  | ok a => exact .pure (h a rfl)

theorem bind {f : α → Binder β} (hm : Ensures IsFault P m)
    (hf : ∀ a, P a → Ensures IsFault Q (f a)) : Ensures IsFault Q (m >>= f) := by
  constructor
  . intro table e h
    rw [run_bind] at h
    cases hr : m table with
    | error e' =>
      rw [hr] at h
      cases h
      exact hm.fault hr
    | ok r =>
      rw [hr] at h
      exact (hf r.1 (hm.result hr)).fault h
  . intro table b table' h
    rw [run_bind] at h
    obtain ⟨r, hr, h⟩ := bind_eq_ok.1 h
    exact (hf r.1 (hm.result hr)).result h
  . intro table b table' h
    rw [run_bind] at h
    obtain ⟨r, hr, h⟩ := bind_eq_ok.1 h
    exact (hm.binds hr).trans ((hf r.1 (hm.result hr)).binds h)

theorem map (hm : Ensures IsFault P m) {f : α → β} (hf : ∀ a, Q (f a)) :
    Ensures IsFault Q (do return f (← m)) :=
  hm.bind fun a _ => .pure (hf a)

theorem mapM {f : α → Binder β} {as : List α} (h : ∀ a ∈ as, Ensures IsFault Q (f a)) :
    Ensures IsFault (fun bs => bs.length = as.length ∧ ∀ b ∈ bs, Q b) (as.mapM f) := by
  induction as with
  | nil => exact .pure (by simp)
  | cons a as ih =>
    simp only [List.mem_cons, forall_eq_or_imp] at h
    rw [List.mapM_cons]
    apply h.1.bind
    intro b hb
    apply (ih h.2).bind
    intro bs hbs
    apply pure
    simp only [List.length_cons, hbs.1, List.mem_cons, forall_eq_or_imp, true_and]
    exact ⟨hb, hbs.2⟩

theorem register (type : BindType) (v : Value) :
    Ensures IsFault (fun _ => True) (Binder.register type v) where
  fault := by
    rintro table e ⟨⟩
  result _ := trivial
  binds := by
    rintro table a table' ⟨⟩
    apply List.prefix_append

theorem scalar (type : BindType) (v : Value) :
    Ensures IsFault (fun _ => True) (Binder.scalar type v) := by
  have cases_run (table : BindTable) : (∃ s, Binder.scalar type v table = .ok (s, table)) ∨
      Binder.scalar type v table = Binder.register type v table := by
    unfold Binder.scalar
    cases table.reference? v with
    | none => exact .inr rfl
    | some s => exact .inl ⟨s, rfl⟩
  constructor
  . intro table e h
    rcases cases_run table with ⟨s, hs⟩ | hs
    . rw [hs] at h
      cases h
    . exact (register type v).fault (hs ▸ h)
  . exact fun _ => trivial
  . intro table a table' h
    rcases cases_run table with ⟨s, hs⟩ | hs
    . rw [hs] at h
      cases h
      apply List.prefix_refl
    . rw [hs] at h
      cases h
      apply List.prefix_append

theorem registerAll (h : ∀ name, IsFault (.duplicateBind name)) (binds : List Bind)
    (table : BindTable) : Faults IsFault (table.registerAll binds) ∧
      ∀ table', table.registerAll binds = .ok table' → table.binds <+: table'.binds := by
  induction binds generalizing table with
  | nil =>
    constructor
    . apply Faults.ok
    . rintro table' ⟨⟩
      apply List.prefix_refl
  | cons b binds ih =>
    change Faults IsFault (table.registerNamed b >>= fun t => t.registerAll binds) ∧
      ∀ table', (table.registerNamed b >>= fun t => t.registerAll binds) = .ok table' → _
    constructor
    . apply Faults.bind
      . unfold BindTable.registerNamed
        split
        . exact .error (h _)
        . apply Faults.ok
      . exact fun t => (ih t).1
    . intro table' ht
      obtain ⟨t, hb, ht⟩ := bind_eq_ok.1 ht
      apply List.IsPrefix.trans _ ((ih t).2 table' ht)
      rw [BindTable.binds_registerNamed table hb]
      apply List.prefix_append

theorem raw (h : ∀ name, IsFault (.duplicateBind name)) (fragment : RawFragment) :
    Ensures IsFault (fun _ => True) (Binder.raw fragment) where
  fault := by
    intro table e he
    have hall := (registerAll h fragment.binds table).1.bind (f := fun t => .ok (fragment.sql, t))
      fun t => .ok _
    exact hall e he
  result _ := trivial
  binds := by
    intro table a table' ht
    obtain ⟨t, hb, ht⟩ := bind_eq_ok.1 ht
    cases ht
    exact (registerAll h fragment.binds table).2 _ hb

end Ensures

end Binder

open Binder

def Argument.Ensured (IsFault : CompileError → Prop) : Argument NestedSelect → Prop
  | .subQuery query => Ensures IsFault (fun _ => True) query.text
  | _ => True

namespace Operator

variable {IsFault : CompileError → Prop} (hf : ∀ e, e.isBracket = false → IsFault e)
  {op : Operator} {field : String} {type : BindType} {argument : Argument NestedSelect}

theorem applied_ne_empty (op : Operator) (field right : String) : op.applied field right ≠ "" := by
  simp [applied]

include hf

theorem compareText_ensures (h : argument.Ensured IsFault) :
    Ensures IsFault (· ≠ "") (op.compareText field type argument) := by
  unfold compareText
  split
  . split
    . apply Ensures.pure
      simp
    . split
      . apply Ensures.pure
        simp
      . exact .throw (hf _ rfl)
  . exact (Ensures.scalar type _).map fun _ => applied_ne_empty _ _ _
  . exact Ensures.map h fun _ => applied_ne_empty _ _ _
  . exact (Ensures.raw (fun _ => hf _ rfl) _).map fun _ => applied_ne_empty _ _ _
  . exact .throw (hf _ rfl)

theorem likeText_ensures (connective : Connective) :
    Ensures IsFault (· ≠ "") (op.likeText field type connective argument) := by
  unfold likeText
  split
  . split
    . exact .throw (hf _ rfl)
    . exact (Ensures.scalar type _).map fun _ => applied_ne_empty _ _ _
  . split
    . exact .throw (hf _ rfl)
    . apply (Ensures.mapM fun v _ => Ensures.scalar type v).map
      simp
  . exact .throw (hf _ rfl)

theorem members_faults : Faults IsFault (op.members argument) := by
  unfold members
  split
  . apply Faults.ok
  . apply Faults.ok
  . split
    . exact .error (hf _ rfl)
    . apply Faults.ok
  . exact .error (hf _ rfl)

omit hf in
theorem listText_ensures (vs : List Value) :
    Ensures IsFault (· ≠ "") (op.listText field type vs) := by
  unfold listText
  split
  . apply Ensures.pure
    split <;> decide
  . apply (Ensures.register type _).map
    intro s
    split <;> simp
  . apply (Ensures.mapM fun v _ => Ensures.register type v).map
    exact fun _ => applied_ne_empty _ _ _

theorem memberText_ensures (h : argument.Ensured IsFault) :
    Ensures IsFault (· ≠ "") (op.memberText field type argument) := by
  unfold memberText
  split
  . exact Ensures.map h fun _ => applied_ne_empty _ _ _
  . exact (Ensures.raw (fun _ => hf _ rfl) _).map fun _ => applied_ne_empty _ _ _
  . apply (Ensures.lift (members_faults hf) fun _ _ => trivial).bind
    intro vs _
    apply listText_ensures

theorem bounds_faults : Faults IsFault (op.bounds argument) := by
  have hlist (vs : List Value) : Faults IsFault (op.boundsOfList vs) := by
    unfold boundsOfList
    split
    . split
      . exact .error (hf _ rfl)
      . apply Faults.ok
    . exact .error (hf _ rfl)
  cases argument with
  | list vs =>
    rw [bounds_list]
    exact hlist vs
  | value v =>
    cases hv : v.text? with
    | none =>
      rw [bounds_value hv]
      exact .error (hf _ rfl)
    | some s =>
      cases v with
      | text s =>
        rw [bounds_text]
        exact hlist _
      | _ => cases hv
  | _ => exact .error (hf _ rfl)

omit hf in
theorem rangeText_ensures (low high : Value) :
    Ensures IsFault (· ≠ "") (op.rangeText field type low high) := by
  apply (Ensures.register type low).bind
  intro low _
  exact (Ensures.register type high).map fun _ => applied_ne_empty _ _ _

theorem existingText_ensures (h : argument.Ensured IsFault) :
    Ensures IsFault (· ≠ "") (op.existingText argument) := by
  unfold existingText
  split
  . apply Ensures.map h
    simp
  . apply (Ensures.raw (fun _ => hf _ rfl) _).map
    simp
  . exact .throw (hf _ rfl)

theorem expressionText_ensures :
    Ensures IsFault (· ≠ "") (op.expressionText field argument) := by
  unfold expressionText
  split
  . apply (Ensures.raw (fun _ => hf _ rfl) _).map
    simp
  . exact .throw (hf _ rfl)

end Operator

namespace Compiler

theorem compileGroup_parts {c : Compiler} (hs : c.softDelete = none) (group : Group) :
    c.compileGroup group = (do
      let (parts, table) ← c.parts (Group.clauses group) (.empty c.config.bindStem)
      .ok ⟨joinParts parts, table.binds, c.placeholder⟩) := by
  unfold compileGroup groupText withSoftDelete
  simp only [hs]
  change ((joinParts <$> c.parts (Group.clauses group) >>= pure) (.empty c.config.bindStem) >>= _)
    = _
  rw [bind_pure]
  change (c.parts (Group.clauses group) (.empty c.config.bindStem) >>= _) >>= _ = _
  cases c.parts (Group.clauses group) (.empty c.config.bindStem) <;> rfl

variable {c : Compiler} {IsFault : CompileError → Prop} (hf : ∀ e, e.isBracket = false → IsFault e)
  {argument : Argument NestedSelect}

include hf

theorem column_faults (name : String) : Faults IsFault (c.column name) := by
  unfold column
  apply Faults.bind (Faults.mapError fun e => hf _ rfl)
  intro _
  split
  . exact .error (hf _ rfl)
  . apply Faults.ok

theorem resolve_faults (operators : OperatorTable) (token : String) :
    Faults IsFault (operators.resolve token) := by
  unfold OperatorTable.resolve
  split
  . apply Faults.ok
  . exact .error (hf _ rfl)

theorem leftSide_ensures (field : FieldRef) :
    Ensures IsFault (fun _ => True) (c.leftSide field) := by
  cases field with
  | column name =>
    apply (Ensures.lift (column_faults hf name) fun _ _ => trivial).map
    simp
  | raw fragment =>
    apply (Ensures.raw (fun _ => hf _ rfl) fragment).map
    simp
  | none => exact .pure trivial

theorem timeText_ensures (op : Operator) (left : LeftSide) (type : BindType) :
    Ensures IsFault (· ≠ "") (c.timeText op left type argument) := by
  unfold timeText
  split
  . split
    . exact .throw (hf _ rfl)
    . exact (Ensures.register type _).map fun _ => Operator.applied_ne_empty _ _ _
  . exact .throw (hf _ rfl)

theorem timeRangeText_ensures (op : Operator) (left : LeftSide) (type : BindType) :
    Ensures IsFault (· ≠ "") (c.timeRangeText op left type argument) := by
  apply (Ensures.lift (Operator.bounds_faults hf) fun _ _ => trivial).bind
  intro (low, high) _
  dsimp only
  split
  . exact .throw (hf _ rfl)
  . apply Operator.rangeText_ensures

theorem columnsText_ensures (op : Operator) (left : LeftSide) :
    Ensures IsFault (· ≠ "") (liftM (c.columnsText op left argument) : Binder String) := by
  have comparison (symbol other : String) :
      Faults IsFault (c.comparisonText op left.sql symbol other) ∧
      ∀ s, c.comparisonText op left.sql symbol other = .ok s → s ≠ "" := by
    unfold comparisonText
    split
    . exact ⟨.error (hf _ rfl), by rintro s ⟨⟩⟩
    . refine ⟨(column_faults hf other).bind fun _ => .ok _, ?_⟩
      intro s hs
      obtain ⟨right, _, hs⟩ := bind_eq_ok.1 hs
      cases hs
      simp
  cases argument with
  | column symbol other =>
    rw [columnsText_column]
    exact .lift (comparison symbol other).1 (comparison symbol other).2
  | value v =>
    cases v with
    | text other =>
      rw [columnsText_text]
      exact .lift (comparison "=" other).1 (comparison "=" other).2
    | _ => exact .throw (hf _ rfl)
  | _ => exact .throw (hf _ rfl)

theorem testText_ensures (field : FieldRef) (comparison : Comparison)
    (h : argument.Ensured IsFault) :
    Ensures IsFault (· ≠ "") (c.testText field comparison argument) := by
  apply (leftSide_ensures hf field).bind
  intro left _
  apply (Ensures.lift (resolve_faults hf c.operators comparison.operator) fun _ _ => trivial).bind
  intro op _
  dsimp only
  split
  . exact .throw (hf _ rfl)
  . split
    . exact Operator.compareText_ensures hf h
    . exact Operator.likeText_ensures hf _
    . exact Operator.memberText_ensures hf h
    . apply (Ensures.lift (Operator.bounds_faults hf) fun _ _ => trivial).bind
      intro (low, high) _
      apply Operator.rangeText_ensures
    . exact timeText_ensures hf op left _
    . exact timeRangeText_ensures hf op left _
    . apply Ensures.pure
      simp
    . exact Operator.existingText_ensures hf h
    . exact Operator.expressionText_ensures hf
    . exact columnsText_ensures hf op left

end Compiler

end SqlFilter
