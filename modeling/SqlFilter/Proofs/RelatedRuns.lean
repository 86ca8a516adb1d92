import SqlFilter.Proofs.BindRun
import SqlFilter.Proofs.Ensures
import SqlFilter.Proofs.LeafRule

/-!
This module contains pairs of runs on tables of binds that are related. If the calls that a filter
makes on its table keep the relation, both runs fail with the same error, or both succeed with tables
that are related again. What is kept of a single table is the case of two runs on the same table.
-/

namespace SqlFilter

namespace Binder

variable {α β γ δ : Type} {T : BindTable → BindTable → Prop} {R : α → β → Prop} {S : γ → δ → Prop}

def Paired (T : BindTable → BindTable → Prop) (R : α → β → Prop) (m : Binder α) (m' : Binder β) :
    Prop :=
  ∀ t t' : BindTable, T t t' → Alongside (fun r r' => R r.1 r'.1 ∧ T r.2 r'.2) (m t) (m' t')

abbrev Steady (T : BindTable → BindTable → Prop) (m : Binder α) : Prop :=
  Paired T (fun _ _ => True) m m

namespace Paired

theorem pure {a : α} {b : β} (h : R a b) : Paired T R (pure a) (pure b) :=
  fun _ _ ht => .ok ⟨h, ht⟩

theorem throw (e : CompileError) : Paired T R (throw e) (throw e) :=
  fun _ _ _ => .error e

theorem lift (x : Except CompileError α) :
    Paired T (fun a b => a = b ∧ x = .ok a) (liftM x) (liftM x) := by
  intro t t' ht
  cases x with
  | error e => exact .error e
  | ok a => exact .ok ⟨⟨rfl, rfl⟩, ht⟩

theorem mono {R' : α → β → Prop} {m : Binder α} {m' : Binder β} (h : Paired T R m m')
    (hr : ∀ a b, R a b → R' a b) : Paired T R' m m' := by
  intro t t' ht
  have := h t t' ht
  revert this
  generalize m t = x
  generalize m' t' = x'
  rintro (⟨e⟩ | ⟨hab⟩)
  . exact .error e
  . exact .ok ⟨hr _ _ hab.1, hab.2⟩

theorem bind {m : Binder α} {m' : Binder β} {f : α → Binder γ} {f' : β → Binder δ}
    (h : Paired T R m m') (hf : ∀ a b, R a b → Paired T S (f a) (f' b)) :
    Paired T S (m >>= f) (m' >>= f') := by
  intro t t' ht
  rw [run_bind, run_bind]
  apply (h t t' ht).bind
  intro r r' hr
  exact hf r.1 r'.1 hr.1 r.2 r'.2 hr.2

theorem map {m : Binder α} {m' : Binder β} (h : Paired T R m m') {f : α → γ} {f' : β → δ}
    (hf : ∀ a b, R a b → S (f a) (f' b)) :
    Paired T S (do return f (← m)) (do return f' (← m')) :=
  h.bind fun a b hr => .pure (hf a b hr)

theorem exists_ok {m : Binder α} {m' : Binder β} (h : Paired T R m m') {t t' : BindTable}
    (ht : T t t') {r : α × BindTable} (hr : m t = .ok r) : ∃ r', m' t' = .ok r' ∧ T r.2 r'.2 := by
  have := h t t' ht
  rw [hr] at this
  generalize m' t' = x at this
  cases this with
  | ok hr' => exact ⟨_, rfl, hr'.2⟩

end Paired

namespace Steady

variable {m : Binder α}

theorem throw (e : CompileError) : Steady T (throw e : Binder α) :=
  Paired.throw e

theorem map (h : Steady T m) (f : α → γ) : Steady T (do return f (← m)) :=
  Paired.map h fun _ _ _ => trivial

theorem mapM {f : α → Binder β} {as : List α} (h : ∀ a ∈ as, Steady T (f a)) :
    Steady T (as.mapM f) := by
  induction as with
  | nil => exact .pure trivial
  | cons a as ih =>
    simp only [List.mem_cons, forall_eq_or_imp] at h
    rw [List.mapM_cons]
    apply Paired.bind h.1
    intro b b' _
    exact Paired.map (ih h.2) fun _ _ _ => trivial

end Steady

theorem scalar_cases (type : BindType) (v : Value) (t : BindTable) :
    (∃ s, scalar type v t = .ok (s, t)) ∨
      ∃ s, scalar type v t = .ok (s, (t.register v type).2) := by
  unfold scalar
  cases t.reference? v with
  | some s => exact .inl ⟨s, rfl⟩
  | none => exact .inr ⟨_, rfl⟩

end Binder

open Binder

namespace BindTable

structure Keeps (IsDeclared : Bind → Prop) (T : BindTable → BindTable → Prop) : Prop where
  register : ∀ (type : BindType) (v : Value), Steady T (Binder.register type v)
  scalar : ∀ (type : BindType) (v : Value), Steady T (Binder.scalar type v)
  registerNamed : ∀ {bind : Bind}, IsDeclared bind → ∀ {t t' : BindTable}, T t t' →
    Alongside T (t.registerNamed bind) (t'.registerNamed bind)

def Same (P : BindTable → Prop) (t t' : BindTable) : Prop :=
  t = t' ∧ P t

variable {IsDeclared : Bind → Prop} {T : BindTable → BindTable → Prop}

theorem Keeps.raw (hT : Keeps IsDeclared T) {fragment : RawFragment}
    (h : ∀ bind ∈ fragment.binds, IsDeclared bind) :
    Paired T Eq (Binder.raw fragment) (Binder.raw fragment) := by
  have all (binds : List Bind) (h : ∀ bind ∈ binds, IsDeclared bind) {t t' : BindTable}
      (ht : T t t') : Alongside T (t.registerAll binds) (t'.registerAll binds) := by
    induction binds generalizing t t' with
    | nil => exact .ok ht
    | cons bind binds ih =>
      simp only [List.mem_cons, forall_eq_or_imp] at h
      exact (hT.registerNamed h.1 ht).bind fun _ _ ht => ih h.2 ht
  intro t t' ht
  exact (all fragment.binds h ht).map fun _ _ ht => ⟨rfl, ht⟩

theorem keeps_same {P : BindTable → Prop} (call : ∀ {t : BindTable} (c : Call),
      (∀ bind, c = .registerNamed bind → IsDeclared bind) → P t → P (t.perform c)) :
    Keeps IsDeclared (Same P) where
  register type v := by
    rintro t _ ⟨rfl, ht⟩
    exact .ok ⟨trivial, rfl, call (.register v type) (by simp) ht⟩
  scalar type v := by
    rintro t _ ⟨rfl, ht⟩
    rcases scalar_cases type v t with ⟨s, h⟩ | ⟨s, h⟩
    . rw [h]
      exact .ok ⟨trivial, rfl, ht⟩
    . rw [h]
      exact .ok ⟨trivial, rfl, call (.register v type) (by simp) ht⟩
  registerNamed := by
    rintro bind hb t _ ⟨rfl, ht⟩
    have hnext := call (.registerNamed bind) (by simpa using hb) ht
    rw [perform] at hnext
    generalize t.registerNamed bind = x at hnext
    cases x with
    | error e => exact .error e
    | ok next => exact .ok ⟨rfl, hnext⟩

theorem same_of_steady {α : Type} {P : BindTable → Prop} {m : Binder α} (h : Steady (Same P) m)
    {t t' : BindTable} {a : α} (ht : P t) (hr : m t = .ok (a, t')) : P t' := by
  obtain ⟨_, _, _, ht'⟩ := h.exists_ok ⟨rfl, ht⟩ hr
  exact ht'

end BindTable

open BindTable

def Argument.Settled (IsDeclared : Bind → Prop) (T : BindTable → BindTable → Prop) :
    Argument NestedSelect → Prop
  | .subQuery query => Steady T query.text
  | .raw fragment => ∀ bind ∈ fragment.binds, IsDeclared bind
  | _ => True

section Test

variable {IsDeclared : Bind → Prop} {T : BindTable → BindTable → Prop}
  (hT : Keeps IsDeclared T) {op : Operator} {field : String} {type : BindType}
  {argument : Argument NestedSelect}

namespace Operator

include hT

theorem compareText_steady (h : argument.Settled IsDeclared T) :
    Steady T (op.compareText field type argument) := by
  unfold compareText
  split
  . split
    . exact .pure trivial
    . split
      . exact .pure trivial
      . exact .throw _
  . exact (hT.scalar type _).map _
  . exact Steady.map h _
  . exact (hT.raw h).map fun _ _ _ => trivial
  . exact .throw _

theorem likeText_steady (connective : Connective) :
    Steady T (op.likeText field type connective argument) := by
  unfold likeText
  split
  . split
    . exact .throw _
    . exact (hT.scalar type _).map _
  . split
    . exact .throw _
    . exact (Steady.mapM fun v _ => hT.scalar type v).map _
  . exact .throw _

theorem listText_steady (vs : List Value) : Steady T (op.listText field type vs) := by
  unfold listText
  split
  . exact .pure trivial
  . exact (hT.register type _).map _
  . exact (Steady.mapM fun v _ => hT.register type v).map _

theorem memberText_steady (h : argument.Settled IsDeclared T) :
    Steady T (op.memberText field type argument) := by
  unfold memberText
  split
  . exact Steady.map h _
  . exact (hT.raw h).map fun _ _ _ => trivial
  . apply (Paired.lift _).bind
    rintro vs _ ⟨rfl, _⟩
    exact listText_steady hT _

theorem rangeText_steady (low high : Value) : Steady T (op.rangeText field type low high) := by
  apply (hT.register type low).bind
  intro _ _ _
  exact Paired.map (hT.register type high) fun _ _ _ => trivial

theorem existingText_steady (h : argument.Settled IsDeclared T) :
    Steady T (op.existingText argument) := by
  unfold existingText
  split
  . exact Steady.map h _
  . exact (hT.raw h).map fun _ _ _ => trivial
  . exact .throw _

theorem expressionText_steady (h : argument.Settled IsDeclared T) :
    Steady T (op.expressionText field argument) := by
  unfold expressionText
  split
  . exact (hT.raw h).map fun _ _ _ => trivial
  . exact .throw _

end Operator

def FieldRef.declared : FieldRef → List Bind
  | .raw fragment => fragment.binds
  | _ => []

mutual

def Clause.declared (c : Compiler) : Clause → List Bind
  | .test field comparison argument =>
    field.declared ++
      if c.family? comparison.operator = some .isNull then [] else Argument.declared c argument
  | .group clauses => Clause.allDeclared c clauses
  | .raw fragment => fragment.binds
  | .literal _ => []
  | .failure _ => []

def Argument.declared (c : Compiler) :
    Argument (SubQuery (List (Connective × Clause))) → List Bind
  | .raw fragment => fragment.binds
  | .subQuery query => Clause.allDeclared c query.filter
  | .none => []
  | .value _ => []
  | .list _ => []
  | .column _ _ => []
  | .perField _ => []

def Clause.allDeclared (c : Compiler) : List (Connective × Clause) → List Bind
  | [] => []
  | (_, clause) :: clauses => clause.declared c ++ Clause.allDeclared c clauses

end

namespace Compiler

variable {c : Compiler}

include hT

theorem leftSide_paired {field : FieldRef} (h : ∀ bind ∈ field.declared, IsDeclared bind) :
    Paired T Eq (c.leftSide field) (c.leftSide field) := by
  unfold leftSide
  split
  . exact (Paired.lift _).map fun _ _ he => he.1 ▸ rfl
  . exact (hT.raw h).map fun _ _ he => he ▸ rfl
  . exact .pure rfl

theorem timeText_steady (left : LeftSide) : Steady T (c.timeText op left type argument) := by
  unfold timeText
  split
  . split
    . exact .throw _
    . exact (hT.register type _).map _
  . exact .throw _

theorem timeRangeText_steady (left : LeftSide) :
    Steady T (c.timeRangeText op left type argument) := by
  apply (Paired.lift (op.bounds argument)).bind
  rintro ⟨low, high⟩ _ ⟨rfl, _⟩
  dsimp only
  split
  . exact .throw _
  . exact Operator.rangeText_steady hT _ _

theorem testText_steady {field : FieldRef} {comparison : Comparison}
    (hf : ∀ bind ∈ field.declared, IsDeclared bind)
    (ha : c.family? comparison.operator ≠ some .isNull → argument.Settled IsDeclared T) :
    Steady T (c.testText field comparison argument) := by
  apply (leftSide_paired hT hf).bind
  rintro left _ rfl
  apply (Paired.lift (c.operators.resolve comparison.operator)).bind
  rintro op _ ⟨rfl, hop⟩
  have hfamily : c.family? comparison.operator = some op.family := by
    unfold OperatorTable.resolve at hop
    split at hop
    . next hr =>
      cases hop
      rw [family?, hr]
      rfl
    . cases hop
  rw [hfamily] at ha
  dsimp only
  split
  . exact .throw _
  . split
    . exact Operator.compareText_steady hT (ha (by simp_all))
    . exact Operator.likeText_steady hT _
    . exact Operator.memberText_steady hT (ha (by simp_all))
    . apply (Paired.lift (op.bounds argument)).bind
      rintro ⟨low, high⟩ _ ⟨rfl, _⟩
      exact Operator.rangeText_steady hT _ _
    . exact timeText_steady hT _
    . exact timeRangeText_steady hT _
    . exact .pure trivial
    . exact Operator.existingText_steady hT (ha (by simp_all))
    . exact Operator.expressionText_steady hT (ha (by simp_all))
    . exact (Paired.lift _).mono fun _ _ _ => trivial

omit hT in
theorem selectText_steady {table : String} {selection : Selection} {filter : Binder String}
    (h : Steady T filter) : Steady T (c.selectText table selection filter) := by
  apply (Paired.lift _).bind
  rintro table _ ⟨rfl, _⟩
  apply (Paired.lift _).bind
  rintro fields _ ⟨rfl, _⟩
  apply h.bind
  intro _ _ _
  exact (Paired.lift _).map fun _ _ _ => trivial

end Compiler

end Test

namespace Compiler

variable {c : Compiler} {IsDeclared : Bind → Prop} {T : BindTable → BindTable → Prop}

mutual

theorem clauseText_steady (hT : Keeps IsDeclared T) :
    (clause : Clause) → (∀ bind ∈ clause.declared c, IsDeclared bind) →
      Steady T (c.clauseText clause)
  | .test field comparison argument, h => by
    simp only [Clause.declared, List.forall_mem_append] at h
    rw [clauseText]
    apply testText_steady hT h.1
    intro hn
    rw [if_neg hn] at h
    exact nested_settled hT argument h.2
  | .group clauses, h => by
    rw [clauseText]
    exact (parts_steady hT clauses h).map _
  | .raw fragment, h => by
    rw [clauseText]
    exact (hT.raw h).map fun _ _ _ => trivial
  | .literal truth, _ => by
    rw [clauseText]
    split
    . exact .pure trivial
    . exact .throw _
  | .failure error, _ => by
    rw [clauseText]
    exact .throw _

theorem nested_settled (hT : Keeps IsDeclared T) :
    (argument : Argument (SubQuery (List (Connective × Clause)))) →
      (∀ bind ∈ Argument.declared c argument, IsDeclared bind) →
        (c.nested argument).Settled IsDeclared T
  | .subQuery query, h => by
    rw [nested]
    exact selectText_steady ((parts_steady hT query.filter h).map _)
  | .raw fragment, h => by
    rw [nested]
    exact h
  | .none, _ => trivial
  | .value _, _ => trivial
  | .list _, _ => trivial
  | .column _ _, _ => trivial
  | .perField _, _ => trivial

theorem parts_steady (hT : Keeps IsDeclared T) :
    (clauses : List (Connective × Clause)) →
      (∀ bind ∈ Clause.allDeclared c clauses, IsDeclared bind) → Steady T (c.parts clauses)
  | [], _ => by
    rw [parts]
    exact .pure trivial
  | (connective, clause) :: clauses, h => by
    simp only [Clause.allDeclared, List.forall_mem_append] at h
    rw [parts]
    apply (clauseText_steady hT clause h.1).bind
    intro _ _ _
    exact Paired.map (parts_steady hT clauses h.2) fun _ _ _ => trivial

end

theorem withSoftDelete_paired (hT : Keeps IsDeclared T)
    (h : ∀ condition, c.softDelete = some condition →
      ∀ bind ∈ condition.clause.declared c, IsDeclared bind) (sql sql' : String) :
    Paired T (fun _ _ => True) (c.withSoftDelete sql) (c.withSoftDelete sql') := by
  unfold withSoftDelete
  cases hs : c.softDelete with
  | none => exact .pure trivial
  | some condition =>
    exact Paired.map (clauseText_steady hT condition.clause (h condition hs)) fun _ _ _ => trivial

end Compiler

end SqlFilter
