import Mathlib.Data.List.Forall2
import SqlFilter.Compiler
import SqlFilter.Proofs.LeafRule

/-!
This module contains pairs of runs that go in lockstep: from tables of binds that agree in all but
the values, both fail or both succeed with tables that agree again.
-/

namespace SqlFilter

/-- Whether a value may stand for another one: they are of one kind, and a text with a colon in
front stands for itself only. -/
structure Value.Alike (v w : Value) : Prop where
  kind : v.ctorIdx = w.ctorIdx
  colon : v.beginsWithColon = true ∨ w.beginsWithColon = true → v = w

namespace Value

theorem Alike.refl (v : Value) : v.Alike v := ⟨rfl, fun _ => rfl⟩

theorem Alike.integer (m n : Int64) : (integer m).Alike (integer n) :=
  ⟨rfl, by simp [beginsWithColon]⟩

theorem Alike.text_cases {v w : Value} (h : v.Alike w) :
    (∃ s t, v = .text s ∧ w = .text t) ∨ v.text? = none ∧ w.text? = none := by
  have := h.kind
  cases v with
  | text s =>
    cases w with
    | text t => exact .inl ⟨s, t, rfl, rfl⟩
    | _ => cases this
  | _ =>
    cases w with
    | text t => cases this
    | _ => exact .inr ⟨rfl, rfl⟩

theorem Alike.isNull_eq {v w : Value} (h : v.Alike w) : v.isNull = w.isNull := by
  have := h.kind
  cases v <;> cases w <;> first | rfl | cases this

end Value

namespace BindTable

structure Agrees (t t' : BindTable) : Prop where
  stem : t.stem = t'.stem
  counter : t.counter = t'.counter
  binds : (t.binds.map fun b => (b.name, b.type)) = t'.binds.map fun b => (b.name, b.type)

namespace Agrees

variable {t t' : BindTable}

theorem refl (t : BindTable) : t.Agrees t := ⟨rfl, rfl, rfl⟩

theorem generated_eq (h : t.Agrees t') (number : Nat) :
    t.generated number = t'.generated number := by
  rw [generated]
  rw [h.stem]
  rfl

theorem isRegistered_eq (h : t.Agrees t') (name : String) :
    t.isRegistered name = t'.isRegistered name := by
  have any_eq (t : BindTable) : t.isRegistered name =
      (t.binds.map fun b => (b.name, b.type)).any fun b => b.1 == name := by
    rw [List.any_map]
    rfl
  rw [any_eq]
  rw [any_eq]
  rw [h.binds]

theorem length_binds (h : t.Agrees t') : t.binds.length = t'.binds.length := by
  simpa using congrArg List.length h.binds

theorem freeNumber_eq (h : t.Agrees t') (start : Nat) :
    t.freeNumber start = t'.freeNumber start := by
  -- the search only asks which names are in use
  have go_eq (fuel number : Nat) : freeNumber.go t fuel number = freeNumber.go t' fuel number := by
    induction fuel generalizing number with
    | zero => rfl
    | succ fuel ih =>
      simp only [freeNumber.go]
      rw [h.generated_eq]
      rw [h.isRegistered_eq]
      rw [ih]
  unfold freeNumber
  rw [h.length_binds]
  exact go_eq _ _

theorem push (h : t.Agrees t') {counter : Nat} {b b' : Bind} (hn : b.name = b'.name)
    (ht : b.type = b'.type) :
    Agrees { t with counter := counter, binds := t.binds ++ [b] }
      { t' with counter := counter, binds := t'.binds ++ [b'] } where
  stem := h.stem
  counter := rfl
  binds := by simp [h.binds, hn, ht]

theorem register (h : t.Agrees t') (v w : Value) (type : BindType) :
    (t.register v type).1 = (t'.register w type).1 ∧
      (t.register v type).2.Agrees (t'.register w type).2 := by
  simp only [BindTable.register]
  rw [h.counter]
  rw [h.freeNumber_eq]
  rw [h.generated_eq]
  exact ⟨rfl, h.push rfl rfl⟩

theorem reference?_eq (h : t.Agrees t') {v w : Value} (hv : v.Alike w) :
    t.reference? v = t'.reference? w := by
  -- a text with a colon in front is the same in both runs, and other values are no references
  cases hb : v.beginsWithColon with
  | true =>
    rw [← hv.colon (.inl hb)]
    simp only [reference?, h.isRegistered_eq]
  | false =>
    cases hb' : w.beginsWithColon with
    | true =>
      rw [hv.colon (.inr hb'), hb'] at hb
      cases hb
    | false =>
      rw [reference?_eq_none hb]
      rw [reference?_eq_none hb']

end Agrees

end BindTable

namespace Binder

variable {α β γ δ : Type} {R : α → β → Prop} {S : γ → δ → Prop}

inductive SameOutcome (R : α → β → Prop) :
    Except CompileError (α × BindTable) → Except CompileError (β × BindTable) → Prop
  | error (e e' : CompileError) : SameOutcome R (.error e) (.error e')
  | ok {a : α} {b : β} {t t' : BindTable} :
    R a b → t.Agrees t' → SameOutcome R (.ok (a, t)) (.ok (b, t'))

def Lockstep (R : α → β → Prop) (m : Binder α) (m' : Binder β) : Prop :=
  ∀ t t' : BindTable, t.Agrees t' → SameOutcome R (m t) (m' t')

inductive SameCheck (R : α → β → Prop) :
    Except CompileError α → Except CompileError β → Prop
  | error (e e' : CompileError) : SameCheck R (.error e) (.error e')
  | ok {a : α} {b : β} : R a b → SameCheck R (.ok a) (.ok b)

theorem SameCheck.refl (x : Except CompileError α) : SameCheck Eq x x := by
  cases x with
  | error e => exact .error e e
  | ok a => exact .ok rfl

namespace Lockstep

theorem pure {a : α} {b : β} (h : R a b) : Lockstep R (pure a) (pure b) :=
  fun _ _ ht => .ok h ht

theorem throw (e e' : CompileError) : Lockstep R (throw e) (throw e') :=
  fun _ _ _ => .error e e'

theorem lift {x : Except CompileError α} {y : Except CompileError β} (h : SameCheck R x y) :
    Lockstep R (liftM x) (liftM y) := by
  intro t t' ht
  cases h with
  | error e e' => exact .error e e'
  | ok h => exact .ok h ht

theorem bind {m : Binder α} {m' : Binder β} {f : α → Binder γ} {f' : β → Binder δ}
    (h : Lockstep R m m') (hf : ∀ a b, R a b → Lockstep S (f a) (f' b)) :
    Lockstep S (m >>= f) (m' >>= f') := by
  intro t t' ht
  change SameOutcome S (m t >>= fun r => f r.1 r.2) (m' t' >>= fun r => f' r.1 r.2)
  have := h t t' ht
  revert this
  cases m t with
  | error e =>
    cases m' t' with
    | error e' => exact fun _ => .error e e'
    | ok r => exact fun h => nomatch h
  | ok r =>
    cases m' t' with
    | error e => exact fun h => nomatch h
    | ok r' =>
      intro h
      cases h with
      | ok hr hs => exact hf _ _ hr _ _ hs

theorem map {m m' : Binder α} (h : Lockstep Eq m m') (f : α → β) :
    Lockstep Eq (do return f (← m)) (do return f (← m')) :=
  h.bind fun _ _ he => .pure (congrArg f he)

theorem register (type : BindType) (v w : Value) :
    Lockstep Eq (Binder.register type v) (Binder.register type w) := by
  intro t t' ht
  have := ht.register v w type
  simp only [Binder.register]
  rw [this.1]
  exact .ok rfl this.2

theorem scalar (type : BindType) {v w : Value} (h : v.Alike w) :
    Lockstep Eq (Binder.scalar type v) (Binder.scalar type w) := by
  intro t t' ht
  simp only [Binder.scalar]
  rw [ht.reference?_eq h]
  cases t'.reference? w with
  | none => exact register type v w t t' ht
  | some s => exact .ok rfl ht

theorem registerNamed {t t' : BindTable} (ht : t.Agrees t') (b : Bind) :
    SameCheck BindTable.Agrees (t.registerNamed b) (t'.registerNamed b) := by
  unfold BindTable.registerNamed
  rw [ht.isRegistered_eq]
  split
  . exact .error _ _
  . apply SameCheck.ok
    rw [ht.counter]
    exact ht.push rfl rfl

theorem registerAll {t t' : BindTable} (ht : t.Agrees t') (binds : List Bind) :
    SameCheck BindTable.Agrees (t.registerAll binds) (t'.registerAll binds) := by
  induction binds generalizing t t' with
  | nil => exact .ok ht
  | cons b binds ih =>
    change SameCheck _ (t.registerNamed b >>= fun t => t.registerAll binds)
      (t'.registerNamed b >>= fun t => t.registerAll binds)
    have := registerNamed ht b
    revert this
    generalize t.registerNamed b = x
    generalize t'.registerNamed b = y
    intro h
    cases h with
    | error e e' => exact .error e e'
    | ok h => exact ih h

theorem raw (fragment : RawFragment) :
    Lockstep Eq (Binder.raw fragment) (Binder.raw fragment) := by
  intro t t' ht
  have := registerAll ht fragment.binds
  unfold Binder.raw
  revert this
  generalize t.registerAll fragment.binds = x
  generalize t'.registerAll fragment.binds = y
  intro h
  cases h with
  | error e e' => exact .error e e'
  | ok h => exact .ok rfl h

theorem mapM {f : Value → Binder String} {P : Value → Value → Prop}
    (hf : ∀ v w, P v w → Lockstep Eq (f v) (f w)) {vs ws : List Value}
    (h : List.Forall₂ P vs ws) : Lockstep Eq (vs.mapM f) (ws.mapM f) := by
  induction h with
  | nil => exact .pure rfl
  | cons hv _ ih =>
    rw [List.mapM_cons]
    rw [List.mapM_cons]
    apply (hf _ _ hv).bind
    intro s _ hs
    subst hs
    apply ih.bind
    intro ss _ hss
    subst hss
    exact .pure rfl

end Lockstep

end Binder

end SqlFilter
