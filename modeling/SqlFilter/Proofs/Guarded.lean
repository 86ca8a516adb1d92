import SqlFilter.Proofs.Ensures

/-!
This module contains pairs of computations of which the first makes a check that the second leaves
out, and how such pairs are put together.
-/

namespace SqlFilter

variable {α β : Type} {p q : Prop}

structure Guarded (p : Prop) (x x' : Except CompileError α) : Prop where
  same : p → x = x'
  holds : ∀ {a}, x = .ok a → p

namespace Guarded

variable {x x' : Except CompileError α}

theorem refl (hp : p) (x : Except CompileError α) : Guarded p x x where
  same _ := rfl
  holds _ := hp

theorem error (p : Prop) (e : CompileError) : Guarded p (.error e : Except _ α) (.error e) where
  same _ := rfl
  holds := by
    rintro a ⟨⟩

theorem congr (h : Guarded p x x') (hpq : p ↔ q) : Guarded q x x' where
  same hq := h.same (hpq.2 hq)
  holds hx := hpq.1 (h.holds hx)

theorem bind {f f' : α → Except CompileError β} (h : Guarded p x x')
    (hf : ∀ a, Guarded q (f a) (f' a)) : Guarded (p ∧ q) (x >>= f) (x' >>= f') where
  same hpq := by
    rw [h.same hpq.1]
    exact bind_congr fun a => (hf a).same hpq.2
  holds hb := by
    obtain ⟨a, hx, hb⟩ := bind_eq_ok.1 hb
    exact ⟨h.holds hx, (hf a).holds hb⟩

theorem eq_ok_iff (h : Guarded p x x') {a : α} : x = .ok a ↔ x' = .ok a ∧ p := by
  constructor
  . intro hx
    have hp := h.holds hx
    exact ⟨h.same hp ▸ hx, hp⟩
  . rintro ⟨hx, hp⟩
    rw [h.same hp, hx]

end Guarded

namespace Binder

def Guarded (p : Prop) (m m' : Binder α) : Prop :=
  ∀ table, SqlFilter.Guarded p (m table) (m' table)

namespace Guarded

variable {m m' : Binder α}

theorem refl (hp : p) (m : Binder α) : Guarded p m m :=
  fun table => .refl hp (m table)

theorem throw (p : Prop) (e : CompileError) : Guarded p (throw e : Binder α) (throw e) :=
  fun _ => .error p e

theorem lift {x x' : Except CompileError α} (h : SqlFilter.Guarded p x x') :
    Guarded p (liftM x : Binder α) (liftM x') := by
  intro table
  constructor
  . intro hp
    rw [h.same hp]
  . intro r hr
    change (x >>= fun a => .ok (a, table)) = _ at hr
    obtain ⟨a, hx, _⟩ := bind_eq_ok.1 hr
    exact h.holds hx

theorem congr (h : Guarded p m m') (hpq : p ↔ q) : Guarded q m m' :=
  fun table => (h table).congr hpq

theorem bind {f f' : α → Binder β} (h : Guarded p m m') (hf : ∀ a, Guarded q (f a) (f' a)) :
    Guarded (p ∧ q) (m >>= f) (m' >>= f') := by
  intro table
  rw [run_bind, run_bind]
  exact (h table).bind fun r => hf r.1 r.2

theorem map (h : Guarded p m m') (f : α → β) :
    Guarded p (do return f (← m)) (do return f (← m')) :=
  (h.bind fun _ => refl trivial _).congr (by rw [and_true])

end Guarded

end Binder

end SqlFilter
