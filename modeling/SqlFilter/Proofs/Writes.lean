import SqlFilter.Proofs.Written

/-!
This module contains what it means that a computation with a table of binds writes a draft, and how
such computations are put together.
-/

namespace SqlFilter

open Draft

namespace Binder

variable {α β : Type}

/-- Whether a computation succeeds exactly if there is a draft, and then writes it. -/
def Writes (m : Binder String) (d : Option Draft) : Prop :=
  ∀ table : BindTable, table.Numbered →
    (m table).toOption = d.map fun d => (written table d, after table d)

theorem toOption_bind (m : Binder α) (f : α → Binder β) (table : BindTable) :
    ((m >>= f) table).toOption = (m table).toOption.bind fun r => (f r.1 r.2).toOption := by
  change (m table >>= fun r => f r.1 r.2).toOption = _
  cases m table with
  | error e => rfl
  | ok r => rfl

theorem toOption_lift (x : Except CompileError α) (table : BindTable) :
    ((liftM x : Binder α) table).toOption = x.toOption.map fun a => (a, table) := by
  cases x with
  | error e => rfl
  | ok a => rfl

@[simp]
theorem toOption_pure (a : α) (table : BindTable) :
    ((pure a : Binder α) table).toOption = some (a, table) := rfl

theorem scalar_eq (type : BindType) (value : Value) (table : BindTable) :
    scalar type value table =
      .ok ((Piece.scalar type value).written table, (Piece.scalar type value).after table) := by
  simp only [scalar, Piece.written, Piece.after]
  cases table.reference? value with
  | none => rfl
  | some s => rfl

theorem register_eq (type : BindType) (value : Value) (table : BindTable) :
    register type value table =
      .ok ((Piece.fresh type value).written table, (Piece.fresh type value).after table) := rfl

theorem mapM_eq {f : Value → Binder String} {p : Value → Piece}
    (hf : ∀ v table, f v table = .ok ((p v).written table, (p v).after table)) (vs : List Value)
    (table : BindTable) :
    vs.mapM f table = .ok (writtenEach table (vs.map p), after table (vs.map p)) := by
  induction vs generalizing table with
  | nil => rfl
  | cons v vs ih =>
    rw [List.mapM_cons]
    change (f v table >>= fun r => (vs.mapM f >>= fun rest => pure (r.1 :: rest)) r.2) = _
    rw [hf]
    change (vs.mapM f ((p v).after table) >>= fun r => .ok ((p v).written table :: r.1, r.2)) = _
    rw [ih]
    rfl

namespace Writes

theorem pure (s : String) : Writes (pure s) (some [.text s]) := by
  intro table _
  simp

theorem throw (e : CompileError) : Writes (throw e) none := by
  intro table _
  rfl

theorem scalar (type : BindType) (value : Value) :
    Writes (Binder.scalar type value) (some [.scalar type value]) := by
  intro table _
  rw [scalar_eq]
  simp [written, after_cons]

theorem register (type : BindType) (value : Value) :
    Writes (Binder.register type value) (some [.fresh type value]) := by
  intro table _
  rw [register_eq]
  simp [written, after_cons]

theorem map {m : Binder String} {d : Option Draft} (h : Writes m d) {f : String → String}
    {g : Draft → Draft} (hw : ∀ table d, written table (g d) = f (written table d))
    (ha : ∀ table d, after table (g d) = after table d) :
    Writes (do return f (← m)) (d.map g) := by
  intro table ht
  rw [toOption_bind, h table ht]
  cases d with
  | none => rfl
  | some d => simp [hw, ha]

theorem bind {x : Except CompileError α} {x' : Option α} (hx : x.toOption = x')
    {f : α → Binder String} {k : α → Option Draft} (h : ∀ a, x = .ok a → Writes (f a) (k a)) :
    Writes (do f (← x)) (x'.bind k) := by
  intro table ht
  subst hx
  rw [toOption_bind, toOption_lift]
  cases x with
  | error e => rfl
  | ok a => exact h a rfl table ht

theorem list {f : Value → Binder String} {p : Value → Piece}
    (hf : ∀ v table, f v table = .ok ((p v).written table, (p v).after table))
    {g : String → String} {k : Piece → Draft}
    (hg : ∀ table q, written table (k q) = g (q.written table))
    (hk : ∀ table q, after table (k q) = q.after table)
    (r : String → String) (frame : Draft → Draft)
    (hr : ∀ table d, written table (frame d) = r (written table d))
    (ha : ∀ table d, after table (frame d) = after table d) (separator : String)
    (vs : List Value) :
    Writes (do
        let texts ← vs.mapM f
        return r (separator.intercalate (texts.map g)))
      (some (frame (joined separator (vs.map fun v => k (p v))))) := by
  intro table _
  have hmap : (vs.map fun v => k (p v)) = (vs.map p).map k := by simp
  rw [toOption_bind, mapM_eq hf, hmap]
  simp only [toOption_ok, Option.bind_some, toOption_pure, Option.map_some]
  rw [hr, ha]
  rw [written_joined hg hk, after_joined hk]

theorem ofExcept {x : Except CompileError String} {d : Option Draft}
    (h : x.toOption.map (fun s => [.text s]) = d) : Writes (liftM x) d := by
  intro table _
  subst h
  rw [toOption_lift]
  cases x with
  | error e => rfl
  | ok s => simp

end Writes

def WritesParts (m : Binder (List (Connective × String)))
    (parts : Option (List (Connective × Draft))) : Prop :=
  ∀ table : BindTable, table.Numbered →
    (m table).toOption = parts.map fun parts => (writtenParts table parts, afterParts table parts)

namespace WritesParts

variable {m : Binder (List (Connective × String))} {parts : Option (List (Connective × Draft))}

theorem nil : WritesParts (pure []) (some []) := by
  intro table _
  rfl

theorem cons {connective : Connective} {text : Binder String} {d : Option Draft}
    (ht : Writes text d) (hm : WritesParts m parts) :
    WritesParts (do
        let sql ← text
        let others ← m
        return (connective, sql) :: others)
      (do
        let d ← d
        let others ← parts
        some ((connective, d) :: others)) := by
  intro table htable
  rw [toOption_bind, ht table htable]
  cases d with
  | none => rfl
  | some d =>
    simp only [Option.map_some, Option.bind_some]
    rw [toOption_bind, hm _ (htable.after d)]
    cases parts with
    | none => rfl
    | some parts => rfl

variable (h : WritesParts m parts)
  (hp : ∀ ps, parts = some ps → ∀ part ∈ ps, part.2 = [] ∨ Solid part.2)

include h hp

theorem join : Writes (SqlFilter.joinParts <$> m) (Draft.joinParts <$> parts) := by
  intro table ht
  change ((m >>= fun parts => pure (SqlFilter.joinParts parts)) table).toOption = _
  rw [toOption_bind, h table ht]
  cases parts with
  | none => rfl
  | some parts => simp [written_joinParts (hp parts rfl) ht, after_joinParts]

theorem group :
    Writes (do return parenthesized (SqlFilter.joinParts (← m)))
      (do
        let parts ← parts
        some (Draft.group parts)) := by
  intro table ht
  rw [toOption_bind, h table ht]
  cases parts with
  | none => rfl
  | some parts => simp [written_group (hp parts rfl) ht, after_group]

end WritesParts

end Binder

end SqlFilter
