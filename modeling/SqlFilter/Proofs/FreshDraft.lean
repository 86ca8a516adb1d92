import SqlFilter.Proofs.DraftForm

/-!
This module contains drafts in which no value can spell a placeholder, and the rule on the values of
a filter under which its draft is one of them.
-/

namespace SqlFilter

open Draft

namespace Compiler

variable (c : Compiler)

def noReference : LeafRule where
  value token v :=
    !v.beginsWithColon || !(c.family? token == some .compare || c.family? token == some .like)
  list token vs := !vs.any Value.beginsWithColon || !(c.family? token == some .like)

end Compiler

namespace Draft

def Fresh (d : Draft) : Prop :=
  ∀ type v, Piece.scalar type v ∈ d → v.beginsWithColon = false

namespace Fresh

variable {d e : Draft}

theorem nil : Fresh [] := by
  intro type v h
  cases h

theorem tail {p : Piece} (h : Fresh (p :: d)) : Fresh d :=
  fun type v hm => h type v (List.mem_cons_of_mem p hm)

theorem text (s : String) (hd : Fresh d) : Fresh (.text s :: d) := by
  intro type v h
  exact hd type v (by simpa using h)

theorem register (type : BindType) (v : Value) (hd : Fresh d) : Fresh (.fresh type v :: d) := by
  intro type v h
  exact hd type v (by simpa using h)

theorem scalar (type : BindType) {v : Value} (hv : v.beginsWithColon = false) :
    Fresh [.scalar type v] := by
  intro type v h
  simp only [List.mem_singleton, Piece.scalar.injEq] at h
  rw [h.2]
  exact hv

theorem append (hd : Fresh d) (he : Fresh e) : Fresh (d ++ e) := by
  intro type v h
  cases List.mem_append.1 h with
  | inl hm => exact hd type v hm
  | inr hm => exact he type v hm

theorem inParentheses (hd : Fresh d) : Fresh d.inParentheses :=
  text _ (hd.append (text _ nil))

theorem joined {separator : String} {ds : List Draft} (h : ∀ d ∈ ds, Fresh d) :
    Fresh (Draft.joined separator ds) := by
  induction ds with
  | nil => exact nil
  | cons d ds ih =>
    simp only [List.mem_cons, forall_eq_or_imp] at h
    cases ds with
    | nil => exact h.1
    | cons e ds => exact h.1.append (text _ (ih h.2))

theorem joinParts {parts : List (Connective × Draft)} (h : ∀ part ∈ parts, Fresh part.2) :
    Fresh (Draft.joinParts parts) := by
  have hj := joinParts_induction (P := Fresh) (fun part hp _ => h part hp)
    fun connective hd he => hd.append (text _ he)
  cases hj with
  | inl hnil =>
    rw [hnil]
    exact nil
  | inr hd => exact hd

theorem group {parts : List (Connective × Draft)} (h : ∀ part ∈ parts, Fresh part.2) :
    Fresh (Draft.group parts) := by
  unfold Draft.group
  dsimp only
  split
  . exact nil
  . exact (joinParts h).inParentheses

theorem select {fields table behind : String} (hd : Fresh d) :
    Fresh (Draft.select fields table d behind) := by
  apply text
  apply append
  . unfold whereClause
    split
    . exact nil
    . exact text _ hd
  . unfold ofText
    split
    . exact nil
    . exact text _ nil

end Fresh

end Draft

open Draft

theorem TestForm.fresh_of {schema : Schema} {family : OperatorFamily} {d : Draft}
    (h : TestForm schema (fun v => v.beginsWithColon = false) Fresh family d) : Fresh d := by
  cases h with
  | nullity _ _ => exact .text _ .nil
  | constant _ => exact .text _ .nil
  | fresh _ => exact .text _ (.register _ _ .nil)
  | scalar _ hv => exact .text _ (.scalar _ hv)
  | range _ => exact .text _ (.register _ _ (.text _ (.register _ _ .nil)))
  | members _ =>
    apply Fresh.text
    apply Fresh.text
    apply Fresh.append _ (.text _ .nil)
    apply Fresh.joined
    intro d hd
    obtain ⟨v, _, rfl⟩ := List.mem_map.1 hd
    exact .register _ _ .nil
  | patterns _ hvs =>
    apply Fresh.text
    apply Fresh.append _ (.text _ .nil)
    apply Fresh.joined
    intro d hd
    obtain ⟨v, hv, rfl⟩ := List.mem_map.1 hd
    exact .text _ (.scalar _ (hvs v hv))
  | select _ hd => exact .text _ hd.inParentheses
  | existing hd => exact .text _ hd.inParentheses
  | columns _ _ => exact .text _ .nil

namespace Compiler

theorem draftInvariant_fresh (c : Compiler) :
    DraftInvariant c c.noReference (fun v => v.beginsWithColon = false) Fresh Fresh where
  value {token v} hv hfam := by
    rcases hfam with hfam | hfam <;> simpa [noReference, hfam] using hv
  list {token vs} hvs hfam := by
    simpa [noReference, hfam] using hvs
  test h := h.fresh_of
  literal := .text _ .nil
  group := .group
  select _ _ _ hp := .select (.joinParts hp)

theorem fresh_groupDraft {c : Compiler} {group : Group} {d : Draft}
    (hv : Group.obeys c.noReference group = true) (h : c.groupDraft group = some d) :
    Fresh d := by
  obtain ⟨parts, hp, rfl⟩ := Option.map_eq_some_iff.1 h
  exact .joinParts (c.draftInvariant_fresh.partDrafts _ (Group.obeys_clauses group hv) hp)

end Compiler

end SqlFilter
