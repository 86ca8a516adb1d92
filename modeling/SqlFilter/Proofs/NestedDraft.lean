import SqlFilter.Proofs.Balance
import SqlFilter.Proofs.InjectionSafety

/-!
This module contains the parentheses of drafts: wherever a draft is written, as many parentheses are
open behind it as in front of it.
-/

namespace SqlFilter

open Draft

theorem Text.isParenthesis_of_isWordChar {c : Char} (h : isWordChar c = true) :
    isParenthesis c = false := by
  have := isFlat_of_isWordChar h
  simp only [isFlat, Bool.and_eq_true, bne_iff_ne] at this
  simp [isParenthesis, this]

theorem SafeText.closed {style : QuoteStyle} {cs : List Char}
    (h : SafeText Text.isFlat style.char cs) : Text.Closed cs := by
  apply Text.Closed.of_forall
  intro c hc
  rcases h.mem hc with hflat | rfl | rfl | hw
  . simp only [Text.isFlat, Bool.and_eq_true, bne_iff_ne] at hflat
    simp [Text.isParenthesis, hflat]
  . rfl
  . cases style <;> rfl
  . exact Text.isParenthesis_of_isWordChar hw

theorem Operator.closed_sql (op : Operator) : Text.Closed op.sql.toList := by
  apply Text.Closed.of_all
  cases op <;> decide

theorem Connective.closed_sql (connective : Connective) : Text.Closed connective.sql.toList := by
  apply Text.Closed.of_all
  cases connective <;> decide

theorem Text.Closed.blank {cs : List Char} (h : Closed cs) : Closed (' ' :: cs) :=
  h.char rfl

namespace Text

variable {s : String}

theorem closed_spaced (h : Closed s.toList) : Closed (" " ++ s ++ " ").toList := by
  rw [String.toList_append, String.toList_append]
  exact Closed.append (.blank h) (.blank .nil)

theorem closed_parenthesized (h : Closed s.toList) : Closed ("(" ++ s ++ ")").toList := by
  simpa using h.parenthesized

theorem grouped_eq (s : String) : "( " ++ s ++ " )" = "(" ++ (" " ++ s ++ " ") ++ ")" := by
  rw [show "( " = "(" ++ " " from rfl, show " )" = " " ++ ")" from rfl]
  simp only [String.append_assoc]

theorem closed_grouped (h : Closed s.toList) : Closed ("( " ++ s ++ " )").toList := by
  rw [grouped_eq]
  exact closed_parenthesized (closed_spaced h)

end Text

namespace Operator

variable {field right : String}

theorem closed_field (op : Operator) (hf : Text.Closed field.toList) :
    Text.Closed (field ++ " " ++ op.sql).toList := by
  simp only [String.toList_append]
  exact (hf.append (.blank .nil)).append op.closed_sql

theorem closed_applied (op : Operator) (hf : Text.Closed field.toList)
    (hr : Text.Closed right.toList) : Text.Closed (op.applied field right).toList := by
  rw [applied, String.toList_append, String.toList_append]
  exact ((op.closed_field hf).append (.blank .nil)).append hr

end Operator

namespace Draft

theorem written_listed (table : BindTable) (d : Draft) :
    written table (.text "(" :: d ++ [.text ")"]) = "(" ++ written table d ++ ")" := by
  simp [String.append_assoc]

def Closed (d : Draft) : Prop :=
  ∀ table : BindTable, table.Numbered → CompilerConfig.isStem table.stem = true →
    Text.Closed (written table d).toList

namespace Closed

variable {d e : Draft} {s : String}

theorem nil : Closed [] := fun _ _ _ => Text.Closed.nil

theorem append (hd : Closed d) (he : Closed e) : Closed (d ++ e) := by
  intro table ht hs
  rw [written_append, String.toList_append]
  apply (hd table ht hs).append
  apply he _ (ht.after d)
  rw [BindTable.stem_after]
  exact hs

theorem text (hs : Text.Closed s.toList) (hd : Closed d) : Closed (.text s :: d) := by
  intro table ht hstem
  rw [written_text, String.toList_append]
  exact hs.append (hd table ht hstem)

theorem value {p : Piece} (hp : p.param?.isSome = true) : Closed [p] := by
  intro table ht hs
  obtain ⟨⟨value, type⟩, hv⟩ := Option.isSome_iff_exists.1 hp
  obtain ⟨number, hw⟩ := ht.written_value hv
  simp only [written, hw, String.append_empty, BindTable.placeholder, String.toList_append]
  apply Text.Closed.append (.of_all (by decide))
  apply Text.Closed.of_forall
  intro c hc
  exact Text.isParenthesis_of_isWordChar (BindTable.isWordChar_generated hs number c hc)

theorem inParentheses (hd : Closed d) : Closed d.inParentheses := by
  intro table ht hs
  rw [written_inParentheses]
  exact Text.closed_grouped (hd table ht hs)

theorem listed (hd : Closed d) : Closed (.text "(" :: d ++ [.text ")"]) := by
  intro table ht hs
  rw [written_listed]
  exact Text.closed_parenthesized (hd table ht hs)

theorem joined {separator : String} (hs : Text.Closed separator.toList) {ds : List Draft}
    (h : ∀ d ∈ ds, Closed d) : Closed (Draft.joined separator ds) := by
  induction ds with
  | nil => exact nil
  | cons d ds ih =>
    simp only [List.mem_cons, forall_eq_or_imp] at h
    cases ds with
    | nil => exact h.1
    | cons e ds => exact h.1.append (text hs (ih h.2))

theorem link (connective : Connective) : Text.Closed (" " ++ connective.sql ++ " ").toList :=
  Text.closed_spaced connective.closed_sql

theorem joinParts {parts : List (Connective × Draft)} (h : ∀ part ∈ parts, Closed part.2) :
    Closed (Draft.joinParts parts) := by
  have hj := joinParts_induction (P := Closed) (fun part hp _ => h part hp)
    fun connective hd he => hd.append (text (link connective) he)
  cases hj with
  | inl hnil =>
    rw [hnil]
    exact nil
  | inr hd => exact hd

theorem group {parts : List (Connective × Draft)} (h : ∀ part ∈ parts, Closed part.2) :
    Closed (Draft.group parts) := by
  unfold Draft.group
  dsimp only
  split
  . exact nil
  . exact (joinParts h).inParentheses

theorem select {fields table behind : String} (hf : Text.Closed fields.toList)
    (ht : Text.Closed table.toList) (hd : Closed d) (hb : Text.Closed behind.toList) :
    Closed (Draft.select fields table d behind) := by
  have hhead : Text.Closed ("SELECT " ++ fields ++ " FROM " ++ table).toList := by
    simp only [String.toList_append]
    apply Text.Closed.append _ ht
    apply Text.Closed.append _ (.of_all (by decide))
    exact .append (.of_all (by decide)) hf
  apply text hhead
  apply append
  . unfold whereClause
    split
    . exact nil
    . exact text (.of_all (by decide)) hd
  . unfold ofText
    split
    . exact nil
    . exact text hb nil

theorem appliedDraft {schema : Schema} {field : String} (hf : schema.IsIdentifier field)
    (op : Operator) (hd : Closed d) : Closed (op.appliedDraft field d) := by
  apply text _ hd
  rw [String.toList_append]
  exact (op.closed_field hf.safe_flat.closed).append (.blank .nil)

theorem members (type : BindType) (vs : List Value) :
    Closed (Draft.joined "," (vs.map fun v => [.fresh type v])) := by
  apply joined (.of_all (by decide))
  intro d hd
  obtain ⟨v, _, rfl⟩ := List.mem_map.1 hd
  exact value rfl

theorem patterns {schema : Schema} {field : String} (hf : schema.IsIdentifier field)
    (op : Operator) (connective : Connective) (type : BindType) (vs : List Value) :
    Closed (Draft.joined (" " ++ connective.sql ++ " ")
      (vs.map fun v => op.appliedDraft field [.scalar type v])) := by
  apply joined (link _)
  intro d hd
  obtain ⟨v, _, rfl⟩ := List.mem_map.1 hd
  exact appliedDraft hf _ (value rfl)

end Closed

end Draft

theorem TestForm.closed {schema : Schema} {IsScalar : Value → Prop} {family : OperatorFamily}
    {d : Draft} (h : TestForm schema IsScalar Closed family d) : Closed d := by
  cases h with
  | @nullity field op hf => exact .text (op.closed_field hf.safe_flat.closed) .nil
  | constant he =>
    apply Closed.text _ .nil
    apply Text.Closed.of_all
    rcases he with rfl | rfl <;> decide
  | fresh hf => exact .appliedDraft hf _ (.value rfl)
  | scalar hf => exact .appliedDraft hf _ (.value rfl)
  | range hf =>
    apply Closed.appliedDraft hf
    exact (Closed.value rfl).append (.text (.of_all (by decide)) (.value rfl))
  | members hf => exact .appliedDraft hf _ (Closed.members _ _).listed
  | patterns hf => exact (Closed.patterns hf _ _ _ _).listed
  | select hf hd => exact .appliedDraft hf _ hd.inParentheses
  | @existing op d hd =>
    apply Closed.text _ hd.inParentheses
    rw [String.toList_append]
    exact op.closed_sql.append (.blank .nil)
  | @columns left right op hl hr =>
    have hinside := op.closed_applied hl.safe_flat.closed hr.safe_flat.closed
    exact .text (Text.closed_grouped hinside) .nil

namespace Compiler

theorem draftInvariant_closed (c : Compiler) (rule : LeafRule) :
    DraftInvariant c rule (fun _ => True) Closed Closed where
  value _ _ := trivial
  list _ _ _ _ := trivial
  test h := h.closed
  literal := .text (.of_all (by decide)) .nil
  group := .group
  select hf ht ho hp := by
    apply Closed.select (Schema.safe_fieldsText hf).closed ht.safe_flat.closed (.joinParts hp)
    rw [String.toList_append]
    exact (Schema.orderClause_eq_ok ho).1.closed.append
      (Selection.windowClause_cases _ QuoteStyle.backtick.char).1.closed

theorem closed_groupDraft {c : Compiler} {rule : LeafRule} {group : Group} {d : Draft}
    (hg : Group.obeys rule group = true) (h : c.groupDraft group = some d) : Closed d := by
  obtain ⟨parts, hp, rfl⟩ := Option.map_eq_some_iff.1 h
  exact .joinParts ((c.draftInvariant_closed rule).partDrafts _ (Group.obeys_clauses group hg) hp)

end Compiler

end SqlFilter
