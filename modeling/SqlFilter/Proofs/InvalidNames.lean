import SqlFilter.Proofs.Expansion

/-!
This module contains clauses that are never compiled. A single invalid name among those that a field
joins is enough, whatever the operand is, because each name takes part in a test or in a failure; and
so is a list of no operators.
-/

namespace SqlFilter

open Binder

def Clause.Fails (c : Compiler) (clause : Clause) : Prop :=
  ∀ table, ∃ e, c.clauseText clause table = .error e

section Fails

variable {c : Compiler} {clauses : List (Connective × Clause)}

theorem Clause.fails_failure (e : CompileError) : Fails c (.failure e) := by
  intro table
  rw [Compiler.clauseText]
  exact ⟨e, rfl⟩

theorem Clause.fails_test {name : String} (h : Identifier.check name ≠ .ok ())
    (comparison : Comparison) (argument : Argument (SubQuery (List (Connective × Clause)))) :
    Fails c (.test (.column name) comparison argument) := by
  intro table
  rw [Compiler.clauseText, Compiler.testText, Compiler.leftSide, Compiler.column]
  cases hc : checkField name with
  | error e => exact ⟨e, rfl⟩
  | ok _ => exact absurd (check_of_checkField hc) h

theorem Compiler.parts_error (h : ∃ part ∈ clauses, part.2.Fails c) (table : BindTable) :
    ∃ e, c.parts clauses table = .error e := by
  induction clauses generalizing table with
  | nil => simp at h
  | cons part clauses ih =>
    obtain ⟨connective, clause⟩ := part
    rw [parts, run_bind]
    cases ht : c.clauseText clause table with
    | error e => exact ⟨e, rfl⟩
    | ok r =>
      rw [List.exists_mem_cons_iff] at h
      rcases h with h | h
      . obtain ⟨e, he⟩ := h table
        rw [ht] at he
        cases he
      . obtain ⟨e, he⟩ := ih h r.2
        rw [ok_bind, run_bind, he]
        exact ⟨e, rfl⟩

theorem Clause.fails_group (h : ∃ part ∈ clauses, part.2.Fails c) : Fails c (.group clauses) := by
  intro table
  obtain ⟨e, he⟩ := c.parts_error h table
  rw [Compiler.clauseText, run_bind, he]
  exact ⟨e, rfl⟩

end Fails

namespace FieldTree

inductive Has (P : FieldRef → Prop) : FieldTree → Prop
  | single {field : FieldRef} : P field → Has P (.single field)
  | joined {connective : Connective} {parts : List FieldTree} {part : FieldTree} :
    part ∈ parts → part.Has P → Has P (.joined connective parts)

def IsInvalid (field : FieldRef) : Prop :=
  ∃ name, field = .column name ∧ Identifier.check name ≠ .ok ()

variable {c : Compiler} {P : FieldRef → Prop} {tree : FieldTree}

theorem fails_spread {clause : FieldRef → Clause} (h : tree.Has P)
    (hc : ∀ field, P field → (clause field).Fails c) : (tree.spread clause).Fails c := by
  induction h with
  | single hp => exact hc _ hp
  | joined hm _ ih =>
    rw [spread, spreadParts_eq_map]
    exact Clause.fails_group ⟨_, List.mem_map_of_mem hm, ih⟩

end FieldTree

open FieldTree

section Operands

variable {c : Compiler}

mutual

theorem Operand.fails_clause : (operand : Operand) → ∀ (comparison : Comparison) (tree : FieldTree),
    tree.Has IsInvalid → (operand.clause comparison tree).Fails c
  | .none | .value _ | .list _ | .raw _ | .subQuery _ | .column _ _ => by
    intro comparison tree h
    apply fails_spread h
    rintro _ ⟨name, rfl, hn⟩
    exact Clause.fails_test hn _ _
  | .perField operands => by
    intro comparison tree h
    cases h with
    | single hp =>
      obtain ⟨name, rfl, hn⟩ := hp
      exact Clause.fails_test hn _ _
    | joined hm hp =>
      rw [clause]
      split
      . next hlength => exact Clause.fails_group (fails_clauses operands _ _ _ hlength _ hm hp)
      . exact Clause.fails_failure _
  | .conditions items connective => by
    intro comparison tree h
    apply fails_spread h
    intro field hp
    split
    . exact Clause.fails_failure _
    . next hne =>
      exact Clause.fails_group (fails_itemClauses items _ _ _ (by simpa using hne) hp)

theorem Operand.fails_clauses : (operands : List Operand) → ∀ (comparison : Comparison)
    (connective : Connective) (parts : List FieldTree), operands.length = parts.length →
      ∀ part ∈ parts, part.Has IsInvalid →
        ∃ member ∈ Operand.clauses operands comparison connective parts, member.2.Fails c
  | [] => by
    intro comparison connective parts hlength part hm
    rw [List.eq_nil_of_length_eq_zero hlength.symm] at hm
    cases hm
  | operand :: operands => by
    intro comparison connective parts hlength part hm hp
    cases parts with
    | nil => cases hm
    | cons first parts =>
      rw [clauses, List.exists_mem_cons_iff]
      rcases List.mem_cons.1 hm with rfl | hm
      . exact .inl (fails_clause operand _ _ hp)
      . exact .inr (fails_clauses operands _ _ parts (Nat.succ.inj hlength) part hm hp)

theorem Operand.fails_itemClauses : (items : List (String × Operand)) →
    ∀ (comparison : Comparison) (connective : Connective) (field : FieldRef), items ≠ [] →
      IsInvalid field →
        ∃ member ∈ Operand.itemClauses items comparison connective field, member.2.Fails c
  | [] => by
    intro _ _ _ hne
    exact absurd rfl hne
  | (operator, operand) :: items => by
    intro comparison connective field _ hp
    rw [itemClauses, List.exists_mem_cons_iff]
    exact .inl (fails_clause operand _ _ (.single hp))

end

end Operands

namespace FieldRef

def IsSeparator (c : Char) : Prop :=
  c = '|' ∨ c = '&'

def singleNames (name : String) : List String :=
  (present (Text.splitAt '|' name)).flatMap fun piece => present (Text.splitAt '&' piece)

inductive IsMalformed (name : String) : Prop
  | front {c : Char} : name.toList.head? = some c → IsSeparator c → IsMalformed name
  | piece {piece : String} :
    piece ∈ Text.splitAt '|' name → piece.toList.head? = some '&' → IsMalformed name
  | single {single : String} :
    single ∈ singleNames name → Identifier.check single ≠ .ok () → IsMalformed name

variable {name : String} {c sep : Char}

theorem check_ne_of_separator (hm : c ∈ name.toList) (hc : IsSeparator c) :
    Identifier.check name ≠ .ok () := by
  intro hcheck
  have := Identifier.isSpecial_of_check hcheck c hm
  rcases hc with rfl | rfl <;> cases this

theorem check_ne_of_head? (hhead : name.toList.head? = some c) (hc : IsSeparator c) :
    Identifier.check name ≠ .ok () :=
  check_ne_of_separator (List.mem_of_head? hhead) hc

theorem occursInside_of_mem (hm : sep ∈ name.toList) (hhead : name.toList.head? ≠ some sep) :
    occursInside sep name.toList = true := by
  simp [occursInside, hm, hhead]

end FieldRef

namespace FieldTree

open FieldRef

variable {name piece : String} {c : Char}

def ofPiece (piece : String) : FieldTree :=
  if '&' ∈ piece.toList then
    .joined .and ((present (Text.splitAt '&' piece)).map fun name => .single (.column name))
  else .single (.column piece)

def ofPieces (name : String) : FieldTree :=
  if '|' ∈ name.toList then .joined .or ((present (Text.splitAt '|' name)).map ofPiece)
  else ofPiece name

theorem ofPart_eq_ofPiece (hor : '|' ∉ piece.toList) (hhead : piece.toList.head? ≠ some '&') :
    ofPart piece = ofPiece piece := by
  unfold ofPart ofPiece
  split
  . next hm =>
    obtain ⟨_, sep, he, hinside, rfl, ⟨_, rfl⟩ | ⟨rfl, rfl, _⟩⟩ := multiple?_eq_some hm
    . cases he
      exact absurd (mem_of_occursInside hinside) hor
    . cases he
      rw [if_pos (mem_of_occursInside hinside)]
  . next hm =>
    rw [if_neg]
    intro hand
    have hinside := occursInside_of_mem hand hhead
    rw [multiple?, if_pos hinside] at hm
    split at hm <;> cases hm

theorem ofField_eq_ofPieces (hfront : ∀ c, name.toList.head? = some c → ¬ IsSeparator c)
    (hpiece : ∀ piece ∈ Text.splitAt '|' name, piece.toList.head? ≠ some '&') :
    ofField (.column name) = ofPieces name := by
  unfold ofField ofPieces
  by_cases hor : '|' ∈ name.toList
  . have hinside := occursInside_of_mem hor fun h => hfront _ h (.inl rfl)
    rw [multiple?, if_pos hinside, if_pos hor]
    dsimp only
    congr 1
    apply List.map_congr_left
    intro piece hp
    have hp := List.mem_of_mem_filter hp
    exact ofPart_eq_ofPiece (Text.not_mem_of_mem_splitAt hp) (hpiece piece hp)
  . have hnot : occursInside '|' name.toList = false := by simp [occursInside, hor]
    rw [multiple?, if_neg (by simp [hnot]), if_neg hor]
    unfold ofPiece
    by_cases hand : '&' ∈ name.toList
    . have hinside := occursInside_of_mem hand fun h => hfront _ h (.inr rfl)
      rw [if_pos hinside, if_pos hand]
      dsimp only
      congr 1
      apply List.map_congr_left
      intro single hs
      have hs := List.mem_of_mem_filter hs
      unfold ofPart
      rw [multiple?_of_not_mem (fun hm => hor (Text.mem_of_mem_splitAt hs hm))
        (Text.not_mem_of_mem_splitAt hs)]
    . have hnot : occursInside '&' name.toList = false := by simp [occursInside, hand]
      rw [if_neg (by simp [hnot]), if_neg hand]

theorem has_ofPart_of_head? (hhead : piece.toList.head? = some c) (hc : IsSeparator c) :
    (ofPart piece).Has IsInvalid := by
  unfold ofPart
  split
  . next hm =>
    obtain ⟨_, sep, he, hinside, rfl, _⟩ := multiple?_eq_some hm
    cases he
    obtain ⟨first, hfirst, hh⟩ := exists_head?_splitAt hinside
    exact .joined (List.mem_map_of_mem hfirst)
      (.single ⟨first, rfl, check_ne_of_head? (hh.trans hhead) hc⟩)
  . exact .single ⟨piece, rfl, check_ne_of_head? hhead hc⟩

theorem has_ofField_of_head? (hhead : name.toList.head? = some c) (hc : IsSeparator c) :
    (ofField (.column name)).Has IsInvalid := by
  unfold ofField
  split
  . next hm =>
    obtain ⟨_, sep, he, hinside, rfl, _⟩ := multiple?_eq_some hm
    cases he
    obtain ⟨first, hfirst, hh⟩ := exists_head?_splitAt hinside
    exact .joined (List.mem_map_of_mem hfirst) (has_ofPart_of_head? (hh.trans hhead) hc)
  . exact .single ⟨name, rfl, check_ne_of_head? hhead hc⟩

theorem has_ofPiece {P : FieldRef → Prop} {single : String}
    (hs : single ∈ present (Text.splitAt '&' piece)) (hp : P (.column single)) :
    (ofPiece piece).Has P := by
  unfold ofPiece
  split
  . exact .joined (List.mem_map_of_mem hs) (.single hp)
  . next hand =>
    rw [Text.splitAt_of_not_mem hand] at hs
    rw [List.mem_singleton.1 (List.mem_of_mem_filter hs)] at hp
    exact .single hp

theorem has_ofPieces {P : FieldRef → Prop} {single : String} (hs : single ∈ singleNames name)
    (hp : P (.column single)) : (ofPieces name).Has P := by
  obtain ⟨piece, hpiece, hs⟩ := List.mem_flatMap.1 hs
  unfold ofPieces
  split
  . exact .joined (List.mem_map_of_mem hpiece) (has_ofPiece hs hp)
  . next hor =>
    rw [Text.splitAt_of_not_mem hor] at hpiece
    rw [List.mem_singleton.1 (List.mem_of_mem_filter hpiece)] at hs
    exact has_ofPiece hs hp

theorem has_ofField_of_piece (hfront : ∀ c, name.toList.head? = some c → ¬ IsSeparator c)
    (hp : piece ∈ Text.splitAt '|' name) (hhead : piece.toList.head? = some '&') :
    (ofField (.column name)).Has IsInvalid := by
  by_cases hor : '|' ∈ name.toList
  . have hinside := occursInside_of_mem hor fun h => hfront _ h (.inl rfl)
    have hpresent : piece ∈ present (Text.splitAt '|' name) := by
      apply List.mem_filter.2 ⟨hp, ?_⟩
      simp only [Bool.not_eq_true', String.isEmpty_eq_false_iff]
      rintro rfl
      cases hhead
    unfold ofField
    rw [multiple?, if_pos hinside]
    exact .joined (List.mem_map_of_mem hpresent) (has_ofPart_of_head? hhead (.inr rfl))
  . rw [Text.splitAt_of_not_mem hor, List.mem_singleton] at hp
    subst hp
    exact absurd (.inr rfl) (hfront _ hhead)

theorem has_ofField (h : IsMalformed name) : (ofField (.column name)).Has IsInvalid := by
  by_cases hfront : ∃ c, name.toList.head? = some c ∧ IsSeparator c
  . obtain ⟨c, hhead, hc⟩ := hfront
    exact has_ofField_of_head? hhead hc
  . have hfront : ∀ c, name.toList.head? = some c → ¬ IsSeparator c :=
      fun c hhead hc => hfront ⟨c, hhead, hc⟩
    by_cases hpiece : ∃ piece ∈ Text.splitAt '|' name, piece.toList.head? = some '&'
    . obtain ⟨piece, hp, hhead⟩ := hpiece
      exact has_ofField_of_piece hfront hp hhead
    . have hpiece : ∀ piece ∈ Text.splitAt '|' name, piece.toList.head? ≠ some '&' :=
        fun piece hp hhead => hpiece ⟨piece, hp, hhead⟩
      rw [ofField_eq_ofPieces hfront hpiece]
      cases h with
      | front hhead hc => exact absurd hc (hfront _ hhead)
      | piece hp hhead => exact absurd hhead (hpiece _ hp)
      | single hs hcheck => exact has_ofPieces hs ⟨_, rfl, hcheck⟩

end FieldTree

end SqlFilter
