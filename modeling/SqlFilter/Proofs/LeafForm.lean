import SqlFilter.Proofs.Phrase

/-!
This module contains the texts of simple conditions: each of them is a phrase that cannot be taken
for a nested group, except for comparisons of columns, which are such a phrase in a group of its
own.
-/

namespace SqlFilter

open Draft Text

namespace Schema

variable {schema : Schema} {s : String}

theorem IsIdentifier.isWord (h : schema.IsIdentifier s) : IsWord s := by
  intro c hc
  have word {c : Char} (hw : isWordChar c = true) : c ≠ ' ' ∧ isParenthesis c = false := by
    refine ⟨?_, isParenthesis_of_isWordChar hw⟩
    rintro rfl
    cases hw
  rcases h.safe_name.mem hc with hname | rfl | rfl | hw
  . simp only [isNameChar, Bool.or_eq_true, beq_iff_eq] at hname
    rcases hname with hw | rfl
    . exact word hw
    . decide
  . decide
  . cases schema.quote <;> decide
  . exact word hw

theorem IsIdentifier.ne_empty (h : schema.IsIdentifier s) : s ≠ "" :=
  h.endsSolid.ne_empty

end Schema

theorem BindTable.isWord_placeholder {table : BindTable}
    (hs : CompilerConfig.isStem table.stem = true) (number : Nat) :
    IsWord (table.placeholder number) := by
  intro c hc
  rw [placeholder, String.toList_append] at hc
  cases List.mem_append.1 hc with
  | inl hm =>
    cases List.mem_singleton.1 hm
    decide
  | inr hm =>
    have hw := isWordChar_generated hs number c hm
    refine ⟨?_, isParenthesis_of_isWordChar hw⟩
    rintro rfl
    cases hw

theorem Operator.isLeaf_applied {schema : Schema} {field right : String} {op : Operator}
    (hf : schema.IsIdentifier field) (h : IsPhrase (op.applied field right)) :
    IsLeaf (op.applied field right) := by
  have hs := hf.isWord.beginsSolid hf.ne_empty
  exact (((hs.append _).append _).append _ |>.append _).isLeaf h

namespace Draft

theorem exists_joined_cons (separator : String) (d : Draft) (ds : List Draft) :
    ∃ rest, joined separator (d :: ds) = d ++ rest := by
  cases ds with
  | nil => exact ⟨[], by rw [joined, List.append_nil]⟩
  | cons e ds => exact ⟨_, rfl⟩

end Draft

namespace TestForm

variable {schema : Schema} {IsScalar : Value → Prop} {family : OperatorFamily} {d : Draft}
  {table : BindTable}

theorem exists_isLeaf_of_column (h : TestForm schema IsScalar Draft.Closed .column d) :
    ∃ inside, d = [.text ("( " ++ inside ++ " )")] ∧ IsLeaf inside := by
  cases h with
  | columns hl hr ho _ =>
    refine ⟨_, rfl, Operator.isLeaf_applied hl ?_⟩
    exact Operator.isPhrase_applied (.inl ho) hl.isWord hr.isWord.closed hr.isWord.blocks
  | _ => contradiction

theorem isLeaf_constant {s : String} (h : s = "0 = 1" ∨ s = "1 = 1") : IsLeaf s := by
  have digit {s : String} (hs : s = "0" ∨ s = "1") : IsWord s := by
    rcases hs with rfl | rfl <;> exact .of_all (by decide)
  have hone := digit (s := "1") (.inr rfl)
  have hphrase {s : String} (hs : s = "0" ∨ s = "1") :
      IsPhrase (Operator.equal.applied s "1") :=
    Operator.isPhrase_applied (.inl rfl) (digit hs) hone.closed hone.blocks
  rcases h with rfl | rfl
  . exact BeginsSolid.isLeaf ⟨'0', _, rfl, by decide⟩ (hphrase (.inl rfl))
  . exact BeginsSolid.isLeaf ⟨'1', _, rfl, by decide⟩ (hphrase (.inr rfl))

theorem isWord_written_value {p : Piece} (hp : p.param?.isSome = true) (ht : table.Numbered)
    (hs : CompilerConfig.isStem table.stem = true) : IsWord (p.written table) := by
  obtain ⟨⟨v, type⟩, hv⟩ := Option.isSome_iff_exists.1 hp
  obtain ⟨number, hw⟩ := ht.written_value hv
  rw [hw]
  exact BindTable.isWord_placeholder hs number

section Written

variable {field : String} {op : Operator} {type : BindType} (hf : schema.IsIdentifier field)
  (ht : table.Numbered) (hs : CompilerConfig.isStem table.stem = true)

include hf ht hs

theorem isLeaf_value {p : Piece} (hp : p.param?.isSome = true)
    (ho : op.family = .compare ∨ op.family = .time ∨ op.family = .like ∨ op.family = .oneOf) :
    IsLeaf (written table (op.appliedDraft field [p])) := by
  have hw : IsWord (p.written table) := isWord_written_value hp ht hs
  rw [Operator.written_appliedDraft, written, written_nil, String.append_empty]
  exact Operator.isLeaf_applied hf (Operator.isPhrase_applied ho hf.isWord hw.closed hw.blocks)

theorem isLeaf_range {low high : Value}
    (ho : op.family = .between ∨ op.family = .betweenTime) :
    IsLeaf (written table (op.rangeDraft field type low high)) := by
  have hl : IsWord ((Piece.fresh type low).written table) := isWord_written_value rfl ht hs
  have hh : IsWord ((Piece.fresh type high).written ((Piece.fresh type low).after table)) :=
    isWord_written_value rfl (ht.after_piece _) (by rwa [BindTable.stem_after_piece])
  have hphrase := Operator.isPhrase_range ho hf.isWord hl hh
  rw [Operator.rangeDraft, Operator.written_appliedDraft]
  simp only [written, String.append_empty, ← String.append_assoc]
  exact Operator.isLeaf_applied hf hphrase

theorem isLeaf_members {vs : List Value} (ho : op.family = .oneOf) :
    IsLeaf (written table (op.appliedDraft field
      (.text "(" :: joined "," (vs.map fun v => [.fresh type v]) ++ [.text ")"]))) := by
  have hclosed := Draft.Closed.members type vs table ht hs
  rw [Operator.written_appliedDraft, written_listed]
  apply Operator.isLeaf_applied hf
  exact Operator.isPhrase_applied (.inr (.inr (.inr ho))) hf.isWord (closed_parenthesized hclosed)
    (blocks_parenthesized hclosed)

theorem isLeaf_patterns {connective : Connective} {vs : List Value} :
    IsLeaf (written table (.text "(" ::
      joined (" " ++ connective.sql ++ " ")
        (vs.map fun v => op.appliedDraft field [.scalar type v]) ++ [.text ")"])) := by
  have hclosed := Draft.Closed.patterns hf op connective type vs table ht hs
  rw [written_listed]
  refine ⟨isPhrase_block (closed_parenthesized hclosed) (blocks_parenthesized hclosed), by simp, ?_⟩
  cases vs with
  | nil =>
    rw [List.map_nil, joined, written_nil]
    unfold BeginsGroup
    decide
  | cons v vs =>
    obtain ⟨rest, he⟩ := exists_joined_cons (" " ++ connective.sql ++ " ")
      (op.appliedDraft field [.scalar type v])
      (vs.map fun v => op.appliedDraft field [.scalar type v])
    rw [List.map_cons, he, String.append_assoc, written_append, Operator.written_appliedDraft]
    apply BeginsSolid.not_beginsGroup_parenthesis
    have hbegins := hf.isWord.beginsSolid hf.ne_empty
    exact ((((hbegins.append _).append _).append _ |>.append _).append _).append _

end Written

theorem isLeaf_written (h : TestForm schema IsScalar Draft.Closed family d)
    (hfamily : family ≠ .column) (ht : table.Numbered)
    (hs : CompilerConfig.isStem table.stem = true) : IsLeaf (written table d) := by
  cases h with
  | @nullity field op hf ho =>
    rw [written_text, written_nil, String.append_empty]
    have hbegins := hf.isWord.beginsSolid hf.ne_empty
    exact ((hbegins.append _).append _).isLeaf (Operator.isPhrase_nullity ho hf.isWord)
  | constant he =>
    rw [written_text, written_nil, String.append_empty]
    exact isLeaf_constant he
  | fresh hf ho => exact isLeaf_value hf ht hs rfl (by tauto)
  | scalar hf _ ho => exact isLeaf_value hf ht hs rfl (by tauto)
  | range hf ho => exact isLeaf_range hf ht hs ho
  | members hf ho => exact isLeaf_members hf ht hs ho
  | patterns hf => exact isLeaf_patterns hf ht hs
  | select hf hd ho =>
    have hclosed := hd table ht hs
    rw [Operator.written_appliedDraft, written_inParentheses]
    apply Operator.isLeaf_applied hf
    exact Operator.isPhrase_applied (by tauto) hf.isWord (closed_grouped hclosed)
      (blocks_grouped hclosed)
  | @existing op d hd ho =>
    have hclosed := hd table ht hs
    rw [written_text, written_inParentheses]
    have hbegins : BeginsSolid op.sql := by
      cases op <;> exact ⟨_, _, rfl, by decide⟩
    apply ((hbegins.append _).append _).isLeaf
    exact Operator.isPhrase_existing ho (closed_grouped hclosed) (blocks_grouped hclosed)
      (by simp)
  | columns _ _ _ he => exact absurd he hfamily

end TestForm

end SqlFilter
