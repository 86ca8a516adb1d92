import SqlFilter.Compiler.Text
import SqlFilter.Proofs.DraftSafety

/-!
This module contains drafts in their written form: joining, parentheses and selects do the same to
drafts as the compiler does to texts.
-/

namespace SqlFilter

namespace Template

variable {slots : Slots}

def slot (name : String) : String :=
  "%" ++ name ++ "%"

theorem fill_append {cs : List Char} (h : '%' ∉ cs) (rest : List Char) :
    fill slots none (cs ++ rest) = cs ++ fill slots none rest := by
  induction cs with
  | nil => rfl
  | cons c cs ih =>
    simp only [List.mem_cons, not_or] at h
    have hne : c ≠ '%' := fun he => h.1 he.symm
    simp [fill, hne, ih h.2]

theorem fill_name {name : List Char} (h : '%' ∉ name) (read rest : List Char) :
    fill slots (some read) (name ++ '%' :: rest) =
      (slots.text (String.ofList (read.reverse ++ name))).toList ++ fill slots none rest := by
  induction name generalizing read with
  | nil => simp [fill]
  | cons c name ih =>
    simp only [List.mem_cons, not_or] at h
    have hne : c ≠ '%' := fun he => h.1 he.symm
    simp [fill, hne, ih h.2]

theorem fill_slot {name : String} (h : '%' ∉ name.toList) (rest : List Char) :
    fill slots none ((slot name).toList ++ rest) =
      (slots.text name).toList ++ fill slots none rest := by
  simp [slot, fill, fill_name h]

end Template

namespace Templates

theorem select_standard : standard.get .select =
    "SELECT" ++ Template.slot "DISTINCT" ++ " " ++ Template.slot "FIELD" ++ " FROM " ++
      Template.slot "TABLE" ++ Template.slot "JOIN" ++ Template.slot "WHERE" ++
      Template.slot "GROUP" ++ Template.slot "HAVING" ++ Template.slot "ORDER" ++
      Template.slot "LIMIT" ++ Template.slot "LOCK" ++ Template.slot "COMMENT" := by
  decide +kernel

theorem fill_select (fields table filter order window : String) :
    Template.fill (selectSlots fields table filter order window) none
        (standard.get .select).toList =
      ("SELECT " ++ fields ++ " FROM " ++ table ++ filter ++ order ++ window).toList := by
  rw [select_standard]
  rw [← List.append_nil (String.toList _)]
  simp only [String.toList_append, List.append_assoc]
  simp (disch := decide) only [Template.fill_append, Template.fill_slot]
  simp [selectSlots, Slots.text, List.lookup_cons, Template.fill]

theorem assemble_select {fields table filter order window : String}
    (h : EndsSolid ("SELECT " ++ fields ++ " FROM " ++ table ++ filter ++ order ++ window)) :
    standard.assemble .select (selectSlots fields table filter order window) =
      "SELECT " ++ fields ++ " FROM " ++ table ++ filter ++ order ++ window := by
  obtain ⟨d, hd, hb⟩ := h
  unfold assemble
  rw [fill_select]
  rw [Text.trimChars_eq_self (by simp) (by decide : Text.isBlank 'S' = false) hd hb]
  apply String.ofList_toList

end Templates

namespace Draft

def writtenEach : BindTable → Draft → List String
  | _, [] => []
  | table, p :: d => p.written table :: writtenEach (p.after table) d

def writtenParts : BindTable → List (Connective × Draft) → List (Connective × String)
  | _, [] => []
  | table, (connective, d) :: parts =>
    (connective, written table d) :: writtenParts (after table d) parts

def afterParts (table : BindTable) (parts : List (Connective × Draft)) : BindTable :=
  parts.foldl (fun table part => after table part.2) table

def compiled (stem : String) (placeholder : PlaceholderStyle) (d : Draft) : Compiled :=
  ⟨written (.empty stem) d, (after (.empty stem) d).binds, placeholder⟩

section Joined

variable {wrap : Piece → Draft}

theorem written_joined {g : String → String}
    (hw : ∀ table p, written table (wrap p) = g (p.written table))
    (ha : ∀ table p, after table (wrap p) = p.after table)
    (separator : String) (ps : List Piece) (table : BindTable) :
    written table (joined separator (ps.map wrap)) =
      separator.intercalate ((writtenEach table ps).map g) := by
  induction ps generalizing table with
  | nil => rfl
  | cons p ps ih =>
    cases ps with
    | nil => simp [joined, writtenEach, hw]
    | cons p' ps =>
      have := ih (p.after table)
      simp only [List.map_cons] at this
      simp only [List.map_cons, joined, writtenEach]
      rw [String.intercalate_cons_cons]
      rw [written_append]
      rw [written_text]
      rw [hw]
      rw [ha]
      rw [this]
      simp [writtenEach, String.append_assoc]

theorem after_joined (ha : ∀ table p, after table (wrap p) = p.after table)
    (separator : String) (ps : List Piece) (table : BindTable) :
    after table (joined separator (ps.map wrap)) = after table ps := by
  induction ps generalizing table with
  | nil => rfl
  | cons p ps ih =>
    cases ps with
    | nil => simp [joined, ha, after_cons]
    | cons p' ps =>
      have := ih (p.after table)
      simp only [List.map_cons] at this
      simp only [List.map_cons, joined]
      rw [after_append]
      rw [after_text]
      rw [ha]
      rw [this]
      rfl

end Joined

variable {table : BindTable} {d : Draft}

theorem Solid.endsSolid_written (hs : Solid d) (ht : table.Numbered) :
    EndsSolid (written table d) := by
  obtain ⟨front, p, rfl, hp⟩ := hs
  rw [written_append]
  apply EndsSolid.append_left
  rw [written]
  rw [written_nil]
  rw [String.append_empty]
  rcases p.text_or_value with ⟨s, rfl⟩ | ⟨value, type, hv⟩
  . exact hp s rfl
  . -- a placeholder ends with a digit
    obtain ⟨number, hw⟩ := (ht.after front).written_value hv
    rw [hw]
    apply EndsSolid.append_left
    apply EndsSolid.append_left
    apply EndsSolid.natText

theorem written_eq_empty_iff (hd : d = [] ∨ Solid d) (ht : table.Numbered) :
    written table d = "" ↔ d = [] := by
  cases hd with
  | inl he => simp [he]
  | inr hs => simp [(hs.endsSolid_written ht).ne_empty, hs.ne_nil]

theorem isEmpty_written (hd : d = [] ∨ Solid d) (ht : table.Numbered) :
    (written table d).isEmpty = d.isEmpty := by
  rw [Bool.eq_iff_iff]
  simp [written_eq_empty_iff hd ht]

theorem written_inParentheses (table : BindTable) (d : Draft) :
    written table d.inParentheses = "( " ++ written table d ++ " )" := by
  simp [inParentheses, String.append_assoc]

theorem after_inParentheses (table : BindTable) (d : Draft) :
    after table d.inParentheses = after table d := by
  simp [inParentheses]

section Parts

variable {parts : List (Connective × Draft)}

-- a draft is empty exactly if its text is, so that the same parts are left out
theorem writtenParts_filter (hp : ∀ part ∈ parts, part.2 = [] ∨ Solid part.2)
    (ht : table.Numbered) :
    ((writtenParts table parts).filter fun part => !part.2.isEmpty) =
      writtenParts table (parts.filter fun part => !part.2.isEmpty) := by
  induction parts generalizing table with
  | nil => rfl
  | cons part parts ih =>
    obtain ⟨connective, d⟩ := part
    simp only [List.mem_cons, forall_eq_or_imp] at hp
    have := ih hp.2 (ht.after d)
    simp only [writtenParts, List.filter_cons, isEmpty_written hp.1 ht, this]
    split
    . rfl
    . next he =>
      have hnil : d = [] := by simpa using he
      simp [hnil]

theorem afterParts_filter (table : BindTable) (parts : List (Connective × Draft)) :
    afterParts table (parts.filter fun part => !part.2.isEmpty) = afterParts table parts := by
  induction parts generalizing table with
  | nil => rfl
  | cons part parts ih =>
    rw [List.filter_cons]
    split
    . exact ih (after table part.2)
    . next he =>
      have hnil : part.2 = [] := by simpa using he
      rw [ih table]
      simp [afterParts, hnil]

theorem written_followers (table : BindTable) (parts : List (Connective × Draft)) :
    written table (parts.flatMap fun part => .text (" " ++ part.1.sql ++ " ") :: part.2) =
      String.join
        ((writtenParts table parts).map fun part => " " ++ part.1.sql ++ " " ++ part.2) := by
  induction parts generalizing table with
  | nil => rfl
  | cons part parts ih =>
    rw [List.flatMap_cons]
    rw [List.cons_append]
    rw [written_text]
    rw [written_append]
    rw [ih]
    simp [writtenParts, String.append_assoc]

theorem after_followers (table : BindTable) (parts : List (Connective × Draft)) :
    after table (parts.flatMap fun part => .text (" " ++ part.1.sql ++ " ") :: part.2) =
      afterParts table parts := by
  induction parts generalizing table with
  | nil => rfl
  | cons part parts ih => simp [ih, afterParts]

theorem written_joinParts (hp : ∀ part ∈ parts, part.2 = [] ∨ Solid part.2)
    (ht : table.Numbered) :
    written table (joinParts parts) = SqlFilter.joinParts (writtenParts table parts) := by
  unfold joinParts SqlFilter.joinParts
  rw [writtenParts_filter hp ht]
  split
  . next he => rw [he]; rfl
  . next connective first rest he =>
    rw [he]
    rw [written_append]
    rw [written_followers]
    rfl

theorem after_joinParts (table : BindTable) (parts : List (Connective × Draft)) :
    after table (joinParts parts) = afterParts table parts := by
  unfold joinParts
  rw [← afterParts_filter]
  split
  . next he => rw [he]; rfl
  . next connective first rest he =>
    rw [he]
    rw [after_append]
    rw [after_followers]
    rfl

theorem written_group (hp : ∀ part ∈ parts, part.2 = [] ∨ Solid part.2)
    (ht : table.Numbered) :
    written table (group parts) =
      parenthesized (SqlFilter.joinParts (writtenParts table parts)) := by
  unfold group parenthesized
  rw [← written_joinParts hp ht]
  rw [isEmpty_written (solid_joinParts hp) ht]
  dsimp only
  split
  . next he =>
    rw [List.isEmpty_iff.1 he]
  . rw [written_inParentheses]

theorem after_group (table : BindTable) (parts : List (Connective × Draft)) :
    after table (group parts) = afterParts table parts := by
  unfold group
  dsimp only
  rw [← after_joinParts]
  split
  . next he =>
    rw [List.isEmpty_iff.1 he]
  . rw [after_inParentheses]

end Parts

theorem written_whereClause (hd : d = [] ∨ Solid d) (ht : table.Numbered) :
    written table (whereClause d) = SqlFilter.whereClause (written table d) := by
  unfold whereClause SqlFilter.whereClause
  rw [isEmpty_written hd ht]
  split
  . rfl
  . rfl

theorem after_whereClause (table : BindTable) (d : Draft) :
    after table (whereClause d) = after table d := by
  unfold whereClause
  split
  . next he =>
    rw [List.isEmpty_iff.1 he]
  . rfl

theorem written_ofText (table : BindTable) (s : String) : written table (ofText s) = s := by
  unfold ofText
  split
  . next he =>
    rw [String.isEmpty_iff.1 he]
    rfl
  . simp

theorem after_ofText (table : BindTable) (s : String) : after table (ofText s) = table := by
  unfold ofText
  split
  . rfl
  . rfl

theorem written_select {fields name behind : String} (hd : d = [] ∨ Solid d)
    (ht : table.Numbered) :
    written table (select fields name d behind) =
      "SELECT " ++ fields ++ " FROM " ++ name ++ SqlFilter.whereClause (written table d) ++
        behind := by
  rw [select]
  rw [written_text]
  rw [written_append]
  rw [written_ofText]
  rw [written_whereClause hd ht]
  simp only [String.append_assoc]

theorem after_select {fields name behind : String} (table : BindTable) (d : Draft) :
    after table (select fields name d behind) = after table d := by
  rw [select]
  rw [after_text]
  rw [after_append]
  rw [after_ofText]
  rw [after_whereClause]

end Draft

end SqlFilter
