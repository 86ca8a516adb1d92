import SqlFilter.Proofs.KeyFragment
import SqlFilter.Proofs.KeyReading

/-!
This module contains field names that are joined by one separator. As a bracket key they are read as
a list of nodes with the same link, and as a field they are taken apart into the same names.
-/

namespace SqlFilter

open SqlFilter.Bracket BracketNode

structure JoinedFields where
  separator : Char
  connective : Connective
  names : List String
  connective?_separator : connective? separator = some connective
  check_names : ∀ name ∈ names, Identifier.check name = .ok ()
  two_le_length : 2 ≤ names.length

namespace JoinedFields

def linked (connective : Connective) : List String → List BracketNode
  | [] => []
  | name :: names =>
    .field name (if names.isEmpty then none else some connective) :: linked connective names

variable (fields : JoinedFields)

def key : String :=
  (String.singleton fields.separator).intercalate fields.names

def nodes : List BracketNode :=
  linked fields.connective fields.names

def groupKey : String :=
  "(" ++ fields.key ++ ")"

theorem separator_cases : fields.separator = '&' ∧ fields.connective = .and ∨
    fields.separator = '|' ∧ fields.connective = .or := by
  have h := fields.connective?_separator
  unfold connective? at h
  split at h
  . next hs => exact .inl ⟨hs, by simpa [eq_comm] using h⟩
  . next hs => exact .inr ⟨hs, by simpa [eq_comm] using h⟩
  . cases h

theorem names_ne_nil : fields.names ≠ [] := by
  have := fields.two_le_length
  rintro he
  simp [he] at this

section Linked

variable {connective : Connective} {names : List String}

theorem mem_linked {node : BracketNode} (h : node ∈ linked connective names) :
    ∃ name ∈ names, ∃ trailing, node = .field name trailing ∧
      ∀ link, trailing = some link → link = connective := by
  induction names with
  | nil => cases h
  | cons name names ih =>
    rw [linked] at h
    cases List.mem_cons.1 h with
    | inl he =>
      refine ⟨name, List.mem_cons_self, _, he, ?_⟩
      intro link hl
      split at hl
      . cases hl
      . cases hl
        rfl
    | inr hm =>
      obtain ⟨other, ho, h⟩ := ih hm
      exact ⟨other, List.mem_cons_of_mem _ ho, h⟩

theorem linked_linked (hc : connective = .and ∨ connective = .or) :
    Linked (linked connective names) := by
  induction names with
  | nil => trivial
  | cons name names ih =>
    cases names with
    | nil => rfl
    | cons next names => exact ⟨hc.imp (congrArg some) (congrArg some), ih⟩

theorem nestings_linked (connective : Connective) (names : List String) :
    nestings (linked connective names) = 0 := by
  induction names with
  | nil => rfl
  | cons name names ih => simp [linked, nestings, nesting, ih]

theorem terminalCounts_linked (connective : Connective) (names : List String) :
    terminalCounts (linked connective names) = names.length := by
  induction names with
  | nil => rfl
  | cons name names ih =>
    rw [linked, terminalCounts, terminalCount, ih, List.length_cons, Nat.add_comm]

theorem texts_linked {separator : Char} (hs : linkText (some connective) = [separator]) :
    texts (linked connective names) =
      ((String.singleton separator).intercalate names).toList := by
  rw [String.toList_intercalate]
  induction names with
  | nil => rfl
  | cons name names ih =>
    rw [linked, texts, text, ih]
    cases names with
    | nil => simp [linkText]
    | cons next names =>
      simp [List.intercalate_cons_cons, hs]

end Linked

theorem texts_nodes : texts fields.nodes = fields.key.toList := by
  apply texts_linked
  rcases fields.separator_cases with ⟨hs, hc⟩ | ⟨hs, hc⟩ <;> rw [hs, hc] <;> rfl

theorem wellFormed_nodes : WellFormed fields.nodes := by
  apply WellFormed.intro_of_parts
  . obtain ⟨name, names, he⟩ := List.exists_cons_of_ne_nil fields.names_ne_nil
    simp [nodes, he, linked]
  . exact linked_linked (fields.separator_cases.imp And.right And.right)
  . intro node hm
    obtain ⟨name, hn, trailing, rfl, _⟩ := mem_linked hm
    exact fields.check_names name hn
  . intro _
    refine ⟨fields.connective, ?_⟩
    intro node hm link hl
    obtain ⟨name, _, trailing, rfl, h⟩ := mem_linked hm
    exact h link hl

theorem parse_key {maxDepth : Nat} (hd : 1 ≤ maxDepth)
    (hk : fields.key.utf8ByteSize ≤ Identifier.maxLength) :
    Bracket.parse maxDepth fields.key = .ok fields.nodes := by
  refine parse_eq_ok_iff.2 ⟨hk, fields.wellFormed_nodes, fields.texts_nodes, ?_⟩
  rw [nodes, nestings_linked]
  exact hd

theorem parse_groupKey {maxDepth : Nat} (hd : 2 ≤ maxDepth)
    (hk : fields.key.utf8ByteSize + 2 ≤ Identifier.maxLength) :
    Bracket.parse maxDepth fields.groupKey = .ok [.group fields.nodes none] := by
  refine parse_eq_ok_iff.2 ⟨?_, ?_, ?_, ?_⟩
  . simp only [groupKey, String.utf8ByteSize_append]
    change 1 + _ + 1 ≤ _
    omega
  . apply WellFormed.intro_of_parts
    . simp
    . rfl
    . intro node hm
      rw [List.mem_singleton.1 hm]
      exact fields.wellFormed_nodes
    . intro h
      cases h _ List.mem_cons_self
  . simp [groupKey, texts, text, linkText, fields.texts_nodes]
  . simp only [nestings, nesting, nodes, nestings_linked]
    omega

theorem toList_key :
    fields.key.toList = [fields.separator].intercalate (fields.names.map String.toList) := by
  rw [key, String.toList_intercalate, String.toList_singleton]

theorem mem_key {c : Char} (h : c ∈ fields.key.toList) :
    c = fields.separator ∨ ∃ name ∈ fields.names, c ∈ name.toList :=
  Text.mem_intercalate (String.toList_singleton fields.separator) h

theorem exists_toList_key : ∃ name ∈ fields.names, ∃ rest,
    fields.key.toList = name.toList ++ fields.separator :: rest := by
  have hlength := fields.two_le_length
  rw [toList_key]
  match hn : fields.names with
  | [] => simp [hn] at hlength
  | [name] => simp [hn] at hlength
  | name :: next :: names =>
    refine ⟨name, by simp, [fields.separator].intercalate ((next :: names).map String.toList), ?_⟩
    rw [List.map_cons, List.map_cons, List.intercalate_cons_cons, List.append_assoc]
    rfl

theorem key_ne_empty : fields.key ≠ "" := by
  obtain ⟨name, _, rest, h⟩ := fields.exists_toList_key
  intro he
  rw [he] at h
  simp at h

theorem not_mem_key {c : Char} (hs : isSpecial c = true) (hc : c ≠ fields.separator) :
    c ∉ fields.key.toList := by
  intro h
  rcases fields.mem_key h with h | ⟨name, hn, h⟩
  . exact hc h
  . rw [Identifier.isSpecial_of_check (fields.check_names name hn) c h] at hs
    cases hs

theorem isSpecial_separator : isSpecial fields.separator = true := by
  rcases fields.separator_cases with ⟨h, _⟩ | ⟨h, _⟩ <;> rw [h] <;> rfl

theorem occursInside_separator :
    FieldRef.occursInside fields.separator fields.key.toList = true := by
  obtain ⟨name, hn, rest, h⟩ := fields.exists_toList_key
  have hvalid := fields.check_names name hn
  rw [h]
  cases hcs : name.toList with
  | nil => exact absurd (String.toList_eq_nil_iff.1 hcs) (Identifier.ne_empty_of_check hvalid)
  | cons c cs =>
    have hne : c ≠ fields.separator := by
      rintro rfl
      have := Identifier.isSpecial_of_check hvalid fields.separator (by rw [hcs]; simp)
      rw [fields.isSpecial_separator] at this
      cases this
    simp [FieldRef.occursInside, hne]

theorem splitAt_key : Text.splitAt fields.separator fields.key = fields.names := by
  apply Text.splitAt_intercalate (String.toList_singleton fields.separator) fields.names_ne_nil
  intro name hn hm
  have := Identifier.isSpecial_of_check (fields.check_names name hn) _ hm
  rw [fields.isSpecial_separator] at this
  cases this

theorem present_names : FieldTree.present fields.names = fields.names := by
  apply List.filter_eq_self.2
  intro name hn
  simpa using Identifier.ne_empty_of_check (fields.check_names name hn)

theorem multiple?_key :
    (FieldRef.ofName fields.key).multiple? = some (fields.connective, fields.names) := by
  have hinside := fields.occursInside_separator
  have hsplit := fields.splitAt_key
  rw [FieldRef.ofName, if_neg (by simpa using fields.key_ne_empty), FieldRef.multiple?]
  rcases fields.separator_cases with ⟨hs, hc⟩ | ⟨hs, hc⟩
  . rw [hs] at hinside hsplit
    have hor : '|' ∉ fields.key.toList := fields.not_mem_key rfl (by rw [hs]; decide)
    have hnot : FieldRef.occursInside '|' fields.key.toList = false := by
      simp [FieldRef.occursInside, hor]
    rw [if_neg (by simp [hnot]), if_pos hinside, hsplit, hc]
  . rw [hs] at hinside hsplit
    rw [if_pos hinside, hsplit, hc]

theorem ofField_key : FieldTree.ofField (.ofName fields.key) =
    .joined fields.connective (fields.names.map fun name => .single (.ofName name)) := by
  rw [FieldTree.ofField, fields.multiple?_key]
  dsimp only
  rw [present_names]
  congr 1
  apply List.map_congr_left
  intro name hn
  have hvalid := fields.check_names name hn
  rw [FieldTree.ofPart, FieldRef.multiple?_of_check hvalid, FieldRef.ofName_of_check hvalid]

theorem checkKey_key (hk : fields.key.utf8ByteSize ≤ Identifier.maxLength) :
    Identifier.checkKey fields.key = .ok () := by
  refine Identifier.checkCharacters_eq_ok_iff.2 ⟨fields.key_ne_empty, hk, ?_⟩
  rw [List.all_eq_true]
  intro c hc
  rcases fields.mem_key hc with rfl | ⟨name, hn, hc⟩
  . rcases fields.separator_cases with ⟨h, _⟩ | ⟨h, _⟩ <;> rw [h] <;> rfl
  . exact Identifier.isKeyCharacter_of_check (fields.check_names name hn) c hc

theorem contains_key : fields.key.toList.contains '(' = false := by
  have : '(' ∉ fields.key.toList := by
    apply fields.not_mem_key rfl
    rcases fields.separator_cases with ⟨h, _⟩ | ⟨h, _⟩ <;> rw [h] <;> decide
  simpa using this

end JoinedFields

end SqlFilter
