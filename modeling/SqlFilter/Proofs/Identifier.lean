import SqlFilter.Compiler.Test
import SqlFilter.Proofs.SafeText

/-!
This module contains what names become in a statement: identifiers and the clauses of a select are
safe texts, and end with a character that is not blank.
-/

namespace SqlFilter

def EndsSolid (s : String) : Prop :=
  ∃ c, s.toList.getLast? = some c ∧ Text.isBlank c = false

namespace EndsSolid

theorem append_left {t : String} (s : String) (h : EndsSolid t) : EndsSolid (s ++ t) := by
  obtain ⟨c, hc, hb⟩ := h
  refine ⟨c, ?_, hb⟩
  rw [String.toList_append, List.getLast?_append, hc]
  rfl

theorem append_of_eq_empty_or {s t : String} (hs : EndsSolid s) (ht : t = "" ∨ EndsSolid t) :
    EndsSolid (s ++ t) := by
  cases ht with
  | inl he =>
    subst he
    simpa using hs
  | inr ht => exact ht.append_left s

theorem ne_empty {s : String} (h : EndsSolid s) : s ≠ "" := by
  intro he
  subst he
  obtain ⟨c, hc, _⟩ := h
  cases hc

theorem of_isWordChar {s : String} (hne : s ≠ "")
    (hw : ∀ c ∈ s.toList, Text.isWordChar c = true) : EndsSolid s := by
  have hl : s.toList ≠ [] := by simpa using hne
  refine ⟨s.toList.getLast hl, List.getLast?_eq_some_getLast hl, ?_⟩
  apply Text.isBlank_of_isWordChar
  apply hw
  apply List.getLast_mem

theorem intercalate {separator : String} {l : List String} (hne : l ≠ [])
    (h : ∀ s ∈ l, EndsSolid s) : EndsSolid (separator.intercalate l) := by
  induction l with
  | nil => exact absurd rfl hne
  | cons s l ih =>
    simp only [List.mem_cons, forall_eq_or_imp] at h
    cases l with
    | nil => simpa using h.1
    | cons t l =>
      rw [String.intercalate_cons_cons]
      exact (ih (by simp) h.2).append_left _

theorem natText (n : Nat) : EndsSolid (Decimal.natText n) := by
  apply of_isWordChar
  . intro he
    have := congrArg String.toList he
    rw [Decimal.toList_natText] at this
    exact Nat.toDigits_ne_nil this
  . apply Decimal.isWordChar_natText

theorem intText (n : Int) : EndsSolid (Decimal.intText n) := by
  unfold Decimal.intText
  split
  . exact (natText n.natAbs).append_left _
  . exact natText n.natAbs

end EndsSolid

namespace Identifier

theorem checkCharacters_eq_ok_iff {allowed : Char → Bool} {name : String} :
    checkCharacters allowed name = .ok () ↔
      name ≠ "" ∧ name.utf8ByteSize ≤ maxLength ∧ name.toList.all allowed = true := by
  unfold checkCharacters
  constructor
  . intro h
    split at h
    . cases h
    . next hne =>
      split at h
      . cases h
      . next hlength =>
        split at h
        . cases h
        . next hall => exact ⟨by simpa using hne, by omega, by simpa using hall⟩
  . rintro ⟨hne, hlength, hall⟩
    rw [if_neg (by simpa using hne)]
    rw [if_neg (by omega)]
    rw [if_neg (by simp [hall])]

theorem checkCharacters_eq_ok {allowed : Char → Bool} {name : String}
    (h : checkCharacters allowed name = .ok ()) : ∀ c ∈ name.toList, allowed c = true :=
  List.all_eq_true.1 (checkCharacters_eq_ok_iff.1 h).2.2

theorem segment_of_check {name : String} (h : check name = .ok ()) :
    ∀ segment ∈ segments name,
      segment ≠ "" ∧ ∀ c ∈ segment.toList, Text.isWordChar c = true := by
  obtain ⟨_, hc, h⟩ := bind_eq_ok.1 h
  have hall := checkCharacters_eq_ok hc
  intro segment hs
  constructor
  . rintro rfl
    have : (segments name).any String.isEmpty = true := List.any_eq_true.2 ⟨_, hs, rfl⟩
    rw [this] at h
    cases h
  . intro c hm
    obtain ⟨piece, hp, rfl⟩ := List.mem_map.1 hs
    rw [String.toList_ofList] at hm
    obtain ⟨hname, hdot⟩ := Text.mem_of_mem_splitOn hp hm
    have := hall c hname
    simpa [hdot] using this

end Identifier

theorem check_of_checkField {name : String} (h : checkField name = .ok ()) :
    Identifier.check name = .ok () :=
  mapError_eq_ok h

namespace Schema

variable (schema : Schema)

def IsIdentifier (s : String) : Prop :=
  ∃ name, Identifier.check name = .ok () ∧ s = schema.identifierText name

variable {schema}

theorem isIdentifier_of_identifier {name s : String} (h : schema.identifier name = .ok s) :
    schema.IsIdentifier s := by
  obtain ⟨_, hc, h⟩ := bind_eq_ok.1 h
  cases h
  exact ⟨name, check_of_checkField hc, rfl⟩

theorem safe_segmentText {segment : String} (hne : segment ≠ "")
    (hw : ∀ c ∈ segment.toList, Text.isWordChar c = true) :
    SafeText Text.isNameChar schema.quote.char (schema.segmentText segment).toList := by
  unfold segmentText
  split
  . simp only [String.toList_append, String.toList_ofList, List.cons_append, List.nil_append]
    exact .quoted (by simpa using hne) hw .nil
  . exact .of_forall fun c hc => by simp [Text.isNameChar, hw c hc]

theorem isBlank_quote (style : QuoteStyle) : Text.isBlank style.char = false := by
  cases style <;> decide

theorem endsSolid_segmentText {segment : String} (hne : segment ≠ "")
    (hw : ∀ c ∈ segment.toList, Text.isWordChar c = true) :
    EndsSolid (schema.segmentText segment) := by
  unfold segmentText
  split
  . apply EndsSolid.append_left
    exact ⟨schema.quote.char, by simp, isBlank_quote _⟩
  . exact .of_isWordChar hne hw

namespace IsIdentifier

theorem safe_name {s : String} (h : schema.IsIdentifier s) :
    SafeText Text.isNameChar schema.quote.char s.toList := by
  obtain ⟨name, hc, rfl⟩ := h
  apply SafeText.intercalate
  . exact .of_all (by decide)
  . intro text ht
    obtain ⟨segment, hs, rfl⟩ := List.mem_map.1 ht
    have := Identifier.segment_of_check hc segment hs
    exact safe_segmentText this.1 this.2

theorem safe_flat {s : String} (h : schema.IsIdentifier s) :
    SafeText Text.isFlat schema.quote.char s.toList :=
  h.safe_name.mono fun _ => Text.isFlat_of_isNameChar

theorem safe {s : String} (h : schema.IsIdentifier s) :
    SafeText Text.isPlain schema.quote.char s.toList :=
  h.safe_flat.mono fun _ => Text.isPlain_of_isFlat

theorem endsSolid {s : String} (h : schema.IsIdentifier s) : EndsSolid s := by
  obtain ⟨name, hc, rfl⟩ := h
  apply EndsSolid.intercalate
  . simp [Identifier.segments, Text.splitAt, List.splitOn_ne_nil]
  . intro text ht
    obtain ⟨segment, hs, rfl⟩ := List.mem_map.1 ht
    have := Identifier.segment_of_check hc segment hs
    exact endsSolid_segmentText this.1 this.2

end IsIdentifier

theorem eq_of_column {c : Compiler} {name s : String} (h : c.column name = .ok s) :
    Identifier.check name = .ok () ∧ s = c.schema.identifierText name := by
  obtain ⟨_, hc, h⟩ := bind_eq_ok.1 h
  split at h
  . cases h
  . cases h
    exact ⟨check_of_checkField hc, rfl⟩

theorem isIdentifier_column {c : Compiler} {name s : String} (h : c.column name = .ok s) :
    c.schema.IsIdentifier s :=
  ⟨name, eq_of_column h⟩

theorem safe_fieldsText {selection : Selection} {s : String}
    (h : schema.fieldsText selection = .ok s) :
    SafeText Text.isFlat schema.quote.char s.toList := by
  unfold fieldsText at h
  split at h
  . cases h
    exact .of_all (by decide)
  . obtain ⟨fields, hf, h⟩ := bind_eq_ok.1 h
    cases h
    apply SafeText.intercalate
    . exact .of_all (by decide)
    . intro field hm
      obtain ⟨name, _, hn⟩ := exists_of_mem_mapM hf field hm
      exact (isIdentifier_of_identifier hn).safe_flat

theorem safe_sortOrder (order : SortOrder) :
    SafeText Text.isFlat schema.quote.char order.sql.toList ∧ EndsSolid order.sql := by
  cases order
  . exact ⟨.of_all (by decide), 'C', by decide⟩
  . exact ⟨.of_all (by decide), 'C', by decide⟩

theorem orderText_eq_ok {order : String × SortOrder} {s : String}
    (h : schema.orderText order = .ok s) :
    SafeText Text.isFlat schema.quote.char s.toList ∧ EndsSolid s := by
  obtain ⟨field, hf, h⟩ := bind_eq_ok.1 h
  cases h
  have hi := isIdentifier_of_identifier hf
  have ho : SafeText Text.isFlat schema.quote.char order.2.sql.toList ∧ EndsSolid order.2.sql :=
    safe_sortOrder order.2
  constructor
  . rw [String.toList_append, String.toList_append]
    exact (hi.safe_flat.append (.of_all (by decide))).append ho.1
  . exact ho.2.append_left _

theorem orderClause_eq_ok {selection : Selection} {s : String}
    (h : schema.orderClause selection = .ok s) :
    SafeText Text.isFlat schema.quote.char s.toList ∧
      (s = "" ∨ EndsSolid s ∧ s.toList.head? = some ' ') := by
  obtain ⟨orders, ho, h⟩ := bind_eq_ok.1 h
  cases h
  split
  . exact ⟨.nil, .inl rfl⟩
  . next hne =>
    have hall (s : String) (hs : s ∈ orders) :
        SafeText Text.isFlat schema.quote.char s.toList ∧ EndsSolid s := by
      obtain ⟨order, _, h⟩ := exists_of_mem_mapM ho s hs
      exact orderText_eq_ok h
    constructor
    . rw [String.toList_append]
      apply SafeText.append (.of_all (by decide))
      exact .intercalate (.of_all (by decide)) fun s hs => (hall s hs).1
    . refine .inr ⟨?_, by simp⟩
      apply EndsSolid.append_left
      exact .intercalate (by simpa using hne) fun s hs => (hall s hs).2

end Schema

theorem Compiler.column_of_check {c : Compiler} {name : String}
    (hstrict : c.config.strictFields = false) (hn : Identifier.check name = .ok ()) :
    c.column name = .ok (c.schema.identifierText name) := by
  unfold column checkField
  rw [hn, hstrict]
  rfl

namespace Window

variable {w : Window}

theorem safe_sql (q : Char) : SafeText Text.isFlat q w.sql.toList := by
  apply SafeText.intercalate (.of_all (by decide))
  intro s hs
  simp only [List.mem_append, Option.mem_toList, Option.map_eq_some_iff] at hs
  rcases hs with ⟨n, _, rfl⟩ | ⟨n, _, rfl⟩
  . rw [String.toList_append]
    exact .append (.of_all (by decide)) (.intText (fun _ => Text.isFlat_of_isWordChar) _)
  . rw [String.toList_append]
    exact .append (.of_all (by decide)) (.intText (fun _ => Text.isFlat_of_isWordChar) _)

theorem endsSolid_sql (h : w.isEmpty = false) : EndsSolid w.sql := by
  apply EndsSolid.intercalate
  . intro he
    simp only [List.append_eq_nil_iff, Option.toList_eq_nil_iff, Option.map_eq_none_iff] at he
    simp [isEmpty, he] at h
  . intro s hs
    simp only [List.mem_append, Option.mem_toList, Option.map_eq_some_iff] at hs
    rcases hs with ⟨n, _, rfl⟩ | ⟨n, _, rfl⟩
    . exact (EndsSolid.intText _).append_left _
    . exact (EndsSolid.intText _).append_left _

end Window

theorem Selection.windowClause_cases (selection : Selection) (q : Char) :
    SafeText Text.isFlat q selection.windowClause.toList ∧
      (selection.windowClause = "" ∨
        EndsSolid selection.windowClause ∧ selection.windowClause.toList.head? = some ' ') := by
  unfold windowClause
  split
  . exact ⟨.nil, .inl rfl⟩
  . next hne =>
    constructor
    . rw [String.toList_append]
      exact .append (.of_all (by decide)) (Window.safe_sql q)
    . refine .inr ⟨?_, by simp⟩
      apply EndsSolid.append_left
      exact Window.endsSolid_sql (by simpa using hne)

theorem Schema.orderClause_append_windowClause {schema : Schema} {selection : Selection}
    {order : String} (h : schema.orderClause selection = .ok order) :
    order ++ selection.windowClause = "" ∨
      EndsSolid (order ++ selection.windowClause) ∧
        (order ++ selection.windowClause).toList.head? = some ' ' := by
  have hwindow := (selection.windowClause_cases schema.quote.char).2
  rcases (orderClause_eq_ok h).2 with rfl | ⟨hs, hh⟩
  . simpa using hwindow
  . refine .inr ⟨hs.append_of_eq_empty_or (hwindow.imp_right And.left), ?_⟩
    rw [String.toList_append, List.head?_append, hh]
    rfl

end SqlFilter
