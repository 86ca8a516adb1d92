import Mathlib.Data.List.Forall2
import SqlFilter.Proofs.Identifier
import SqlFilter.Proofs.LeafRule

/-!
This module contains names of columns and how they are written. Names of letters, digits and
underscores with single dots between them are accepted, and no others. Each segment is written as it
is or between quotes; without these the text is the name again, so that no other name is written
alike.
-/

namespace SqlFilter

namespace Text

def without (c : Char) (s : String) : String :=
  String.ofList (s.toList.filter (· != c))

variable {c : Char}

theorem without_append (s t : String) : without c (s ++ t) = without c s ++ without c t := by
  simp [without]

theorem without_of_not_mem {s : String} (h : c ∉ s.toList) : without c s = s := by
  have hfilter : s.toList.filter (· != c) = s.toList := by
    rw [List.filter_eq_self]
    exact bne_of_mem_front h
  rw [without, hfilter, String.ofList_toList]

theorem without_self (c : Char) : without c (String.ofList [c]) = "" := by
  simp [without]

theorem without_intercalate {separator : String} (h : without c separator = separator)
    (pieces : List String) :
    without c (separator.intercalate pieces) = separator.intercalate (pieces.map (without c)) := by
  induction pieces with
  | nil => rfl
  | cons piece pieces ih =>
    cases pieces with
    | nil => simp
    | cons next pieces =>
      rw [List.map_cons] at ih
      rw [String.intercalate_cons_cons, without_append, without_append, h, ih]
      rw [List.map_cons, List.map_cons, String.intercalate_cons_cons]

end Text

namespace Identifier

def IsDotted (name : String) : Prop :=
  ∃ runs : List String, runs ≠ [] ∧ name = ".".intercalate runs ∧
    ∀ run ∈ runs, run ≠ "" ∧ ∀ c ∈ run.toList, c.isAlphanum = true ∨ c = '_'

variable {name : String}

theorem isWordChar_iff {c : Char} :
    Text.isWordChar c = true ↔ c.isAlphanum = true ∨ c = '_' := by
  simp [Text.isWordChar]

theorem isDotted_of_check (h : check name = .ok ()) : IsDotted name := by
  refine ⟨segments name, Text.splitAt_ne_nil '.' name, (Text.intercalate_splitAt rfl name).symm, ?_⟩
  intro run hr
  obtain ⟨hne, hword⟩ := segment_of_check h run hr
  exact ⟨hne, fun c hc => isWordChar_iff.1 (hword c hc)⟩

theorem check_of_isDotted (hlength : name.utf8ByteSize ≤ maxLength) (h : IsDotted name) :
    check name = .ok () := by
  obtain ⟨runs, hruns, rfl, hrun⟩ := h
  have hdot (run : String) (hr : run ∈ runs) : '.' ∉ run.toList := by
    intro hm
    rcases (hrun run hr).2 '.' hm with h | h <;> cases h
  have hsegments : segments (".".intercalate runs) = runs := Text.splitAt_intercalate rfl hruns hdot
  have hne : ".".intercalate runs ≠ "" := by
    rintro he
    rw [he] at hsegments
    exact (hrun "" (by rw [← hsegments]; decide)).1 rfl
  have hall : ∀ c ∈ (".".intercalate runs).toList, (Text.isWordChar c || c == '.') = true := by
    intro c hc
    rcases Text.mem_intercalate rfl hc with rfl | ⟨run, hr, hc⟩
    . rfl
    . rw [isWordChar_iff.2 ((hrun run hr).2 c hc), Bool.true_or]
  have hempty : (segments (".".intercalate runs)).any String.isEmpty = false := by
    rw [hsegments, List.any_eq_false]
    intro run hr
    simpa using (hrun run hr).1
  rw [check, checkCharacters_eq_ok_iff.2 ⟨hne, hlength, List.all_eq_true.2 hall⟩, ok_bind, hempty]
  rfl

theorem check_eq_ok_iff :
    check name = .ok () ↔ name.utf8ByteSize ≤ maxLength ∧ IsDotted name := by
  constructor
  . intro h
    obtain ⟨_, hc, _⟩ := bind_eq_ok.1 h
    exact ⟨(checkCharacters_eq_ok_iff.1 hc).2.1, isDotted_of_check h⟩
  . rintro ⟨hlength, h⟩
    exact check_of_isDotted hlength h

end Identifier

theorem QuoteStyle.isWordChar_char (style : QuoteStyle) : Text.isWordChar style.char = false := by
  cases style <;> rfl

theorem QuoteStyle.char_ne_dot (style : QuoteStyle) : style.char ≠ '.' := by
  cases style <;> decide

namespace Schema

variable {schema : Schema} {name segment : String}

def Quotes (schema : Schema) (segment : String) : Prop :=
  schema.quoteAll = true ∨ Text.lowerAscii segment ∈ schema.keywords

inductive WritesSegment (schema : Schema) (segment : String) : String → Prop
  | quoted : schema.Quotes segment → WritesSegment schema segment
    (String.ofList [schema.quote.char] ++ segment ++ String.ofList [schema.quote.char])
  | bare : ¬schema.Quotes segment → WritesSegment schema segment segment

theorem isQuoted_iff : schema.isQuoted segment = true ↔ schema.Quotes segment := by
  simp [isQuoted, Quotes]

theorem writesSegment_segmentText (segment : String) :
    schema.WritesSegment segment (schema.segmentText segment) := by
  unfold segmentText
  split
  . next h => exact .quoted (isQuoted_iff.1 h)
  . next h => exact .bare fun hq => h (isQuoted_iff.2 hq)

namespace WritesSegment

variable {text : String}

theorem dot_not_mem (h : schema.WritesSegment segment text) (hs : '.' ∉ segment.toList) :
    '.' ∉ text.toList := by
  cases h with
  | quoted _ => simp [hs, schema.quote.char_ne_dot.symm]
  | bare _ => exact hs

theorem without_quote (h : schema.WritesSegment segment text)
    (hs : ∀ c ∈ segment.toList, Text.isWordChar c = true) :
    Text.without schema.quote.char text = segment := by
  have hquote : schema.quote.char ∉ segment.toList := by
    intro hm
    have hword := hs _ hm
    rw [QuoteStyle.isWordChar_char] at hword
    cases hword
  cases h with
  | quoted _ =>
    rw [Text.without_append, Text.without_append, Text.without_self, Text.without_of_not_mem hquote]
    simp
  | bare _ => exact Text.without_of_not_mem hquote

end WritesSegment

theorem splitAt_identifierText (schema : Schema) (name : String) :
    Text.splitAt '.' (schema.identifierText name) =
      (Text.splitAt '.' name).map schema.segmentText := by
  apply Text.splitAt_intercalate rfl
  . rw [ne_eq, List.map_eq_nil_iff]
    exact Text.splitAt_ne_nil '.' name
  . intro text ht
    obtain ⟨segment, hs, rfl⟩ := List.mem_map.1 ht
    exact (writesSegment_segmentText segment).dot_not_mem (Text.not_mem_of_mem_splitAt hs)

theorem without_quote_identifierText (h : Identifier.check name = .ok ()) :
    Text.without schema.quote.char (schema.identifierText name) = name := by
  have hdot : Text.without schema.quote.char "." = "." :=
    Text.without_of_not_mem (by simpa using schema.quote.char_ne_dot)
  have hsegments : ((Identifier.segments name).map schema.segmentText).map
      (Text.without schema.quote.char) = Identifier.segments name := by
    rw [List.map_map]
    refine (List.map_congr_left ?_).trans (List.map_id _)
    intro segment hs
    exact (writesSegment_segmentText segment).without_quote (Identifier.segment_of_check h segment hs).2
  rw [identifierText, Text.without_intercalate hdot, hsegments]
  exact Text.intercalate_splitAt rfl name

end Schema

namespace Compiler

variable {c : Compiler}

structure WritesNames (c : Compiler) : Prop where
  accepts : ∀ name, (∃ sql, c.column name = .ok sql) ↔
    name.utf8ByteSize ≤ 192 ∧ Identifier.IsDotted name
  segments : ∀ name sql, c.column name = .ok sql →
    List.Forall₂ c.schema.WritesSegment (Text.splitAt '.' name) (Text.splitAt '.' sql)
  unquoted : ∀ name sql, c.column name = .ok sql → Text.without c.schema.quote.char sql = name
  injective : ∀ name name' sql, c.column name = .ok sql → c.column name' = .ok sql → name = name'

theorem writesNames_column (hs : c.config.strictFields = false) : c.WritesNames := by
  have unquoted (name sql : String) (h : c.column name = .ok sql) :
      Text.without c.schema.quote.char sql = name := by
    obtain ⟨hcheck, rfl⟩ := Schema.eq_of_column h
    exact Schema.without_quote_identifierText hcheck
  constructor
  case accepts =>
    intro name
    refine Iff.trans ?_ Identifier.check_eq_ok_iff
    constructor
    . rintro ⟨sql, h⟩
      exact (Schema.eq_of_column h).1
    . intro h
      exact ⟨_, column_of_check hs h⟩
  case segments =>
    intro name sql h
    rw [(Schema.eq_of_column h).2, Schema.splitAt_identifierText, List.forall₂_map_right_iff,
      List.forall₂_same]
    exact fun segment _ => Schema.writesSegment_segmentText segment
  case unquoted => exact unquoted
  case injective =>
    intro name name' sql h h'
    rw [← unquoted name sql h, unquoted name' sql h']

def keySchema : Schema :=
  ({} : Schema).withKeywords ["Key"]

theorem writesNames_keyword : (standard keySchema).config.strictFields = false ∧
    (standard keySchema).column "o.KEY" = .ok "o.`KEY`" ∧
      List.Forall₂ keySchema.WritesSegment ["o", "KEY"] ["o", "`KEY`"] ∧
        (∀ name, (standard keySchema).column name = .ok "o.`KEY`" → name = "o.KEY") ∧
          ∃ sql, (standard keySchema).column "9._" = .ok sql := by
  have h := writesNames_column (c := standard keySchema) rfl
  have hcolumn : (standard keySchema).column "o.KEY" = .ok "o.`KEY`" := rfl
  have hdotted : Identifier.IsDotted "9._" := ⟨["9", "_"], by decide, rfl, by simp⟩
  refine ⟨rfl, hcolumn, h.segments _ _ hcolumn, ?_, (h.accepts "9._").2 ⟨by decide, hdotted⟩⟩
  exact fun name hname => h.injective name "o.KEY" _ hname hcolumn

end Compiler

end SqlFilter
