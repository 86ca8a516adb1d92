import SqlFilter.Catalog
import SqlFilter.Proofs.TextReading
import SqlFilter.Proofs.Tokens
import SqlFilter.Proofs.Written

/-!
This module contains the texts of whole statements: what the templates make of a condition, and that
placeholders in the condition are rewritten as if it stood alone.
-/

namespace SqlFilter

def Text.IsInert (cs : List Char) : Prop :=
  ∀ c ∈ cs, c ≠ ':' ∧ c ≠ '\''

instance Text.IsInert.decidable (cs : List Char) : Decidable (IsInert cs) :=
  decidable_of_iff (cs.all fun c => c != ':' && c != '\'') (by simp [IsInert])

theorem Text.IsInert.append {cs ds : List Char} (hc : IsInert cs) (hd : IsInert ds) :
    IsInert (cs ++ ds) := by
  intro c hm
  cases List.mem_append.1 hm with
  | inl hm => exact hc c hm
  | inr hm => exact hd c hm

theorem whereClause_of_ne_empty {sql : String} (h : sql ≠ "") :
    whereClause sql = " WHERE " ++ sql := by
  simp [whereClause, h]

namespace SqlToken

variable {isBound : String → Bool}

theorem scan_inert_append {front : List Char} (hf : Text.IsInert front) (cs : List Char) :
    scan isBound false (front ++ cs) = front.map .char ++ scan isBound false cs := by
  induction front with
  | nil => rfl
  | cons c front ih =>
    simp only [Text.IsInert, List.mem_cons, forall_eq_or_imp] at hf
    rw [List.cons_append, scan_other hf.1.2 hf.1.1, ih hf.2]
    rfl

theorem scan_inert {behind : List Char} (hb : Text.IsInert behind) (inLiteral : Bool) :
    scan isBound inLiteral behind = behind.map .char := by
  cases inLiteral with
  | false =>
    have : scan isBound false (behind ++ []) = _ := scan_inert_append hb []
    simpa [scan_nil] using this
  | true =>
    induction behind with
    | nil => apply scan_nil
    | cons c behind ih =>
      simp only [Text.IsInert, List.mem_cons, forall_eq_or_imp] at hb
      rw [scan_literal, bne_iff_ne.2 hb.1.2, ih hb.2]
      rfl

-- a blank ends every name, so the text behind it cannot change the last reference
theorem scan_append_inert {behind : List Char} (hb : Text.IsInert behind)
    (hnext : behind = [] ∨ behind.head? = some ' ') (inLiteral : Bool) (cs : List Char) :
    scan isBound inLiteral (cs ++ behind) =
      scan isBound inLiteral cs ++ behind.map .char := by
  induction inLiteral, cs using scan_induction with
  | nil inLiteral => rw [scan_nil, List.nil_append, List.nil_append, scan_inert hb]
  | literal c rest ih => simp [scan_literal, ih]
  | quote rest ih => simp [scan_quote, ih]
  | cast rest ih => simp [scan_cast, ih]
  | name w rest hw hr hcast ih =>
    have hr' : ∀ c, (rest ++ behind).head? = some c → Text.isWordChar c = false := by
      intro c hc
      cases rest with
      | nil =>
        rcases hnext with rfl | hnext
        . cases hc
        . rw [List.nil_append, hnext] at hc
          cases hc
          decide
      | cons d rest => exact hr c hc
    have hcast' : (w ++ (rest ++ behind)).head? ≠ some ':' := by
      rw [← List.append_assoc]
      cases hwr : w ++ rest with
      | nil =>
        intro hc
        exact (hb ':' (List.mem_of_mem_head? hc)).1 rfl
      | cons d ds =>
        rw [hwr] at hcast
        exact hcast
    rw [List.cons_append, List.append_assoc, scan_name hw hr' hcast', scan_name hw hr hcast, ih]
    simp
  | other c rest hquote hcolon ih => simp [scan_other hquote hcolon, ih]

end SqlToken

namespace Compiled

open SqlToken

variable (compiled : Compiled)

def withSql (sql : String) : Compiled :=
  { compiled with sql := sql }

theorem inStyle_of_tokens {front behind sql sql' : String}
    (hsql : sql' = front ++ sql ++ behind)
    (htokens : (compiled.withSql sql').tokens =
      front.toList.map .char ++ (compiled.withSql sql).tokens ++ behind.toList.map .char)
    (style : PlaceholderStyle) :
    (compiled.withSql sql').inStyle style =
      ⟨front ++ ((compiled.withSql sql).inStyle style).sql ++ behind,
        ((compiled.withSql sql).inStyle style).values⟩ := by
  have htext (f : String → String) : (compiled.withSql sql').textWith f =
      front ++ (compiled.withSql sql).textWith f ++ behind := by
    rw [← String.toList_inj]
    simp only [textWith, htokens, List.flatMap_append, flatMap_write_chars, String.toList_append,
      String.toList_ofList]
  have hreferences : (compiled.withSql sql').references =
      (compiled.withSql sql).references := by
    simp only [references, htokens, List.filterMap_append, filterMap_name?_chars, List.nil_append,
      List.append_nil]
  cases style with
  | named =>
    rw [hsql]
    rfl
  | dollar =>
    simp only [inStyle, htext, distinctReferences, hreferences]
    rfl
  | question =>
    simp only [inStyle, htext, hreferences]
    rfl

theorem finish_front {front : String} (hf : Text.IsInert front.toList) (sql : String) :
    (compiled.withSql (front ++ sql)).finish =
      ⟨front ++ (compiled.withSql sql).finish.sql, (compiled.withSql sql).finish.values⟩ := by
  have htokens : (compiled.withSql (front ++ sql)).tokens =
      front.toList.map .char ++ (compiled.withSql sql).tokens ++ "".toList.map .char := by
    simp only [tokens, withSql, String.toList_append, scan_inert_append hf]
    simp
    rfl
  have := inStyle_of_tokens compiled (by simp) htokens compiled.style
  rw [String.append_empty] at this
  exact this

theorem finish_back {behind : String} (hb : Text.IsInert behind.toList)
    (hnext : behind = "" ∨ behind.toList.head? = some ' ') (sql : String) :
    (compiled.withSql (sql ++ behind)).finish =
      ⟨(compiled.withSql sql).finish.sql ++ behind, (compiled.withSql sql).finish.values⟩ := by
  have hnext : behind.toList = [] ∨ behind.toList.head? = some ' ' :=
    hnext.imp_left fun he => by rw [he]; rfl
  have htokens : (compiled.withSql (sql ++ behind)).tokens =
      "".toList.map .char ++ (compiled.withSql sql).tokens ++ behind.toList.map .char := by
    simp only [tokens, withSql, String.toList_append, scan_append_inert hb hnext]
    rfl
  have := inStyle_of_tokens compiled (by simp) htokens compiled.style
  rw [String.empty_append] at this
  exact this

theorem finish_sql_eq_empty_iff : compiled.finish.sql = "" ↔ compiled.sql = "" := by
  have hspelling : compiled.tokens.flatMap spelling = compiled.sql.toList := spelling_scan false _
  have htext {f : String → String} (hf : ∀ name, f name ≠ "") :
      compiled.textWith f = "" ↔ compiled.sql = "" := by
    rw [← String.toList_eq_nil_iff, ← String.toList_eq_nil_iff, ← hspelling, textWith,
      String.toList_ofList]
    cases compiled.tokens with
    | nil => rfl
    | cons token tokens => cases token <;> simp [write, spelling, hf]
  unfold finish
  cases compiled.style with
  | named => rfl
  | dollar =>
    apply htext
    simp
  | question =>
    apply htext
    simp

end Compiled

-- blanks are only taken away from behind the last character that is none
theorem Text.exists_trimChars_append {c d : Char} {front : List Char} (hc : front.head? = some c)
    (hcb : isBlank c = false) (hd : front.getLast? = some d) (hdb : isBlank d = false)
    (behind : List Char) : ∃ rest, trimChars (front ++ behind) = front ++ rest := by
  have keep (behind : List Char) :
      ∃ rest, skipBlanks (behind ++ front.reverse) = rest ++ front.reverse := by
    induction behind with
    | nil =>
      obtain ⟨ds, hds⟩ := List.head?_eq_some_iff.1 (List.head?_reverse.trans hd)
      refine ⟨[], ?_⟩
      simp [skipBlanks, hds, hdb]
    | cons b behind ih =>
      cases hb : isBlank b with
      | true => simpa [skipBlanks, hb] using ih
      | false => exact ⟨b :: behind, by simp [skipBlanks, hb]⟩
  obtain ⟨rest, hrest⟩ := keep behind.reverse
  obtain ⟨cs, rfl⟩ := List.head?_eq_some_iff.1 hc
  refine ⟨rest.reverse, ?_⟩
  have hskip : skipBlanks (c :: cs ++ behind) = c :: cs ++ behind := by simp [skipBlanks, hcb]
  unfold trimChars
  rw [hskip, List.reverse_append, hrest]
  simp

namespace Templates

def deleteSlots (table whereClause : String) : Slots :=
  [("TABLE", table), ("WHERE", whereClause)]

theorem delete_standard : standard.get .delete =
    "DELETE FROM " ++ Template.slot "TABLE" ++ Template.slot "JOIN" ++ Template.slot "WHERE" ++
      Template.slot "ORDER" ++ Template.slot "LIMIT" ++ Template.slot "LOCK" ++
      Template.slot "COMMENT" := by
  decide +kernel

theorem fill_delete (table filter : String) :
    Template.fill (deleteSlots table filter) none (standard.get .delete).toList =
      ("DELETE FROM " ++ table ++ filter).toList := by
  rw [delete_standard]
  rw [← List.append_nil (String.toList _)]
  simp only [String.toList_append, List.append_assoc]
  simp (disch := decide) only [Template.fill_append, Template.fill_slot]
  simp [deleteSlots, Slots.text, List.lookup_cons, Template.fill]

theorem assemble_delete {table filter : String}
    (h : EndsSolid ("DELETE FROM " ++ table ++ filter)) :
    standard.assemble .delete (deleteSlots table filter) = "DELETE FROM " ++ table ++ filter := by
  obtain ⟨d, hd, hb⟩ := h
  unfold assemble
  rw [fill_delete]
  rw [Text.trimChars_eq_self (by simp) (by decide : Text.isBlank 'D' = false) hd hb]
  apply String.ofList_toList

end Templates

end SqlFilter
