import SqlFilter.Proofs.Simulation

/-!
This module contains the proof that no filter without raw texts breaks out of its statement:
whatever its names and values are, the compiled text has harmless characters only.
-/

namespace SqlFilter

open Draft

inductive QuotesPaired (q : Char) : List Char → Prop
  | nil : QuotesPaired q []
  | other {c cs} : c ≠ q → QuotesPaired q cs → QuotesPaired q (c :: cs)
  | pair {w cs} :
    w ≠ [] → (∀ c ∈ w, Text.isWordChar c = true) → QuotesPaired q cs →
      QuotesPaired q (q :: w ++ q :: cs)

structure InjectionSafe (q : Char) (cs : List Char) : Prop where
  characters : ∀ c ∈ cs, c.isAlphanum = true ∨
    c ∈ ['_', '.', ' ', '(', ')', ',', ':', '=', '<', '>', '*', '-'] ∨ c = q
  quotes : QuotesPaired q cs
  minus : ∀ front back, cs = front ++ '-' :: back → ∃ d, back.head? = some d ∧ d.isDigit = true
  noLineComment : ¬ ['-', '-'] <:+: cs
  noBlockComment : ¬ ['/', '*'] <:+: cs
  noLiteral : '\'' ∉ cs
  noSemicolon : ';' ∉ cs

namespace Text

def isGenerated (c : Char) : Bool :=
  isPlain c || c == ':'

theorem isGenerated_of_isPlain {c : Char} (h : isPlain c = true) : isGenerated c = true := by
  simp [isGenerated, h]

theorem isGenerated_of_isWordChar {c : Char} (h : isWordChar c = true) : isGenerated c = true :=
  isGenerated_of_isPlain (isPlain_of_isWordChar h)

theorem isGenerated_quote (style : QuoteStyle) : isGenerated style.char = false := by
  cases style <;> decide

end Text

namespace SafeText

variable {style : QuoteStyle} {cs : List Char}

theorem characters (h : SafeText Text.isGenerated style.char cs) : ∀ c ∈ cs,
    c.isAlphanum = true ∨ c ∈ ['_', '.', ' ', '(', ')', ',', ':', '=', '<', '>', '*', '-'] ∨
      c = style.char := by
  have word (c : Char) (hw : Text.isWordChar c = true) : c.isAlphanum = true ∨ c = '_' := by
    simpa [Text.isWordChar] using hw
  intro c hc
  rcases h.mem hc with hg | rfl | rfl | hw
  . simp only [Text.isGenerated, Text.isPlain, Bool.or_eq_true, List.contains_iff_mem,
      beq_iff_eq] at hg
    rcases hg with (hw | hp) | rfl
    . cases word c hw with
      | inl ha => exact .inl ha
      | inr hu => simp [hu]
    . refine .inr (.inl ?_)
      simp only [List.mem_cons, List.not_mem_nil, or_false] at hp
      rcases hp with rfl | rfl | rfl | rfl | rfl | rfl | rfl | rfl | rfl <;> simp
    . simp
  . simp
  . simp
  . cases word c hw with
    | inl ha => exact .inl ha
    | inr hu => simp [hu]

theorem quotesPaired (h : SafeText Text.isGenerated style.char cs) :
    QuotesPaired style.char cs := by
  have other {c : Char} (hc : Text.isGenerated c = true) : c ≠ style.char := by
    rintro rfl
    rw [Text.isGenerated_quote] at hc
    cases hc
  induction h with
  | nil => exact .nil
  | char hc _ ih => exact .other (other hc) ih
  | minus _ _ ih => exact .other (by cases style <;> decide) ih
  | quoted hne hw _ ih => exact .pair hne hw ih

theorem isDigit_after_minus (h : SafeText Text.isGenerated style.char cs) :
    ∀ front back, cs = front ++ '-' :: back → ∃ d, back.head? = some d ∧ d.isDigit = true := by
  induction h with
  | nil =>
    intro front back he
    simp at he
  | @char c cs hc _ ih =>
    intro front back he
    cases front with
    | nil =>
      cases he
      cases hc
    | cons c' front =>
      cases he
      exact ih front back rfl
  | @minus d cs hd _ ih =>
    intro front back he
    cases front with
    | nil =>
      cases he
      exact ⟨d, rfl, hd⟩
    | cons c' front =>
      simp only [List.cons_append, List.cons.injEq] at he
      exact ih front back he.2
  | @quoted w cs _ hw _ ih =>
    intro front back he
    -- a minus sign is neither one of the quotes nor part of the word between them
    have hminus : '-' ∉ style.char :: w ++ [style.char] := by
      have hq : '-' ≠ style.char := by cases style <;> decide
      have hword : '-' ∉ w := fun hm => absurd (hw _ hm) (by decide)
      simp [hq, hword]
    have hsplit : (style.char :: w ++ [style.char]) ++ cs = front ++ '-' :: back := by
      simpa using he
    rcases List.append_eq_append_iff.1 hsplit with ⟨rest, _, hcs⟩ | ⟨rest, hq, hback⟩
    . exact ih rest back hcs
    . cases rest with
      | nil => exact ih [] back hback.symm
      | cons c rest =>
        cases hback
        exact absurd (by simp [hq]) hminus

theorem injectionSafe (h : SafeText Text.isGenerated style.char cs) :
    InjectionSafe style.char cs := by
  have absent (c : Char) (hc : c.isAlphanum = false)
      (hl : c ∉ ['_', '.', ' ', '(', ')', ',', ':', '=', '<', '>', '*', '-'])
      (hq : c ≠ style.char) : c ∉ cs := by
    intro hm
    rcases h.characters c hm with ha | hm | he
    . rw [hc] at ha
      cases ha
    . exact hl hm
    . exact hq he
  constructor
  . exact h.characters
  . exact h.quotesPaired
  . exact h.isDigit_after_minus
  . -- the second of two minus signs would be the digit behind the first one
    rintro ⟨front, back, rfl⟩
    obtain ⟨d, hd, hdigit⟩ := h.isDigit_after_minus front ('-' :: back) (by simp)
    cases hd
    cases hdigit
  . intro hi
    exact absent '/' (by decide) (by decide) (by cases style <;> decide) (hi.subset (by simp))
  . exact absent '\'' (by decide) (by decide) (by cases style <;> decide)
  . exact absent ';' (by decide) (by decide) (by cases style <;> decide)

end SafeText

theorem CompilerConfig.isStem_of_fault? {config : CompilerConfig} (h : config.fault? = none) :
    isStem config.bindStem = true := by
  unfold fault? at h
  split at h
  . cases h
  . split at h
    . cases h
    . simp_all

namespace BindTable

variable {table : BindTable}

theorem isWordChar_of_mem_stem {stem : String} (h : CompilerConfig.isStem stem = true) :
    ∀ c ∈ stem.toList, Text.isWordChar c = true := by
  unfold CompilerConfig.isStem at h
  split at h
  . cases h
  . next c cs he =>
    simp only [Bool.and_eq_true, List.all_eq_true] at h
    intro c' hc
    rw [he] at hc
    cases List.mem_cons.1 hc with
    | inl heq =>
      subst heq
      have := h.1
      simp only [Bool.or_eq_true, beq_iff_eq] at this
      cases this with
      | inl ha =>
        unfold Text.isWordChar Char.isAlphanum
        rw [ha, Bool.true_or, Bool.true_or]
      | inr hu => simp [Text.isWordChar, hu]
    | inr hm => exact h.2 c' hm

theorem isWordChar_generated (hs : CompilerConfig.isStem table.stem = true) (number : Nat) :
    ∀ c ∈ (table.generated number).toList, Text.isWordChar c = true := by
  intro c hc
  rw [generated, String.toList_append] at hc
  cases List.mem_append.1 hc with
  | inl hm => exact isWordChar_of_mem_stem hs c hm
  | inr hm => exact Decimal.isWordChar_natText number c hm

theorem safe_placeholder {q : Char} (hs : CompilerConfig.isStem table.stem = true)
    (number : Nat) : SafeText Text.isGenerated q (table.placeholder number).toList := by
  rw [placeholder, String.toList_append]
  apply SafeText.append (.of_all (by decide))
  exact .of_forall fun c hc => Text.isGenerated_of_isWordChar (isWordChar_generated hs number c hc)

end BindTable

namespace Draft

variable {q : Char} {table : BindTable}

theorem safe_writtenPiece (ht : table.Numbered) (hs : CompilerConfig.isStem table.stem = true)
    {p : Piece} (hp : ∀ s, p = .text s → SafeText Text.isPlain q s.toList) :
    SafeText Text.isGenerated q (p.written table).toList := by
  rcases p.text_or_value with ⟨s, rfl⟩ | ⟨value, type, hv⟩
  . exact (hp s rfl).mono fun _ => Text.isGenerated_of_isPlain
  . obtain ⟨number, hw⟩ := ht.written_value hv
    rw [hw]
    exact BindTable.safe_placeholder hs number

theorem safe_written {d : Draft} (hd : ∀ s, Piece.text s ∈ d → SafeText Text.isPlain q s.toList)
    (ht : table.Numbered) (hs : CompilerConfig.isStem table.stem = true) :
    SafeText Text.isGenerated q (written table d).toList := by
  induction d generalizing table with
  | nil => exact .nil
  | cons p d ih =>
    rw [written, String.toList_append]
    apply SafeText.append
    . apply safe_writtenPiece ht hs
      rintro s rfl
      exact hd s List.mem_cons_self
    . apply ih
      . exact fun s hm => hd s (List.mem_cons_of_mem p hm)
      . exact ht.after_piece p
      . rw [BindTable.stem_after_piece]
        exact hs

end Draft

namespace Compiler

variable {c : Compiler} {input : WhereInput} {compiled : Compiled}

theorem draft_of_compile (hc : c.Regular) (hi : input.rawFree c.config = true)
    (h : c.compile input = .ok compiled) :
    ∃ d, Clean c.schema.quote.char d ∧
      compiled = Draft.compiled c.config.bindStem c.placeholder d := by
  obtain ⟨group, hg, h⟩ := bind_eq_ok.1 h
  have ht := toOption_compileGroup hc (groupOf_rawFree hi hg)
  rw [h, toOption_ok] at ht
  obtain ⟨d, hd, he⟩ := Option.map_eq_some_iff.1 ht.symm
  exact ⟨d, clean_filterDraft (groupOf_rawFree hi hg) hc.softDelete hd, he.symm⟩

theorem injectionSafe_compile (hc : c.Regular) (hi : input.rawFree c.config = true)
    (h : c.compile input = .ok compiled) :
    InjectionSafe c.schema.quote.char compiled.sql.toList := by
  obtain ⟨d, hd, rfl⟩ := draft_of_compile hc hi h
  apply SafeText.injectionSafe
  apply safe_written hd.safe (BindTable.numbered_empty _)
  exact CompilerConfig.isStem_of_fault? hc.valid

def hostileInput : WhereInput :=
  -- each of these values would end the statement if it were written into it
  .map [("name", .string "'; DROP TABLE users --"),
    ("key", .array [.string "in", .array [.int (-5), .string "*/ 1"]])]

theorem injectionSafe_hostileInput :
    (standard { keywords := ["key"] }).Regular ∧ hostileInput.rawFree {} = true ∧
      ∃ compiled, (standard { keywords := ["key"] }).compile hostileInput = .ok compiled ∧
        compiled.sql = "( name = :p1 ) AND ( `key` IN (:p2,:p3) )" ∧
          InjectionSafe '\x60' compiled.sql.toList := by
  have hok : ((standard { keywords := ["key"] }).compile hostileInput).toOption.map Compiled.sql =
      some "( name = :p1 ) AND ( `key` IN (:p2,:p3) )" := by
    decide +kernel
  obtain ⟨compiled, hc, hs⟩ := Option.map_eq_some_iff.1 hok
  have hc := toOption_eq_some hc
  exact ⟨regular_standard _, rfl, compiled, hc, hs,
    injectionSafe_compile (regular_standard _) rfl hc⟩

end Compiler

end SqlFilter
