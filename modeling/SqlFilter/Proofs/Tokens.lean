import SqlFilter.Proofs.InjectionSafety
import SqlFilter.Proofs.Reference

/-!
This module contains the tokens of drafts: they can be read back from the written form, and their
references name the binds of the table in the order in which they were bound.
-/

namespace SqlFilter

open Draft

namespace BindTable

variable {table : BindTable}

def names (table : BindTable) : List String :=
  table.binds.map Bind.name

theorem counter_after_piece (ht : table.Numbered) (p : Piece) :
    table.counter ≤ (p.after table).counter := by
  rcases p.text_or_value with ⟨s, rfl⟩ | ⟨value, type, hp⟩
  . exact Nat.le_refl _
  . rcases ht.value_cases hp with ⟨_, ha⟩ | ⟨_, _, _, _, ha⟩
    . simp [ha, push]
    . simp [ha]

theorem counter_after (ht : table.Numbered) (d : Draft) :
    table.counter ≤ (after table d).counter := by
  induction d generalizing table with
  | nil => exact Nat.le_refl _
  | cons p d ih => exact Nat.le_trans (counter_after_piece ht p) (ih (ht.after_piece p))

theorem Numbered.mem_names (ht : table.Numbered) {i : Nat} (hi : i < table.counter) :
    table.generated (i + 1) ∈ table.names := by
  rw [names]
  rw [ht]
  exact List.mem_map.2 ⟨i, List.mem_range.2 hi, rfl⟩

theorem Numbered.not_mem_names (ht : table.Numbered) :
    table.generated (table.counter + 1) ∉ table.names := by
  rw [names]
  rw [ht]
  intro hm
  obtain ⟨i, hi, he⟩ := List.mem_map.1 hm
  have := generated_inj.1 he
  have := List.mem_range.1 hi
  omega

theorem generated_ne_empty (number : Nat) : table.generated number ≠ "" :=
  ((EndsSolid.natText number).append_left table.stem).ne_empty

theorem generated_after_piece (p : Piece) (number : Nat) :
    (p.after table).generated number = table.generated number := by
  rw [generated]
  rw [stem_after_piece]
  rfl

theorem generated_after (d : Draft) (number : Nat) :
    (after table d).generated number = table.generated number := by
  rw [generated]
  rw [stem_after]
  rfl

end BindTable

def Piece.tokens (table : BindTable) : Piece → List SqlToken
  | .text s => s.toList.map .char
  | p => [.reference (String.ofList (p.written table).toList.tail)]

theorem Piece.tokens_of_written {table : BindTable} {p : Piece} {param : Value × BindType}
    (hp : p.param? = some param) {number : Nat}
    (hw : p.written table = table.placeholder number) :
    p.tokens table = [.reference (table.generated number)] := by
  cases p with
  | text s => cases hp
  | fresh type value => simp [tokens, hw, BindTable.placeholder]
  | scalar type value => simp [tokens, hw, BindTable.placeholder]

theorem Piece.tokens_cases {table : BindTable} (ht : table.Numbered) {p : Piece} {value : Value}
    {type : BindType} (hp : p.param? = some (value, type)) :
    ∃ i, p.tokens table = [.reference (table.generated (i + 1))] ∧
      p.written table = table.placeholder (i + 1) ∧
        (i = table.counter ∧ p.after table = table.push value type ∨
          i < table.counter ∧ value = .text (table.placeholder (i + 1)) ∧
            p.after table = table) := by
  cases ht.value_cases hp with
  | inl hnew =>
    exact ⟨table.counter, tokens_of_written hp hnew.1, hnew.1, .inl ⟨rfl, hnew.2⟩⟩
  | inr hold =>
    obtain ⟨i, hi, hv, hw, ha⟩ := hold
    exact ⟨i, tokens_of_written hp hw, hw, .inr ⟨hi, hv, ha⟩⟩

namespace Draft

def tokens : BindTable → Draft → List SqlToken
  | _, [] => []
  | table, p :: d => p.tokens table ++ tokens (p.after table) d

theorem induction_on {P : Draft → Prop} (d : Draft) (nil : P [])
    (text : ∀ s d, P d → P (.text s :: d))
    (value : ∀ p value type d, p.param? = some (value, type) → P d → P (p :: d)) : P d := by
  induction d with
  | nil => exact nil
  | cons p d ih =>
    rcases p.text_or_value with ⟨s, rfl⟩ | ⟨v, type, hp⟩
    . exact text s d ih
    . exact value p v type d hp ih

variable {q : Char} {table : BindTable} {d : Draft}

theorem spelling_tokens (ht : table.Numbered) :
    (tokens table d).flatMap SqlToken.spelling = (written table d).toList := by
  induction d using induction_on generalizing table with
  | nil => rfl
  | text s d ih =>
    rw [written_text, String.toList_append, ← ih ht]
    simp [tokens, Piece.tokens, Piece.after, List.flatMap_map, SqlToken.spelling]
  | value p value type d hp ih =>
    obtain ⟨i, hr, hw, _⟩ := p.tokens_cases ht hp
    simp [tokens, written, hr, hw, ih (ht.after_piece p), SqlToken.spelling, BindTable.placeholder]

theorem names_text (table : BindTable) (s : String) (d : Draft) :
    (tokens table (.text s :: d)).filterMap SqlToken.name? =
      (tokens table d).filterMap SqlToken.name? := by
  have hnone : (s.toList.map SqlToken.char).filterMap SqlToken.name? = [] := by
    simp [SqlToken.name?]
  simp only [tokens, Piece.tokens, List.filterMap_append, hnone, List.nil_append]
  rfl

theorem head?_written (ht : table.Numbered) : (written table d).toList.head? = d.first? := by
  induction d using induction_on generalizing table with
  | nil => rfl
  | text s d ih => simp [first?, ih ht]
  | value p value type d hp ih =>
    obtain ⟨i, _, hw, _⟩ := p.tokens_cases ht hp
    cases p with
    | text s => cases hp
    | fresh type value => simp [written, hw, first?, BindTable.placeholder]
    | scalar type value => simp [written, hw, first?, BindTable.placeholder]

end Draft

theorem SafeText.ne_of_mem {style : QuoteStyle} {cs : List Char}
    (h : SafeText Text.isPlain style.char cs) {c : Char} (hc : c ∈ cs) :
    c ≠ ':' ∧ c ≠ '\'' ∧ c ≠ '?' := by
  rcases h.mem hc with hp | rfl | rfl | hw
  . refine ⟨?_, ?_, ?_⟩ <;> rintro rfl <;> exact absurd hp (by decide)
  . decide
  . cases style <;> decide
  . refine ⟨?_, ?_, ?_⟩ <;> rintro rfl <;> exact absurd hw (by decide)

namespace Draft

variable {style : QuoteStyle} {table : BindTable} {d : Draft}

theorem readable_tokens (hd : Clean style.char d) (ht : table.Numbered)
    (hs : CompilerConfig.isStem table.stem = true) {isBound : String → Bool}
    (hb : ∀ name ∈ (after table d).names, isBound name = true) :
    SqlToken.Readable isBound (tokens table d) := by
  induction d using induction_on generalizing table with
  | nil => exact .nil
  | text s d ih =>
    apply (ih hd.tail ht hs hb).text
    intro c hc
    have := (hd.safe s List.mem_cons_self).ne_of_mem hc
    exact ⟨this.1, this.2.1⟩
  | value p value type d hp ih =>
    have hnext := ht.after_piece p
    obtain ⟨i, hr, _, hi⟩ := p.tokens_cases ht hp
    have hlt : i < (p.after table).counter := by
      rcases hi with ⟨rfl, ha⟩ | ⟨hi, _, ha⟩
      . simp [ha, BindTable.push]
      . simpa [ha] using hi
    -- the counter never falls, so the name is still in use when the draft has been written
    have hmem : table.generated (i + 1) ∈ (after table (p :: d)).names := by
      have := (hnext.after d).mem_names (Nat.lt_of_lt_of_le hlt (BindTable.counter_after hnext d))
      rw [BindTable.generated_after] at this
      rw [BindTable.generated_after_piece] at this
      exact this
    simp only [tokens, hr, List.cons_append, List.nil_append]
    apply SqlToken.Readable.reference
    . exact hb _ hmem
    . apply BindTable.generated_ne_empty
    . exact BindTable.isWordChar_generated hs _
    . intro c hc
      rw [spelling_tokens hnext, head?_written hnext] at hc
      exact hd.delimited.1 (by simp [hp]) c hc
    . apply ih hd.tail hnext
      . rw [BindTable.stem_after_piece]
        exact hs
      . exact hb

-- the induction is on the draft, with the references that came before it: without repetitions these
-- are the names of the table
theorem eraseDups_references (ht : table.Numbered) {earlier : List String}
    (he : earlier.eraseDups = table.names) :
    (earlier ++ (tokens table d).filterMap SqlToken.name?).eraseDups = (after table d).names := by
  induction d using induction_on generalizing table earlier with
  | nil => simpa [tokens] using he
  | text s d ih =>
    rw [names_text]
    exact ih ht he
  | value p value type d hp ih =>
    obtain ⟨i, hr, _, hi⟩ := p.tokens_cases ht hp
    have hmem (name : String) : name ∈ earlier ↔ name ∈ table.names := by
      rw [← he, List.mem_eraseDups]
    have hstep : (earlier ++ [table.generated (i + 1)]).eraseDups = (p.after table).names := by
      rw [List.eraseDups_append]
      rcases hi with ⟨rfl, ha⟩ | ⟨hi, _, ha⟩
      . have hfree : table.generated (table.counter + 1) ∉ earlier := by
          rw [hmem]
          exact ht.not_mem_names
        simp [ha, BindTable.push, BindTable.names, List.removeAll, hfree, he, List.eraseDups_cons]
      . have hused : table.generated (i + 1) ∈ earlier := by
          rw [hmem]
          exact ht.mem_names hi
        simp [ha, List.removeAll, hused, he]
    have := ih (ht.after_piece p) hstep
    rw [after_cons]
    simpa [tokens, hr, SqlToken.name?] using this

theorem mem_text_of_char_mem_tokens {table : BindTable} {c : Char}
    (h : .char c ∈ tokens table d) : ∃ s, .text s ∈ d ∧ c ∈ s.toList := by
  induction d generalizing table with
  | nil => cases h
  | cons p d ih =>
    cases List.mem_append.1 h with
    | inl hp =>
      cases p with
      | text s =>
        obtain ⟨c', hc, he⟩ := List.mem_map.1 hp
        cases he
        exact ⟨s, List.mem_cons_self, hc⟩
      | fresh type value => simp [Piece.tokens] at hp
      | scalar type value => simp [Piece.tokens] at hp
    | inr hd =>
      obtain ⟨s, hs, hc⟩ := ih hd
      exact ⟨s, List.mem_cons_of_mem p hs, hc⟩

end Draft

end SqlFilter
