import SqlFilter.Compiler

/-!
This module contains drafts: texts in which the values have no placeholders yet. Writing a draft
registers its values, from left to right, in a table of binds. In a table whose names are all
generated nothing can go wrong on the way, and `BindTable.Numbered.value_cases` says everything that
writing a value can do.
-/

namespace SqlFilter

inductive Piece where
  | text (s : String)
  | fresh (type : BindType) (value : Value)
  | scalar (type : BindType) (value : Value)

namespace Piece

def param? : Piece → Option (Value × BindType)
  | .text _ => none
  | .fresh type value => some (value, type)
  | .scalar type value => some (value, type)

theorem text_or_value (p : Piece) :
    (∃ s, p = .text s) ∨ ∃ value type, p.param? = some (value, type) := by
  cases p with
  | text s => exact .inl ⟨s, rfl⟩
  | fresh type value => exact .inr ⟨value, type, rfl⟩
  | scalar type value => exact .inr ⟨value, type, rfl⟩

def marked : Piece → String
  | .text s => s
  | .fresh _ _ => "?"
  | .scalar _ _ => "?"

def written (table : BindTable) : Piece → String
  | .text s => s
  | .fresh type value => ":" ++ (table.register value type).1
  | .scalar type value =>
    match table.reference? value with
    | some placeholder => placeholder
    | none => ":" ++ (table.register value type).1

def after (table : BindTable) : Piece → BindTable
  | .text _ => table
  | .fresh type value => (table.register value type).2
  | .scalar type value =>
    match table.reference? value with
    | some _ => table
    | none => (table.register value type).2

end Piece

abbrev Draft := List Piece

namespace Draft

def params (d : Draft) : List (Value × BindType) :=
  d.filterMap Piece.param?

def marked (d : Draft) : String :=
  String.join (d.map Piece.marked)

def written : BindTable → Draft → String
  | _, [] => ""
  | table, p :: ps => p.written table ++ written (p.after table) ps

def after (table : BindTable) (d : Draft) : BindTable :=
  d.foldl Piece.after table

def joined (separator : String) : List Draft → Draft
  | [] => []
  | [d] => d
  | d :: e :: ds => d ++ .text separator :: joined separator (e :: ds)

variable (table : BindTable)

@[simp]
theorem written_nil : written table [] = "" := rfl

@[simp]
theorem written_text (s : String) (d : Draft) :
    written table (.text s :: d) = s ++ written table d := rfl

@[simp]
theorem after_nil : after table [] = table := rfl

@[simp]
theorem after_text (s : String) (d : Draft) : after table (.text s :: d) = after table d := rfl

theorem after_cons (p : Piece) (d : Draft) :
    after table (p :: d) = after (p.after table) d := rfl

@[simp]
theorem after_append (d e : Draft) : after table (d ++ e) = after (after table d) e := by
  simp [after]

@[simp]
theorem written_append (d e : Draft) :
    written table (d ++ e) = written table d ++ written (after table d) e := by
  induction d generalizing table with
  | nil => simp
  | cons p ps ih =>
    simp only [List.cons_append, written, after_cons]
    rw [ih, String.append_assoc]

end Draft

namespace BindTable

variable {table : BindTable}

def Numbered (table : BindTable) : Prop :=
  table.binds.map Bind.name = (List.range table.counter).map fun i => table.generated (i + 1)

def placeholder (table : BindTable) (number : Nat) : String :=
  ":" ++ table.generated number

def push (table : BindTable) (value : Value) (type : BindType) : BindTable :=
  { table with
    counter := table.counter + 1
    binds := table.binds ++ [⟨table.generated (table.counter + 1), value, type⟩] }

theorem isRegistered_iff {name : String} :
    table.isRegistered name = true ↔ name ∈ table.binds.map Bind.name := by
  simp [isRegistered]

theorem generated_inj {m n : Nat} : table.generated m = table.generated n ↔ m = n := by
  simp [generated, Decimal.natText_inj]

theorem numbered_empty (stem : String) : (empty stem).Numbered := rfl

namespace Numbered

theorem length_binds (h : table.Numbered) : table.binds.length = table.counter := by
  have := congrArg List.length h
  simpa using this

theorem mem_names_iff (h : table.Numbered) {name : String} :
    table.isRegistered name = true ↔ ∃ i, i < table.counter ∧ table.generated (i + 1) = name := by
  rw [isRegistered_iff, h]
  simp

theorem freeNumber_eq (h : table.Numbered) :
    table.freeNumber (table.counter + 1) = table.counter + 1 := by
  have hfree : table.isRegistered (table.generated (table.counter + 1)) = false := by
    rw [Bool.eq_false_iff]
    intro hr
    obtain ⟨i, hi, he⟩ := h.mem_names_iff.1 hr
    have := generated_inj.1 he
    omega
  unfold freeNumber
  cases table.binds.length with
  | zero => rfl
  | succ n => simp [freeNumber.go, hfree]

theorem register_eq (h : table.Numbered) (value : Value) (type : BindType) :
    table.register value type = (table.generated (table.counter + 1), table.push value type) := by
  simp only [register, h.freeNumber_eq, push]

theorem push (h : table.Numbered) (value : Value) (type : BindType) :
    (table.push value type).Numbered := by
  have hg (n : Nat) : (table.push value type).generated n = table.generated n := rfl
  unfold Numbered
  simp only [hg]
  simp only [BindTable.push, List.map_append, List.map_cons, List.map_nil, List.range_succ]
  rw [h]

theorem eq_placeholder_of_reference? (h : table.Numbered) {value : Value} {s : String}
    (hs : table.reference? value = some s) :
    value = .text s ∧ ∃ i, i < table.counter ∧ s = table.placeholder (i + 1) := by
  unfold reference? at hs
  split at hs
  . next t =>
    split at hs
    . next name ht =>
      split at hs
      . next hr =>
        cases hs
        obtain ⟨i, hi, he⟩ := h.mem_names_iff.1 hr
        refine ⟨rfl, i, hi, ?_⟩
        rw [placeholder, he, ← String.toList_inj, ht]
        simp
      . cases hs
    . cases hs
  . cases hs

theorem value_next (h : table.Numbered) {p : Piece} {value : Value} {type : BindType}
    (hp : p.param? = some (value, type))
    (hr : ∀ type v, p = .scalar type v → table.reference? v = none) :
    p.written table = table.placeholder (table.counter + 1) ∧
      p.after table = table.push value type := by
  cases p with
  | text s => cases hp
  | fresh type value =>
    cases hp
    simp [Piece.written, Piece.after, h.register_eq, placeholder]
  | scalar type value =>
    cases hp
    simp [Piece.written, Piece.after, hr type value rfl, h.register_eq, placeholder]

theorem value_cases (h : table.Numbered) {p : Piece} {value : Value} {type : BindType}
    (hp : p.param? = some (value, type)) :
    (p.written table = table.placeholder (table.counter + 1) ∧
        p.after table = table.push value type) ∨
      ∃ i, i < table.counter ∧ value = .text (table.placeholder (i + 1)) ∧
        p.written table = table.placeholder (i + 1) ∧ p.after table = table := by
  cases p with
  | text s => cases hp
  | fresh type value =>
    apply Or.inl
    apply h.value_next hp
    intro type v he
    cases he
  | scalar type value =>
    cases hr : table.reference? value with
    | none =>
      apply Or.inl
      apply h.value_next hp
      intro type v he
      cases he
      exact hr
    | some s =>
      cases hp
      obtain ⟨rfl, i, hi, rfl⟩ := h.eq_placeholder_of_reference? hr
      exact .inr ⟨i, hi, rfl, by simp [Piece.written, hr], by simp [Piece.after, hr]⟩

theorem written_value (h : table.Numbered) {p : Piece} {value : Value} {type : BindType}
    (hp : p.param? = some (value, type)) :
    ∃ number, p.written table = table.placeholder number := by
  rcases h.value_cases hp with ⟨hw, _⟩ | ⟨i, _, _, hw, _⟩
  . exact ⟨table.counter + 1, hw⟩
  . exact ⟨i + 1, hw⟩

theorem after_piece (h : table.Numbered) (p : Piece) : (p.after table).Numbered := by
  rcases p.text_or_value with ⟨s, rfl⟩ | ⟨value, type, hp⟩
  . exact h
  . rcases h.value_cases hp with ⟨_, ha⟩ | ⟨_, _, _, _, ha⟩
    . rw [ha]
      apply h.push
    . rw [ha]
      exact h

theorem after (h : table.Numbered) (d : Draft) : (Draft.after table d).Numbered := by
  induction d generalizing table with
  | nil => exact h
  | cons p ps ih =>
    rw [Draft.after_cons]
    apply ih
    apply h.after_piece

end Numbered

theorem stem_after_piece (table : BindTable) (p : Piece) : (p.after table).stem = table.stem := by
  cases p with
  | text s => rfl
  | fresh type value => rfl
  | scalar type value =>
    simp only [Piece.after]
    split
    . rfl
    . rfl

theorem stem_after (table : BindTable) (d : Draft) : (Draft.after table d).stem = table.stem := by
  induction d generalizing table with
  | nil => rfl
  | cons p ps ih =>
    rw [Draft.after_cons]
    rw [ih]
    apply stem_after_piece

end BindTable

end SqlFilter
