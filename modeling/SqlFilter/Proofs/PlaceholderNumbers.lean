import Mathlib.Data.List.Induction
import SqlFilter.Proofs.Numerals
import SqlFilter.Proofs.Placeholder
import SqlFilter.Proofs.TextReading

/-!
This module contains the proof that rewriting placeholders loses nothing: both positional styles are
written from one reading of the text, and the numbers of the one style lead back to the other.
-/

namespace SqlFilter

def nameRank (names : List String) (name : String) : Nat :=
  (names.takeWhile (· != name)).eraseDups.length + 1

def lastValue? (binds : List Bind) (name : String) : Option Value :=
  binds.foldl (fun found b => if b.name = name then some b.value else found) none

theorem exists_append_of_mem {names : List String} {name : String} (h : name ∈ names) :
    ∃ others, names = names.takeWhile (· != name) ++ name :: others ∧
      name ∉ names.takeWhile (· != name) := by
  induction names with
  | nil => cases h
  | cons first names ih =>
    by_cases he : first = name
    . exact ⟨names, by simp [he], by simp [he]⟩
    . have hm : name ∈ names := by simpa [Ne.symm he] using h
      obtain ⟨others, hnames, hnot⟩ := ih hm
      refine ⟨others, ?_, ?_⟩
      . rw [List.takeWhile_cons_of_pos (by simpa using he), List.cons_append, ← hnames]
      . rw [List.takeWhile_cons_of_pos (by simpa using he)]
        simp [Ne.symm he, hnot]

theorem idxOf_eraseDups {names : List String} {name : String} (h : name ∈ names) :
    names.eraseDups.idxOf name + 1 = nameRank names name := by
  obtain ⟨others, hnames, hnot⟩ := exists_append_of_mem h
  unfold nameRank
  generalize names.takeWhile (· != name) = front at hnames hnot
  have herase : names.eraseDups =
      front.eraseDups ++ name :: ((others.removeAll front).filter fun b => !b == name).eraseDups := by
    rw [hnames, List.eraseDups_append]
    simp [List.removeAll, hnot, List.eraseDups_cons]
  rw [herase, List.idxOf_append_of_notMem (by simpa [List.mem_eraseDups] using hnot)]
  simp

theorem getElem?_nameRank {names : List String} {name : String} (h : name ∈ names) :
    names.eraseDups[nameRank names name - 1]? = some name := by
  rw [← idxOf_eraseDups h, Nat.add_sub_cancel]
  have hm : name ∈ names.eraseDups := List.mem_eraseDups.2 h
  rw [List.getElem?_eq_getElem (List.idxOf_lt_length_of_mem hm)]
  simp

namespace Text

/-- A text with a question mark for each dollar sign and the digits behind it. The first argument
tells whether such digits are being passed. -/
def unnumbered : Bool → List Char → List Char
  | _, [] => []
  | passing, c :: cs =>
    if passing && c.isDigit then unnumbered true cs
    else if c = '$' then '?' :: unnumbered true cs
    else c :: unnumbered false cs

def dollarNumbers : List Char → List Nat
  | [] => []
  | c :: cs =>
    if c = '$' then Decimal.digitsValue 0 (cs.takeWhile Char.isDigit) :: dollarNumbers cs
    else dollarNumbers cs

section Digits

variable {ds rest : List Char} (hd : ∀ c ∈ ds, c.isDigit = true)

include hd

theorem unnumbered_digits (hr : ∀ c, rest.head? = some c → c.isDigit = false) :
    unnumbered true (ds ++ rest) = unnumbered false rest := by
  induction ds with
  | nil =>
    cases rest with
    | nil => rfl
    | cons c cs => simp [unnumbered, hr c rfl]
  | cons d ds ih =>
    simp only [List.mem_cons, forall_eq_or_imp] at hd
    simp [unnumbered, hd.1, ih hd.2]

theorem dollarNumbers_digits : dollarNumbers (ds ++ rest) = dollarNumbers rest := by
  induction ds with
  | nil => rfl
  | cons d ds ih =>
    simp only [List.mem_cons, forall_eq_or_imp] at hd
    have hne : d ≠ '$' := by
      rintro rfl
      exact absurd hd.1 (by decide)
    simp [dollarNumbers, hne, ih hd.2]

end Digits

end Text

namespace SqlToken

variable {tokens : List SqlToken}

def dollar (number : String → Nat) (name : String) : String :=
  "$" ++ Decimal.natText (number name)

theorem head?_write_not_digit (number : String → Nat)
    (h : ∀ c, tokens.head? = some (.char c) → Text.isWordChar c = false) :
    ∀ c, (tokens.flatMap (write (dollar number))).head? = some c → c.isDigit = false := by
  intro c hc
  cases tokens with
  | nil => cases hc
  | cons token tokens =>
    cases token with
    | char d =>
      have hd : d = c := by simpa [write] using hc
      have hword := h d rfl
      rw [hd] at hword
      rw [Bool.eq_false_iff]
      intro hdigit
      rw [Text.isWordChar_of_isDigit hdigit] at hword
      cases hword
    | reference name =>
      have hd : '$' = c := by simpa [write, dollar] using hc
      rw [← hd]
      decide

theorem Separated.unnumbered_write (h : Separated tokens) (hd : ∀ c, .char c ∈ tokens → c ≠ '$')
    (number : String → Nat) :
    Text.unnumbered false (tokens.flatMap (write (dollar number))) =
      tokens.flatMap (write fun _ => "?") := by
  induction h with
  | nil => rfl
  | @char c tokens _ ih =>
    have ih := ih fun c hc => hd c (.tail _ hc)
    simp [write, Text.unnumbered, hd c List.mem_cons_self, ih]
  | @reference name tokens hnext _ ih =>
    have ih := ih fun c hc => hd c (.tail _ hc)
    have hdigits : ∀ c ∈ Nat.toDigits 10 (number name), c.isDigit = true :=
      fun c hc => Nat.isDigit_of_mem_toDigits (by omega) (by omega) hc
    have := Text.unnumbered_digits hdigits (head?_write_not_digit number hnext)
    simp [write, dollar, Text.unnumbered, this, ih]

theorem Separated.dollarNumbers_write (h : Separated tokens)
    (hd : ∀ c, .char c ∈ tokens → c ≠ '$') (number : String → Nat) :
    Text.dollarNumbers (tokens.flatMap (write (dollar number))) =
      (tokens.filterMap name?).map number := by
  induction h with
  | nil => rfl
  | @char c tokens _ ih =>
    have ih := ih fun c hc => hd c (.tail _ hc)
    simp [write, Text.dollarNumbers, hd c List.mem_cons_self, ih, List.filterMap_cons, name?]
  | @reference name tokens hnext _ ih =>
    have ih := ih fun c hc => hd c (.tail _ hc)
    have hdigits : ∀ c ∈ Nat.toDigits 10 (number name), c.isDigit = true :=
      fun c hc => Nat.isDigit_of_mem_toDigits (by omega) (by omega) hc
    have htake := Text.takeWhile_digits hdigits (head?_write_not_digit number hnext)
    simp [write, dollar, Text.dollarNumbers, Text.dollarNumbers_digits hdigits, htake, ih, name?,
      Decimal.digitsValue_toDigits]

theorem mem_spelling_of_char_mem {c : Char} (h : .char c ∈ tokens) :
    c ∈ tokens.flatMap spelling :=
  List.mem_flatMap.2 ⟨.char c, h, by simp [spelling]⟩

end SqlToken

namespace Compiled

open SqlToken

structure ReadAs (compiled : Compiled) (tokens : List SqlToken) : Prop where
  spelling : tokens.flatMap spelling = compiled.sql.toList
  references : placed 0 tokens =
    (List.range compiled.sql.toList.length).filterMap fun position =>
      (referenceAt? (fun name => (lastValue? compiled.binds name).isSome) compiled.sql.toList
        position).map (position, ·)
  dollar : (compiled.inStyle .dollar).sql.toList =
    tokens.flatMap (write (dollar (nameRank (tokens.filterMap name?))))
  dollarValues : (compiled.inStyle .dollar).values.map some =
    (tokens.filterMap name?).eraseDups.map (lastValue? compiled.binds)
  ranked : ∀ name ∈ tokens.filterMap name?,
    (compiled.inStyle .dollar).values[nameRank (tokens.filterMap name?) name - 1]? =
      lastValue? compiled.binds name
  question : (compiled.inStyle .question).sql.toList = tokens.flatMap (write fun _ => "?")
  questionValues : (compiled.inStyle .question).values.map some =
    (tokens.filterMap name?).map (lastValue? compiled.binds)
  unnumbered : '$' ∉ compiled.sql.toList →
    (compiled.inStyle .question).sql.toList =
        Text.unnumbered false (compiled.inStyle .dollar).sql.toList ∧
      (compiled.inStyle .question).values.map some =
        (Text.dollarNumbers (compiled.inStyle .dollar).sql.toList).map fun number =>
          (compiled.inStyle .dollar).values[number - 1]?

variable {compiled : Compiled}

theorem value?_eq_lastValue? : compiled.value? = lastValue? compiled.binds := by
  funext name
  unfold value? lastValue?
  induction compiled.binds using List.reverseRecOn with
  | nil => rfl
  | append_singleton binds b ih =>
    rw [List.foldl_append, List.reverse_append]
    by_cases hb : b.name = name
    . simp [hb]
    . simpa [hb] using ih

theorem isBound_of_mem_references {name : String} (h : name ∈ compiled.references) :
    (compiled.value? name).isSome = true :=
  isBound_of_mem_scan name h

theorem placed_tokens :
    placed 0 compiled.tokens =
      (List.range compiled.sql.toList.length).filterMap fun position =>
        (referenceAt? (fun name => (compiled.value? name).isSome) compiled.sql.toList
          position).map (position, ·) := by
  rw [List.range_eq_range']
  change placed ([] : List Char).length compiled.tokens = _
  exact placed_scan ⟨rfl, fun _ _ => rfl⟩

theorem dollar_sql : (compiled.inStyle .dollar).sql.toList =
    compiled.tokens.flatMap (write (SqlToken.dollar (nameRank compiled.references))) := by
  simp only [inStyle, textWith, String.toList_ofList]
  apply write_congr
  intro name (hn : name ∈ compiled.references)
  rw [SqlToken.dollar, ← idxOf_eraseDups hn]
  rfl

theorem dollar_values : (compiled.inStyle .dollar).values.map some =
    compiled.references.eraseDups.map (lastValue? compiled.binds) := by
  simp only [inStyle, distinctReferences]
  rw [map_some_filterMap_value?, value?_eq_lastValue?]
  intro name hn
  exact isBound_of_mem_references (List.mem_eraseDups.1 hn)

theorem getElem?_dollar_values {name : String} (h : name ∈ compiled.references) :
    (compiled.inStyle .dollar).values[nameRank compiled.references name - 1]? =
      lastValue? compiled.binds name := by
  have hvalues : (compiled.inStyle .dollar).values.map some = _ := dollar_values
  have hat := congrArg (·[nameRank compiled.references name - 1]?) hvalues
  simp only [List.getElem?_map, getElem?_nameRank h, Option.map_some] at hat
  obtain ⟨v, hv, he⟩ := Option.map_eq_some_iff.1 hat
  rw [hv, he]

theorem question_sql : (compiled.inStyle .question).sql.toList =
    compiled.tokens.flatMap (write fun _ => "?") := by
  simp only [inStyle, textWith, String.toList_ofList]

theorem question_values : (compiled.inStyle .question).values.map some =
    compiled.references.map (lastValue? compiled.binds) := by
  simp only [inStyle]
  rw [map_some_filterMap_value? fun _ => isBound_of_mem_references, value?_eq_lastValue?]

section OwnDollars

variable (hsign : '$' ∉ compiled.sql.toList)

include hsign

theorem ne_dollar_of_char_mem_tokens : ∀ c, SqlToken.char c ∈ compiled.tokens → c ≠ '$' := by
  rintro c hc rfl
  have hspelling : compiled.tokens.flatMap SqlToken.spelling = compiled.sql.toList :=
    spelling_scan false _
  have := mem_spelling_of_char_mem hc
  rw [hspelling] at this
  exact hsign this

theorem unnumbered_dollar_sql :
    Text.unnumbered false (compiled.inStyle .dollar).sql.toList =
      (compiled.inStyle .question).sql.toList := by
  have hseparated : Separated compiled.tokens := separated_scan false _
  rw [dollar_sql, question_sql, hseparated.unnumbered_write (ne_dollar_of_char_mem_tokens hsign)]

theorem dollarNumbers_dollar_sql :
    Text.dollarNumbers (compiled.inStyle .dollar).sql.toList =
      compiled.references.map (nameRank compiled.references) := by
  have hseparated : Separated compiled.tokens := separated_scan false _
  rw [dollar_sql, hseparated.dollarNumbers_write (ne_dollar_of_char_mem_tokens hsign)]
  rfl

end OwnDollars

theorem readAs_tokens (compiled : Compiled) : compiled.ReadAs compiled.tokens := by
  constructor
  . exact spelling_scan false _
  . rw [← value?_eq_lastValue?]
    exact placed_tokens
  . exact dollar_sql
  . exact dollar_values
  . intro name hn
    exact getElem?_dollar_values hn
  . exact question_sql
  . exact question_values
  . intro hsign
    refine ⟨(unnumbered_dollar_sql hsign).symm, ?_⟩
    rw [question_values, dollarNumbers_dollar_sql hsign, List.map_map]
    exact List.map_congr_left fun name hn => (getElem?_dollar_values hn).symm

end Compiled

end SqlFilter
