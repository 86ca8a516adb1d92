import SqlFilter.Compiled

/-!
This module contains the equations of scanning, and texts in which every colon begins a reference.
Scanning such a text finds all references again, each with the longest word behind its colon.
-/

namespace SqlFilter

namespace Text

def colonWords : List Char → List String
  | [] => []
  | c :: cs =>
    if c = ':' then String.ofList (cs.takeWhile isWordChar) :: colonWords cs else colonWords cs

/-- A text in which each colon is replaced together with the word behind it. The second argument
tells whether such a word is being passed. -/
def replaceColonWords (f : String → String) : Bool → List Char → List Char
  | _, [] => []
  | passing, c :: cs =>
    if passing && isWordChar c then replaceColonWords f true cs
    else if c = ':' then
      (f (String.ofList (cs.takeWhile isWordChar))).toList ++ replaceColonWords f true cs
    else c :: replaceColonWords f false cs

section Word

variable {w rest : List Char} (hw : ∀ c ∈ w, isWordChar c = true)
  (hr : ∀ c, rest.head? = some c → isWordChar c = false)

include hw hr

theorem takeWhile_word : (w ++ rest).takeWhile isWordChar = w := by
  rw [List.takeWhile_append_of_pos hw]
  cases rest with
  | nil => simp
  | cons c cs => simp [hr c rfl]

theorem dropWhile_word : (w ++ rest).dropWhile isWordChar = rest := by
  rw [List.dropWhile_append_of_pos hw]
  cases rest with
  | nil => rfl
  | cons c cs => simp [hr c rfl]

omit hr in
theorem colonWords_word : colonWords (w ++ rest) = colonWords rest := by
  induction w with
  | nil => rfl
  | cons c w ih =>
    simp only [List.mem_cons, forall_eq_or_imp] at hw
    have hc : c ≠ ':' := by
      rintro rfl
      exact absurd hw.1 (by decide)
    simp [colonWords, hc, ih hw.2]

theorem replaceColonWords_word (f : String → String) :
    replaceColonWords f true (w ++ rest) = replaceColonWords f false rest := by
  induction w with
  | nil =>
    cases rest with
    | nil => rfl
    | cons c cs => simp [replaceColonWords, hr c rfl]
  | cons c w ih =>
    simp only [List.mem_cons, forall_eq_or_imp] at hw
    simp [replaceColonWords, hw.1, ih hw.2]

end Word

end Text

namespace SqlToken

section Equations

variable {isBound : String → Bool}

theorem scan_nil (inLiteral : Bool) : scan isBound inLiteral [] = [] := by
  rw [scan]

theorem scan_literal (c : Char) (rest : List Char) :
    scan isBound true (c :: rest) = .char c :: scan isBound (c != '\'') rest := by
  rw [scan]
  rfl

theorem scan_quote (rest : List Char) :
    scan isBound false ('\'' :: rest) = .char '\'' :: scan isBound true rest := by
  rw [scan]
  rfl

theorem scan_cast (rest : List Char) :
    scan isBound false (':' :: ':' :: rest) = .char ':' :: .char ':' :: scan isBound false rest := by
  rw [scan]
  rfl

theorem scan_other {c : Char} (hquote : c ≠ '\'') (hcolon : c ≠ ':') (rest : List Char) :
    scan isBound false (c :: rest) = .char c :: scan isBound false rest := by
  rw [scan]
  simp [hquote, hcolon]

theorem scan_name {w rest : List Char} (hw : ∀ c ∈ w, Text.isWordChar c = true)
    (hr : ∀ c, rest.head? = some c → Text.isWordChar c = false)
    (hcast : (w ++ rest).head? ≠ some ':') :
    scan isBound false (':' :: (w ++ rest)) =
      (if isBound (String.ofList w) then [.reference (String.ofList w)]
        else (':' :: w).map .char) ++ scan isBound false rest := by
  rw [scan]
  simp only [Bool.false_eq_true, if_false, if_true, if_neg hcast,
    Text.takeWhile_word hw hr, Text.dropWhile_word hw hr]
  rfl

end Equations

theorem flatMap_spelling_chars (cs : List Char) : (cs.map SqlToken.char).flatMap spelling = cs := by
  simp [List.flatMap_map, spelling]

theorem flatMap_write_chars (f : String → String) (cs : List Char) :
    (cs.map SqlToken.char).flatMap (write f) = cs := by
  simp [List.flatMap_map, write]

theorem filterMap_name?_chars (cs : List Char) :
    (cs.map SqlToken.char).filterMap name? = [] := by
  simp [name?]

/-- Tokens that can be read back from their spelling: no colon and no quote stands outside of a
reference, and what follows a reference does not go on with its name. -/
inductive Readable (isBound : String → Bool) : List SqlToken → Prop
  | nil : Readable isBound []
  | char {c : Char} {ts : List SqlToken} :
    c ≠ ':' → c ≠ '\'' → Readable isBound ts → Readable isBound (.char c :: ts)
  | reference {name : String} {ts : List SqlToken} :
    isBound name = true → name ≠ "" → (∀ c ∈ name.toList, Text.isWordChar c = true) →
      (∀ c, (ts.flatMap spelling).head? = some c → Text.isWordChar c = false) →
        Readable isBound ts → Readable isBound (.reference name :: ts)

namespace Readable

variable {isBound : String → Bool} {ts : List SqlToken}

theorem text (h : Readable isBound ts) {cs : List Char} (hc : ∀ c ∈ cs, c ≠ ':' ∧ c ≠ '\'') :
    Readable isBound (cs.map .char ++ ts) := by
  induction cs with
  | nil => exact h
  | cons c cs ih =>
    simp only [List.mem_cons, forall_eq_or_imp] at hc
    exact .char hc.1.1 hc.1.2 (ih hc.2)

theorem scan_spelling (h : Readable isBound ts) :
    scan isBound false (ts.flatMap spelling) = ts := by
  induction h with
  | nil => exact scan_nil false
  | @char c ts hc hq _ ih =>
    rw [List.flatMap_cons, spelling, List.cons_append, List.nil_append, scan_other hq hc, ih]
  | @reference name ts hb hne hw hr _ ih =>
    have hhead : (name.toList ++ ts.flatMap spelling).head? ≠ some ':' := by
      obtain ⟨c, cs, he⟩ := List.exists_cons_of_ne_nil (by simpa using hne : name.toList ≠ [])
      intro hcolon
      simp only [he, List.cons_append, List.head?_cons, Option.some.injEq] at hcolon
      have := hw c (by simp [he])
      rw [hcolon] at this
      cases this
    rw [List.flatMap_cons, spelling, List.cons_append, scan_name hw hr hhead, ih]
    simp [hb]

theorem colonWords_spelling (h : Readable isBound ts) :
    Text.colonWords (ts.flatMap spelling) = ts.filterMap name? := by
  induction h with
  | nil => rfl
  | char hc _ _ ih => simp [spelling, Text.colonWords, hc, ih, List.filterMap_cons, name?]
  | reference _ _ hw hr _ ih =>
    simp [spelling, Text.colonWords, Text.takeWhile_word hw hr, Text.colonWords_word hw, ih, name?]

theorem replaceColonWords_spelling (h : Readable isBound ts) (f : String → String) :
    Text.replaceColonWords f false (ts.flatMap spelling) = ts.flatMap (write f) := by
  induction h with
  | nil => rfl
  | char hc _ _ ih => simp [spelling, Text.replaceColonWords, hc, ih, write]
  | reference _ _ hw hr _ ih =>
    simp [spelling, Text.replaceColonWords, Text.takeWhile_word hw hr,
      Text.replaceColonWords_word hw hr, ih, write]

theorem colon_not_mem_write (h : Readable isBound ts) {f : String → String}
    (hf : ∀ name ∈ ts.filterMap name?, ':' ∉ (f name).toList) : ':' ∉ ts.flatMap (write f) := by
  induction h with
  | nil => simp
  | char hc _ _ ih => simpa [write, name?, hc.symm] using ih (by simpa [name?] using hf)
  | reference _ _ _ _ _ ih =>
    simp only [List.filterMap_cons, name?, List.mem_cons, forall_eq_or_imp] at hf
    simpa [write, hf.1] using ih hf.2

end Readable

theorem write_congr {ts : List SqlToken} {f g : String → String}
    (h : ∀ name ∈ ts.filterMap name?, f name = g name) :
    ts.flatMap (write f) = ts.flatMap (write g) := by
  induction ts with
  | nil => rfl
  | cons t ts ih =>
    cases t with
    | char c => simpa [write] using ih (by simpa [name?] using h)
    | reference name =>
      simp only [List.filterMap_cons, name?, List.mem_cons, forall_eq_or_imp] at h
      simp [write, h.1, ih h.2]

theorem count_write_question {ts : List SqlToken} (h : ∀ c, .char c ∈ ts → c ≠ '?') :
    (ts.flatMap (write fun _ => "?")).count '?' = (ts.filterMap name?).length := by
  induction ts with
  | nil => rfl
  | cons t ts ih =>
    have := ih fun c hc => h c (List.mem_cons_of_mem t hc)
    cases t with
    | char c =>
      have hc : c ≠ '?' := h c List.mem_cons_self
      simp [write, List.filterMap_cons, name?, hc, this]
    | reference name => simp [write, name?, this]

end SqlToken

end SqlFilter
