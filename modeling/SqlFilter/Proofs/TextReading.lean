import Mathlib.Data.List.TakeWhile
import SqlFilter.Proofs.Reference

/-!
This module contains the reading of arbitrary texts: the tokens of a text spell it again, and their
references stand at the positions where a reference begins. `SqlToken.scan_induction` is the
induction that all of this goes by.
-/

namespace SqlFilter

namespace Text

def endingColons (cs : List Char) : Nat :=
  (cs.reverse.takeWhile (· == ':')).length

theorem endingColons_append_of_ne {c : Char} (hc : c ≠ ':') (cs : List Char) :
    endingColons (cs ++ [c]) = 0 := by
  simp [endingColons, hc]

theorem endingColons_append_colon (cs : List Char) :
    endingColons (cs ++ [':']) = endingColons cs + 1 := by
  simp [endingColons]

theorem endingColons_append_word {w : List Char} (hne : w ≠ [])
    (hw : ∀ c ∈ w, isWordChar c = true) (cs : List Char) : endingColons (cs ++ w) = 0 := by
  rw [← List.dropLast_concat_getLast hne, ← List.append_assoc]
  apply endingColons_append_of_ne
  intro hc
  have := hw _ (List.getLast_mem hne)
  rw [hc] at this
  cases this

end Text

namespace SqlToken

variable {isBound : String → Bool}

/-- Induction along a scan: a literal goes up to its second quote, a cast has two colons, and any
other colon is followed by the longest word. -/
@[elab_as_elim]
theorem scan_induction {P : Bool → List Char → Prop} (nil : ∀ inLiteral, P inLiteral [])
    (literal : ∀ c rest, P (c != '\'') rest → P true (c :: rest))
    (quote : ∀ rest, P true rest → P false ('\'' :: rest))
    (cast : ∀ rest, P false rest → P false (':' :: ':' :: rest))
    (name : ∀ w rest, (∀ c ∈ w, Text.isWordChar c = true) →
      (∀ c, rest.head? = some c → Text.isWordChar c = false) → (w ++ rest).head? ≠ some ':' →
        P false rest → P false (':' :: (w ++ rest)))
    (other : ∀ c rest, c ≠ '\'' → c ≠ ':' → P false rest → P false (c :: rest))
    (inLiteral : Bool) (cs : List Char) : P inLiteral cs := by
  induction inLiteral, cs using scan.induct with
  | case1 inLiteral => exact nil inLiteral
  | case2 c rest ih => exact literal c rest ih
  | case3 inLiteral rest hout ih =>
    rw [Bool.eq_false_iff.2 hout]
    exact quote rest ih
  | case4 inLiteral rest hout hcast _ ih =>
    obtain ⟨rest, rfl⟩ := List.head?_eq_some_iff.1 hcast
    rw [Bool.eq_false_iff.2 hout]
    exact cast rest ih
  | case5 inLiteral rest hout hcast _ ih =>
    rw [Bool.eq_false_iff.2 hout]
    have hsplit := List.takeWhile_append_dropWhile (p := Text.isWordChar) (l := rest)
    rw [← hsplit]
    apply name
    . exact fun c hc => List.mem_takeWhile_imp hc
    . intro c hc
      have := List.head?_dropWhile_not Text.isWordChar rest
      simpa [hc] using this
    . rwa [hsplit]
    . exact ih
  | case6 inLiteral c rest hout hquote hcolon ih =>
    rw [Bool.eq_false_iff.2 hout]
    exact other c rest hquote hcolon ih

/-- The name of the reference that begins at a position of a text, if one begins there: a colon
outside of literals that is not part of a cast, and behind it the longest word, which has to be
bound. -/
def referenceAt? (isBound : String → Bool) (text : List Char) (position : Nat) : Option String :=
  let before := text.take position
  match text.drop position with
  | ':' :: after =>
    let name := String.ofList (after.takeWhile Text.isWordChar)
    -- each quote opens or closes a literal; colons in a row are taken two by two
    if before.count '\'' % 2 = 0 ∧ Text.endingColons before % 2 = 0 ∧ after.head? ≠ some ':' ∧
        isBound name = true then some name
    else none
  | _ => none

def placed : Nat → List SqlToken → List (Nat × String)
  | _, [] => []
  | position, .char _ :: tokens => placed (position + 1) tokens
  | position, .reference name :: tokens =>
    (position, name) :: placed (position + (name.toList.length + 1)) tokens

def referencesBehind (isBound : String → Bool) (before cs : List Char) : List (Nat × String) :=
  (List.range' before.length cs.length).filterMap fun position =>
    (referenceAt? isBound (before ++ cs) position).map (position, ·)

theorem referenceAt?_colon (before after : List Char) :
    referenceAt? isBound (before ++ ':' :: after) before.length =
      if before.count '\'' % 2 = 0 ∧ Text.endingColons before % 2 = 0 ∧ after.head? ≠ some ':' ∧
          isBound (String.ofList (after.takeWhile Text.isWordChar)) = true then
        some (String.ofList (after.takeWhile Text.isWordChar))
      else none := by
  unfold referenceAt?
  rw [List.take_left, List.drop_left]
  rfl

theorem referenceAt?_of_ne (before : List Char) {c : Char} (hc : c ≠ ':') (cs : List Char) :
    referenceAt? isBound (before ++ c :: cs) before.length = none := by
  unfold referenceAt?
  rw [List.drop_left]
  split
  . next h =>
    cases h
    exact absurd rfl hc
  . rfl

theorem referencesBehind_cons (before : List Char) (c : Char) (cs : List Char) :
    referencesBehind isBound before (c :: cs) =
      ((referenceAt? isBound (before ++ c :: cs) before.length).map (before.length, ·)).toList ++
        referencesBehind isBound (before ++ [c]) cs := by
  unfold referencesBehind
  rw [List.length_cons, List.range'_succ, List.filterMap_cons]
  rw [List.length_append, List.append_assoc]
  cases referenceAt? isBound (before ++ c :: cs) before.length <;> rfl

theorem referencesBehind_of_ne (before : List Char) {c : Char} (hc : c ≠ ':') (cs : List Char) :
    referencesBehind isBound before (c :: cs) = referencesBehind isBound (before ++ [c]) cs := by
  rw [referencesBehind_cons, referenceAt?_of_ne before hc]
  rfl

theorem referencesBehind_append (before : List Char) {cs : List Char} (hc : ':' ∉ cs)
    (rest : List Char) : referencesBehind isBound before (cs ++ rest) =
      referencesBehind isBound (before ++ cs) rest := by
  induction cs generalizing before with
  | nil => simp
  | cons c cs ih =>
    simp only [List.mem_cons, not_or] at hc
    rw [List.cons_append, referencesBehind_of_ne _ (Ne.symm hc.1), ih _ hc.2]
    simp

theorem referencesBehind_colon (before : List Char) {cs : List Char}
    (h : before.count '\'' % 2 = 1 ∨ Text.endingColons before % 2 = 1 ∨ cs.head? = some ':') :
    referencesBehind isBound before (':' :: cs) = referencesBehind isBound (before ++ [':']) cs := by
  rw [referencesBehind_cons, referenceAt?_colon, if_neg (by grind)]
  rfl

theorem referencesBehind_name {before w rest : List Char}
    (hw : ∀ c ∈ w, Text.isWordChar c = true)
    (hr : ∀ c, rest.head? = some c → Text.isWordChar c = false)
    (hcast : (w ++ rest).head? ≠ some ':') (hquotes : before.count '\'' % 2 = 0)
    (hcolons : Text.endingColons before % 2 = 0) :
    referencesBehind isBound before (':' :: (w ++ rest)) =
      (if isBound (String.ofList w) = true then [(before.length, String.ofList w)] else []) ++
        referencesBehind isBound (before ++ ':' :: w) rest := by
  have hcolon : ':' ∉ w := fun hm => absurd (hw ':' hm) (by decide)
  rw [referencesBehind_cons, referenceAt?_colon, referencesBehind_append _ hcolon]
  rw [Text.takeWhile_word hw hr, List.append_assoc]
  simp only [hquotes, hcolons, hcast, true_and, ne_eq, not_false_eq_true]
  split <;> rfl

theorem placed_chars (position : Nat) (cs : List Char) (tokens : List SqlToken) :
    placed position (cs.map .char ++ tokens) = placed (position + cs.length) tokens := by
  induction cs generalizing position with
  | nil => rfl
  | cons c cs ih =>
    rw [List.map_cons, List.cons_append, placed, ih, List.length_cons]
    congr 1
    omega

theorem spelling_scan (inLiteral : Bool) (cs : List Char) :
    (scan isBound inLiteral cs).flatMap spelling = cs := by
  induction inLiteral, cs using scan_induction with
  | nil => simp [scan_nil]
  | literal c rest ih => simp [scan_literal, spelling, ih]
  | quote rest ih => simp [scan_quote, spelling, ih]
  | cast rest ih => simp [scan_cast, spelling, ih]
  | name w rest hw hr hcast ih =>
    rw [scan_name hw hr hcast, List.flatMap_append, ih]
    split
    . simp [spelling]
    . rw [flatMap_spelling_chars]
      rfl
  | other c rest hquote hcolon ih => simp [scan_other hquote hcolon, spelling, ih]

structure Reached (inLiteral : Bool) (before cs : List Char) : Prop where
  quotes : before.count '\'' % 2 = inLiteral.toNat
  colons : inLiteral = false → cs.head? = some ':' → Text.endingColons before % 2 = 0

namespace Reached

variable {before rest : List Char}

theorem literal {c : Char} (h : Reached true before (c :: rest)) :
    Reached (c != '\'') (before ++ [c]) rest := by
  have hquotes : before.count '\'' % 2 = 1 := h.quotes
  constructor
  . by_cases hc : c = '\''
    . simp only [hc, List.count_append, List.count_singleton_self, bne_self_eq_false,
        Bool.toNat_false]
      omega
    . simpa [hc, bne_iff_ne.2 hc, List.count_append] using hquotes
  . intro hc _
    have hc : c = '\'' := by simpa using hc
    rw [Text.endingColons_append_of_ne (by simp [hc])]

theorem quote (h : Reached false before ('\'' :: rest)) :
    Reached true (before ++ ['\'']) rest := by
  have hquotes : before.count '\'' % 2 = 0 := h.quotes
  constructor
  . simp only [List.count_append, List.count_singleton_self, Bool.toNat_true]
    omega
  . rintro ⟨⟩

theorem cast (h : Reached false before (':' :: ':' :: rest)) :
    Reached false (before ++ [':'] ++ [':']) rest := by
  have hcolons := h.colons rfl rfl
  constructor
  . simpa [List.count_append] using h.quotes
  . intro _ _
    rw [Text.endingColons_append_colon, Text.endingColons_append_colon]
    omega

theorem name {w : List Char} (h : Reached false before (':' :: (w ++ rest)))
    (hw : ∀ c ∈ w, Text.isWordChar c = true) (hcast : (w ++ rest).head? ≠ some ':') :
    Reached false (before ++ ':' :: w) rest := by
  have hquote : '\'' ∉ w := fun hm => absurd (hw '\'' hm) (by decide)
  constructor
  . simpa [List.count_append, List.count_eq_zero.2 hquote] using h.quotes
  . intro _ hnext
    by_cases hempty : w = []
    . -- without a word the colon is followed by what is next
      rw [hempty] at hcast
      exact absurd hnext hcast
    . rw [List.append_cons, Text.endingColons_append_word hempty hw]

theorem other {c : Char} (hquote : c ≠ '\'') (hcolon : c ≠ ':')
    (h : Reached false before (c :: rest)) : Reached false (before ++ [c]) rest := by
  constructor
  . simpa [hquote, List.count_append] using h.quotes
  . intro _ _
    rw [Text.endingColons_append_of_ne hcolon]

end Reached

theorem placed_scan {inLiteral : Bool} {before cs : List Char} (h : Reached inLiteral before cs) :
    placed before.length (scan isBound inLiteral cs) = referencesBehind isBound before cs := by
  have length_snoc (before : List Char) (c : Char) :
      before.length + 1 = (before ++ [c]).length := by
    simp
  induction inLiteral, cs using scan_induction generalizing before with
  | nil =>
    rw [scan_nil]
    rfl
  | literal c rest ih =>
    rw [scan_literal, placed, length_snoc before c, ih h.literal]
    by_cases hc : c = ':'
    . subst hc
      exact (referencesBehind_colon before (.inl h.quotes)).symm
    . exact (referencesBehind_of_ne before hc rest).symm
  | quote rest ih =>
    rw [scan_quote, placed, length_snoc before '\'', ih h.quote]
    exact (referencesBehind_of_ne before (by decide) rest).symm
  | cast rest ih =>
    have hcolons := h.colons rfl rfl
    rw [scan_cast, placed, placed, length_snoc before ':', length_snoc _ ':', ih h.cast]
    rw [referencesBehind_colon before (.inr (.inr rfl))]
    rw [referencesBehind_colon _ (.inr (.inl (by rw [Text.endingColons_append_colon]; omega)))]
  | name w rest hw hr hcast ih =>
    rw [scan_name hw hr hcast, referencesBehind_name hw hr hcast h.quotes (h.colons rfl rfl),
      ← ih (h.name hw hcast)]
    split
    . simp [placed]
    . rw [placed_chars]
      simp
  | other c rest hquote hcolon ih =>
    rw [scan_other hquote hcolon, placed, length_snoc before c, ih (h.other hquote hcolon)]
    exact (referencesBehind_of_ne before hcolon rest).symm

theorem isBound_of_mem_scan {inLiteral : Bool} {cs : List Char} :
    ∀ name ∈ (scan isBound inLiteral cs).filterMap name?, isBound name = true := by
  induction inLiteral, cs using scan_induction with
  | nil => simp [scan_nil]
  | literal c rest ih => simpa [scan_literal, List.filterMap_cons, name?] using ih
  | quote rest ih => simpa [scan_quote, List.filterMap_cons, name?] using ih
  | cast rest ih => simpa [scan_cast, List.filterMap_cons, name?] using ih
  | name w rest hw hr hcast ih =>
    intro name hn
    rw [scan_name hw hr hcast, List.filterMap_append, List.mem_append] at hn
    cases hn with
    | inl hn =>
      split at hn
      . next hb =>
        have : name = String.ofList w := by simpa [name?] using hn
        rw [this, hb]
      . rw [filterMap_name?_chars] at hn
        cases hn
    | inr hn => exact ih name hn
  | other c rest hquote hcolon ih =>
    simpa [scan_other hquote hcolon, List.filterMap_cons, name?] using ih

inductive Separated : List SqlToken → Prop
  | nil : Separated []
  | char {c : Char} {tokens : List SqlToken} : Separated tokens → Separated (.char c :: tokens)
  | reference {name : String} {tokens : List SqlToken} :
    (∀ c, tokens.head? = some (.char c) → Text.isWordChar c = false) → Separated tokens →
      Separated (.reference name :: tokens)

theorem Separated.chars {tokens : List SqlToken} (h : Separated tokens) (cs : List Char) :
    Separated (cs.map .char ++ tokens) := by
  induction cs with
  | nil => exact h
  | cons c cs ih => exact .char ih

theorem head?_scan {inLiteral : Bool} {cs : List Char} {c : Char}
    (h : (scan isBound inLiteral cs).head? = some (.char c)) : cs.head? = some c := by
  have hspelling : ((scan isBound inLiteral cs).flatMap spelling).head? = cs.head? :=
    congrArg List.head? (spelling_scan inLiteral cs)
  obtain ⟨tokens, ht⟩ := List.head?_eq_some_iff.1 h
  rw [ht] at hspelling
  exact hspelling.symm

theorem separated_scan (inLiteral : Bool) (cs : List Char) :
    Separated (scan isBound inLiteral cs) := by
  induction inLiteral, cs using scan_induction with
  | nil =>
    rw [scan_nil]
    exact .nil
  | literal c rest ih =>
    rw [scan_literal]
    exact .char ih
  | quote rest ih =>
    rw [scan_quote]
    exact .char ih
  | cast rest ih =>
    rw [scan_cast]
    exact .char (.char ih)
  | name w rest hw hr hcast ih =>
    rw [scan_name hw hr hcast]
    split
    . exact .reference (fun c hc => hr c (head?_scan hc)) ih
    . exact ih.chars _
  | other c rest hquote hcolon ih =>
    rw [scan_other hquote hcolon]
    exact .char ih

end SqlToken

end SqlFilter
