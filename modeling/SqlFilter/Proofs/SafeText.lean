import SqlFilter.Proofs.Except
import SqlFilter.Proofs.Separator
import SqlFilter.Schema

/-!
This module contains texts that only hold what a filter without raw texts is written with: a few
characters, minus signs in front of digits, and quoted words. Identifiers, numbers and the clauses
of a select are such texts.
-/

namespace SqlFilter

namespace Text

def isPlain (c : Char) : Bool :=
  isWordChar c || [' ', '.', ',', '(', ')', '=', '<', '>', '*'].contains c

def isFlat (c : Char) : Bool :=
  isPlain c && c != '(' && c != ')'

def isNameChar (c : Char) : Bool :=
  isWordChar c || c == '.'

theorem isPlain_of_isFlat {c : Char} (h : isFlat c = true) : isPlain c = true := by
  simp only [isFlat, Bool.and_eq_true] at h
  exact h.1.1

theorem isFlat_of_isNameChar {c : Char} (h : isNameChar c = true) : isFlat c = true := by
  simp only [isNameChar, Bool.or_eq_true, beq_iff_eq] at h
  rcases h with h | rfl
  . have hopen : c ≠ '(' := by
      rintro rfl
      cases h
    have hclose : c ≠ ')' := by
      rintro rfl
      cases h
    simp [isFlat, isPlain, h, hopen, hclose]
  . rfl

theorem isFlat_of_isWordChar {c : Char} (h : isWordChar c = true) : isFlat c = true :=
  isFlat_of_isNameChar (by simp [isNameChar, h])

theorem isPlain_of_isWordChar {c : Char} (h : isWordChar c = true) : isPlain c = true := by
  simp [isPlain, h]

theorem isWordChar_of_isDigit {c : Char} (h : c.isDigit = true) : isWordChar c = true := by
  unfold isWordChar Char.isAlphanum
  rw [h, Bool.or_true, Bool.true_or]

theorem toNat_of_isWordChar {c : Char} (h : isWordChar c = true) :
    48 ≤ c.toNat ∧ c.toNat ≤ 57 ∨ 65 ≤ c.toNat ∧ c.toNat ≤ 90 ∨ c.toNat = 95 ∨
      97 ≤ c.toNat ∧ c.toNat ≤ 122 := by
  unfold isWordChar at h
  delta Char.isAlphanum Char.isAlpha Char.isUpper Char.isLower Char.isDigit at h
  simp only [Bool.or_eq_true, Bool.and_eq_true, decide_eq_true_eq, beq_iff_eq,
    UInt32.le_iff_toNat_le, ge_iff_le] at h
  have hA : 'A'.val.toNat = 65 := rfl
  have hZ : 'Z'.val.toNat = 90 := rfl
  have ha : 'a'.val.toNat = 97 := rfl
  have hz : 'z'.val.toNat = 122 := rfl
  have h0 : '0'.val.toNat = 48 := rfl
  have h9 : '9'.val.toNat = 57 := rfl
  have hn : c.toNat = c.val.toNat := rfl
  rcases h with h | rfl
  . omega
  . decide

theorem isBlank_of_isWordChar {c : Char} (h : isWordChar c = true) : isBlank c = false := by
  have hcode := toNat_of_isWordChar h
  simp only [isBlank, Bool.or_eq_false_iff, Bool.and_eq_false_iff, beq_eq_false_iff_ne,
    decide_eq_false_iff_not]
  omega

theorem skipBlanks_of_head? {c : Char} {cs : List Char} (hc : cs.head? = some c)
    (hb : isBlank c = false) : skipBlanks cs = cs := by
  obtain ⟨ds, rfl⟩ := List.head?_eq_some_iff.1 hc
  simp [skipBlanks, hb]

theorem trimChars_eq_self {c d : Char} {cs : List Char} (hc : cs.head? = some c)
    (hcb : isBlank c = false) (hd : cs.getLast? = some d) (hdb : isBlank d = false) :
    trimChars cs = cs := by
  unfold trimChars
  rw [skipBlanks_of_head? hc hcb]
  rw [skipBlanks_of_head? (by rw [List.head?_reverse, hd]) hdb]
  simp

end Text

theorem Decimal.isWordChar_natText (n : Nat) :
    ∀ c ∈ (natText n).toList, Text.isWordChar c = true := by
  intro c hc
  rw [toList_natText] at hc
  apply Text.isWordChar_of_isDigit
  exact Nat.isDigit_of_mem_toDigits (by omega) (by omega) hc

inductive SafeText (allowed : Char → Bool) (q : Char) : List Char → Prop
  | nil : SafeText allowed q []
  | char {c cs} : allowed c = true → SafeText allowed q cs → SafeText allowed q (c :: cs)
  | minus {d cs} :
    d.isDigit = true → SafeText allowed q (d :: cs) → SafeText allowed q ('-' :: d :: cs)
  | quoted {w cs} :
    w ≠ [] → (∀ c ∈ w, Text.isWordChar c = true) → SafeText allowed q cs →
      SafeText allowed q (q :: w ++ q :: cs)

namespace SafeText

variable {allowed : Char → Bool} {q : Char}

theorem append {cs ds : List Char} (hc : SafeText allowed q cs) (hd : SafeText allowed q ds) :
    SafeText allowed q (cs ++ ds) := by
  induction hc with
  | nil => exact hd
  | char ha _ ih => exact .char ha ih
  | minus hdigit _ ih => exact .minus hdigit ih
  | quoted hne hw _ ih =>
    rw [List.append_assoc]
    exact .quoted hne hw ih

theorem of_forall {cs : List Char} (h : ∀ c ∈ cs, allowed c = true) : SafeText allowed q cs := by
  induction cs with
  | nil => exact .nil
  | cons c cs ih =>
    simp only [List.mem_cons, forall_eq_or_imp] at h
    exact .char h.1 (ih h.2)

theorem of_all {cs : List Char} (h : cs.all allowed = true) : SafeText allowed q cs :=
  of_forall (List.all_eq_true.1 h)

theorem mono {allowed' : Char → Bool} (ha : ∀ c, allowed c = true → allowed' c = true)
    {cs : List Char} (h : SafeText allowed q cs) : SafeText allowed' q cs := by
  induction h with
  | nil => exact .nil
  | char hc _ ih => exact .char (ha _ hc) ih
  | minus hd _ ih => exact .minus hd ih
  | quoted hne hw _ ih => exact .quoted hne hw ih

theorem mem {cs : List Char} (h : SafeText allowed q cs) {c : Char} (hc : c ∈ cs) :
    allowed c = true ∨ c = '-' ∨ c = q ∨ Text.isWordChar c = true := by
  induction h with
  | nil => cases hc
  | char ha _ ih =>
    cases List.mem_cons.1 hc with
    | inl he => exact .inl (he ▸ ha)
    | inr hm => exact ih hm
  | minus _ _ ih =>
    cases List.mem_cons.1 hc with
    | inl he => exact .inr (.inl he)
    | inr hm => exact ih hm
  | quoted _ hw _ ih =>
    simp only [List.cons_append, List.mem_cons, List.mem_append] at hc
    rcases hc with rfl | hm | rfl | hm
    . exact .inr (.inr (.inl rfl))
    . exact .inr (.inr (.inr (hw c hm)))
    . exact .inr (.inr (.inl rfl))
    . exact ih hm

theorem intercalate {separator : String} {l : List String}
    (hs : SafeText allowed q separator.toList) (h : ∀ s ∈ l, SafeText allowed q s.toList) :
    SafeText allowed q (separator.intercalate l).toList := by
  induction l with
  | nil => exact .nil
  | cons s l ih =>
    simp only [List.mem_cons, forall_eq_or_imp] at h
    cases l with
    | nil => simpa using h.1
    | cons t l =>
      rw [String.intercalate_cons_cons, String.toList_append, String.toList_append]
      exact (h.1.append hs).append (ih h.2)

theorem natText (ha : ∀ c, Text.isWordChar c = true → allowed c = true) (n : Nat) :
    SafeText allowed q (Decimal.natText n).toList := by
  apply of_forall
  intro c hc
  apply ha
  exact Decimal.isWordChar_natText n c hc

theorem intText (ha : ∀ c, Text.isWordChar c = true → allowed c = true) (n : Int) :
    SafeText allowed q (Decimal.intText n).toList := by
  unfold Decimal.intText
  split
  . obtain ⟨d, ds, he⟩ := List.exists_cons_of_ne_nil (Nat.toDigits_ne_nil (n := n.natAbs) (b := 10))
    have hd : d.isDigit = true := by
      apply Nat.isDigit_of_mem_toDigits (b := 10) (n := n.natAbs) (by omega) (by omega)
      rw [he]
      apply List.mem_cons_self
    have hs := natText (q := q) ha n.natAbs
    rw [Decimal.toList_natText, he] at hs
    rw [String.toList_append, Decimal.toList_natText, he]
    exact .minus hd hs
  . exact natText ha n.natAbs

end SafeText

end SqlFilter
