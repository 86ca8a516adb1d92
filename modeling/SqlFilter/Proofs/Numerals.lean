import Mathlib.Data.String.Basic
import SqlFilter.Decimal.Digits
import SqlFilter.Text.Ascii

/-!
This module contains runs of digits: what they read as, and that numbers which are filled up with
zeros to one width are ordered as texts like the numbers are.
-/

namespace SqlFilter

theorem Text.takeWhile_digits {ds rest : List Char} (hd : ∀ c ∈ ds, c.isDigit = true)
    (hr : ∀ c, rest.head? = some c → c.isDigit = false) :
    (ds ++ rest).takeWhile Char.isDigit = ds := by
  rw [List.takeWhile_append_of_pos hd]
  cases rest with
  | nil => simp
  | cons c cs => simp [hr c rfl]

namespace Decimal

variable {width m n : Nat} {ds es : List Char}

theorem digitsValue_toDigits (n : Nat) : digitsValue 0 (Nat.toDigits 10 n) = n := by
  exact Nat.ofDigitChars_toDigits (by omega) (by omega)

theorem natText_one : natText 1 = "1" := by decide +kernel

theorem natText_two : natText 2 = "2" := by decide +kernel

theorem digitsValue_zeros (count : Nat) (ds : List Char) :
    digitsValue 0 (List.replicate count '0' ++ ds) = digitsValue 0 ds := by
  induction count with
  | zero => rfl
  | succ count ih => exact ih

theorem toList_padded (width n : Nat) : (padded width n).toList =
    List.replicate (width - (Nat.toDigits 10 n).length) '0' ++ Nat.toDigits 10 n := by
  simp [padded]

theorem digitsValue_padded (width n : Nat) : digitsValue 0 (padded width n).toList = n := by
  rw [toList_padded, digitsValue_zeros, digitsValue_toDigits]

theorem isDigit_of_mem_padded : ∀ c ∈ (padded width n).toList, c.isDigit = true := by
  intro c hc
  rw [toList_padded, List.mem_append] at hc
  rcases hc with hc | hc
  . rw [List.eq_of_mem_replicate hc]
    decide
  . exact Nat.isDigit_of_mem_toDigits (by omega) (by omega) hc

theorem length_padded (hw : 0 < width) (h : n < 10 ^ width) :
    (padded width n).toList.length = width := by
  have := (Nat.length_toDigits_le_iff (by omega) hw).2 h
  rw [toList_padded, List.length_append, List.length_replicate]
  omega

theorem padded_ne_nil (width n : Nat) : (padded width n).toList ≠ [] := by
  rw [toList_padded]
  exact List.append_ne_nil_of_right_ne_nil _ Nat.toDigits_ne_nil

theorem toNat_of_isDigit {c : Char} (h : c.isDigit = true) : 48 ≤ c.toNat ∧ c.toNat ≤ 57 := by
  simp only [Char.isDigit, Bool.and_eq_true, decide_eq_true_eq] at h
  exact h

theorem digitsValue_lt_iff (hl : ds.length = es.length) (hd : ∀ c ∈ ds, c.isDigit = true)
    (he : ∀ c ∈ es, c.isDigit = true) :
    digitsValue m ds < digitsValue n es ↔ m < n ∨ m = n ∧ ds < es := by
  induction ds generalizing es m n with
  | nil =>
    cases es with
    | nil => simp [digitsValue]
    | cons e es => cases hl
  | cons d ds ih =>
    cases es with
    | nil => cases hl
    | cons e es =>
      simp only [List.mem_cons, forall_eq_or_imp] at hd he
      have hd' := toNat_of_isDigit hd.1
      have he' := toNat_of_isDigit he.1
      have h0 : '0'.toNat = 48 := rfl
      have hlt : d < e ↔ d.toNat < e.toNat := Iff.rfl
      have heq : d = e ↔ d.toNat = e.toNat := Char.toNat_inj.symm
      have hrest := ih (m := 10 * m + (d.toNat - '0'.toNat)) (n := 10 * n + (e.toNat - '0'.toNat))
        (Nat.succ_inj.1 hl) hd.2 he.2
      change digitsValue _ ds < digitsValue _ es ↔ _
      rw [hrest, List.cons_lt_cons_iff, hlt, heq]
      by_cases hds : ds < es <;> simp only [hds, and_true, and_false, or_false] <;> omega

theorem padded_lt_iff (hw : 0 < width) (hm : m < 10 ^ width) (hn : n < 10 ^ width) :
    (padded width m).toList < (padded width n).toList ↔ m < n := by
  have hl := (length_padded hw hm).trans (length_padded hw hn).symm
  have h := digitsValue_lt_iff (m := 0) (n := 0) hl isDigit_of_mem_padded isDigit_of_mem_padded
  rw [digitsValue_padded, digitsValue_padded] at h
  simpa using h.symm

theorem padded_inj (width : Nat) : (padded width m).toList = (padded width n).toList ↔ m = n := by
  refine ⟨fun h => ?_, fun h => h ▸ rfl⟩
  rw [← digitsValue_padded width m, h, digitsValue_padded]

end Decimal

end SqlFilter
