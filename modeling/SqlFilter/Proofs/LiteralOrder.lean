import SqlFilter.Proofs.TemporalLiteral

/-!
This module contains the proof that the date literals of the years from 0 to 9999 are ordered as texts
like the instants or the days that they stand for. Each part of a literal has one width, so that the
first part which differs decides.
-/

namespace SqlFilter

open Decimal

section Lex

variable {α : Type} [LinearOrder α] {as bs cs ds : List α}

theorem append_lt_append_iff (h : as.length = cs.length) :
    as ++ bs < cs ++ ds ↔ as < cs ∨ as = cs ∧ bs < ds := by
  induction as generalizing cs with
  | nil =>
    cases cs with
    | nil => simp
    | cons c cs => cases h
  | cons a as ih =>
    cases cs with
    | nil => cases h
    | cons c cs =>
      rw [List.cons_append, List.cons_append, List.cons_lt_cons_iff, List.cons_lt_cons_iff,
        ih (Nat.succ_inj.1 h), List.cons.injEq]
      simp only [and_or_left, or_assoc, and_assoc]

end Lex

theorem Decimal.padded_append_lt_iff {width m n : Nat} {as bs : List Char} (hw : 0 < width)
    (hm : m < 10 ^ width) (hn : n < 10 ^ width) :
    (padded width m).toList ++ as < (padded width n).toList ++ bs ↔ m < n ∨ m = n ∧ as < bs := by
  rw [append_lt_append_iff ((length_padded hw hm).trans (length_padded hw hn).symm),
    padded_lt_iff hw hm hn, padded_inj]

namespace Date

variable {d d' : Date} {as bs : List Char}

theorem text_append_lt_iff (h : 0 ≤ d.year ∧ d.year ≤ 9999) (h' : 0 ≤ d'.year ∧ d'.year ≤ 9999) :
    d.text.toList ++ as < d'.text.toList ++ bs ↔ d.Before d' ∨ d = d' ∧ as < bs := by
  have hyear : d.year.toNat < d'.year.toNat ↔ d.year < d'.year := by omega
  have hyear' : d.year.toNat = d'.year.toNat ↔ d.year = d'.year := by omega
  rw [toList_text_append, toList_text_append, yearText, if_pos h, yearText, if_pos h',
    padded_append_lt_iff (by omega) (by omega) (by omega), List.cons_lt_cons_self,
    padded_append_lt_iff Nat.two_pos d.month_lt d'.month_lt, List.cons_lt_cons_self,
    padded_append_lt_iff Nat.two_pos d.day_lt d'.day_lt, hyear, hyear', Before]
  obtain ⟨year, month, day, _, _, _⟩ := d
  obtain ⟨year', month', day', _, _, _⟩ := d'
  simp only [mk.injEq, and_or_left, or_assoc, and_assoc]

theorem text_lt_iff (h : 0 ≤ d.year ∧ d.year ≤ 9999) (h' : 0 ≤ d'.year ∧ d'.year ≤ 9999) :
    d.text.toList < d'.text.toList ↔ d.Before d' := by
  have happend : d.text.toList ++ [] < d'.text.toList ++ [] ↔ _ := text_append_lt_iff h h'
  simpa using happend

end Date

namespace Timestamp

variable {t u : Timestamp} {seconds seconds' : Int}

theorem clockText_lt_iff (t u : Timestamp) : t.clockText.toList < u.clockText.toList ↔
    t.minuteOfDay.val < u.minuteOfDay.val ∨
      t.minuteOfDay.val = u.minuteOfDay.val ∧ t.second.val < u.second.val := by
  have hhour (t : Timestamp) : t.minuteOfDay.val / 60 < 10 ^ 2 := by omega
  have hminute (t : Timestamp) : t.minuteOfDay.val % 60 < 10 ^ 2 := by omega
  have hsecond (t : Timestamp) : t.second.val < 10 ^ 2 := by omega
  rw [toList_clockText, toList_clockText,
    padded_append_lt_iff Nat.two_pos (hhour t) (hhour u), List.cons_lt_cons_self,
    padded_append_lt_iff Nat.two_pos (hminute t) (hminute u), List.cons_lt_cons_self,
    padded_append_lt_iff Nat.two_pos (hsecond t) (hsecond u)]
  simp only [lt_self_iff_false, and_false, or_false]
  omega

def InYears (seconds : Int) : Prop :=
  firstOfYears ≤ seconds ∧ seconds ≤ lastOfYears
deriving Decidable

theorem IsInstant.inYears_iff (h : t.IsInstant seconds) :
    InYears seconds ↔ 0 ≤ t.date.year ∧ t.date.year ≤ 9999 := by
  have := h.year_neg_iff
  have := h.year_gt_iff
  unfold InYears
  omega

theorem InYears.minUnixSeconds_le (h : InYears seconds) : minUnixSeconds ≤ seconds :=
  Int.le_trans (by decide) h.1

theorem InYears.le_maxUnixSeconds (h : InYears seconds) : seconds ≤ maxUnixSeconds :=
  Int.le_trans h.2 (by decide)

end Timestamp

namespace TemporalFamily

open Timestamp

def step : TemporalFamily → Int
  | .dateTime => 1
  | .date => 86400

variable {t u : Timestamp} {seconds seconds' : Int}

theorem literal_lt_of_neg (family : TemporalFamily) (ht : t.date.year < 0)
    (hu : 0 ≤ u.date.year ∧ u.date.year ≤ 9999) : family.literal t < family.literal u := by
  obtain ⟨rest, htext⟩ := family.toList_literal t
  obtain ⟨rest', htext'⟩ := family.toList_literal u
  obtain ⟨c, cs, hy, hc⟩ := Date.toList_yearText t.date.year
  obtain ⟨d, ds, hy', hd⟩ := Date.toList_yearText u.date.year
  have hminus : c = '-' := by
    rcases hc with ⟨hyear, _⟩ | ⟨_, he⟩ | ⟨hyear, _⟩
    . omega
    . exact he
    . omega
  have hdigit : d.isDigit = true := by
    rcases hd with ⟨_, he⟩ | ⟨hyear, _⟩ | ⟨hyear, _⟩
    . exact he
    . omega
    . omega
  rw [String.lt_iff_toList_lt, htext, htext', hy, hy', hminus]
  apply List.Lex.rel
  exact Nat.lt_of_lt_of_le (by decide) (toNat_of_isDigit hdigit).1

theorem literal_lt_iff_of_inYears (family : TemporalFamily) (ht : t.IsInstant seconds)
    (hu : u.IsInstant seconds') (hs : InYears seconds) (hs' : InYears seconds') :
    family.literal t < family.literal u ↔ seconds / family.step < seconds' / family.step := by
  have hyears := ht.inYears_iff.1 hs
  have hyears' := hu.inYears_iff.1 hs'
  have hdate : t.date.Before u.date ↔ seconds / 86400 < seconds' / 86400 := by
    rw [← Date.dayNumber_lt_iff, ht.dayNumber, hu.dayNumber]
  have hsame : t.date = u.date ↔ seconds / 86400 = seconds' / 86400 := by
    rw [← ht.dayNumber, ← hu.dayNumber]
    exact ⟨fun h => h ▸ rfl, fun h => Date.dayNumber_injective h⟩
  rw [String.lt_iff_toList_lt]
  cases family with
  | dateTime =>
    have hsecond := ht.second
    have hsecond' := hu.second
    have hseconds := ht.unixSeconds
    have hseconds' := hu.unixSeconds
    have hday := ht.dayNumber
    have hday' := hu.dayNumber
    unfold Timestamp.unixSeconds at hseconds hseconds'
    rw [literal, literal, t.toList_text, u.toList_text, Date.text_append_lt_iff hyears hyears',
      List.cons_lt_cons_self, clockText_lt_iff, hdate, hsame, step]
    omega
  | date =>
    rw [literal, literal, Date.text_lt_iff hyears hyears', hdate, step]

theorem literal_lt_iff (family : TemporalFamily) (ht : t.IsInstant seconds)
    (hu : u.IsInstant seconds') (hs : seconds ≤ lastOfYears) (hs' : InYears seconds') :
    family.literal t < family.literal u ↔ seconds / family.step < seconds' / family.step := by
  rcases Int.lt_or_le seconds firstOfYears with hbefore | hin
  . have hlt := family.literal_lt_of_neg (ht.year_neg_iff.2 hbefore) (hu.inYears_iff.1 hs')
    have hfirst := hs'.1
    unfold firstOfYears at hbefore hfirst
    refine iff_of_true hlt ?_
    cases family <;> simp only [step] <;> omega
  . exact family.literal_lt_iff_of_inYears ht hu ⟨hin, hs⟩ hs'

theorem literal_le_iff (family : TemporalFamily) (ht : t.IsInstant seconds)
    (hu : u.IsInstant seconds') (hs : seconds ≤ lastOfYears) (hs' : InYears seconds') :
    family.literal u ≤ family.literal t ↔ seconds' / family.step ≤ seconds / family.step := by
  rw [← not_lt, family.literal_lt_iff ht hu hs hs', not_lt]

end TemporalFamily

end SqlFilter
