import SqlFilter.Proofs.TimestampText
import SqlFilter.Proofs.UnixSeconds
import SqlFilter.Value.Temporal

/-!
This module contains the proof that date literals stand for what they were made from. The literal of
an instant is read as that instant, or as the begin of its day; and values that are literals already
stay as they are, so that a second normalization only makes a point in time a day.
-/

namespace SqlFilter

def TemporalFamily.kept (family : TemporalFamily) (t : Timestamp) : Timestamp :=
  match family with
  | .dateTime => { t with nanosecond := ⟨0, t.nanosecond.pos⟩ }
  | .date => .midnight t.date

namespace Timestamp

structure Spells (text : String) (seconds : Int) : Prop where
  reads : ∃ t, parse? text = some t ∧ t.IsInstant seconds
  minus : text.toList.head? = some '-' ↔ seconds < firstOfYears
  plus : text.toList.head? = some '+' ↔ lastOfYears < seconds

variable {t : Timestamp} {seconds : Int} {text : String}

theorem head?_of_yearText {rest : List Char}
    (h : text.toList = (Date.yearText t.date.year).toList ++ rest) :
    (text.toList.head? = some '-' ↔ t.date.year < 0) ∧
      (text.toList.head? = some '+' ↔ 9999 < t.date.year) := by
  obtain ⟨c, ds, hy, hc⟩ := Date.toList_yearText t.date.year
  have hhead : text.toList.head? = some c := by
    rw [h, hy]
    rfl
  rw [hhead, Option.some.injEq, Option.some.injEq]
  rcases hc with ⟨hyear, hdigit⟩ | ⟨hyear, rfl⟩ | ⟨hyear, rfl⟩
  . have hminus : c ≠ '-' := by
      rintro rfl
      exact absurd hdigit (by decide)
    have hplus : c ≠ '+' := by
      rintro rfl
      exact absurd hdigit (by decide)
    simp only [hminus, hplus, false_iff]
    omega
  . simp only [true_iff, Char.reduceEq, false_iff]
    omega
  . simp only [true_iff, Char.reduceEq, false_iff]
    omega

theorem spells_of_yearText {rest : List Char} (h : t.IsInstant seconds)
    (hr : parse? text = some t)
    (ht : text.toList = (Date.yearText t.date.year).toList ++ rest) : Spells text seconds where
  reads := ⟨t, hr, h⟩
  minus := (head?_of_yearText ht).1.trans h.year_neg_iff
  plus := (head?_of_yearText ht).2.trans h.year_gt_iff

end Timestamp

namespace TemporalFamily

open Timestamp

variable (family : TemporalFamily) (t : Timestamp)

theorem parse?_literal : parse? (family.literal t) = some (family.kept t) := by
  cases family with
  | dateTime => exact parse?_text t
  | date => exact parse?_dateText t.date

theorem kept_dateTime {t : Timestamp} (h : t.nanosecond = 0) : kept .dateTime t = t := by
  obtain ⟨date, minuteOfDay, second, nanosecond⟩ := t
  cases h
  rfl

theorem literal_kept : family.literal (family.kept t) = family.literal t := by
  cases family <;> rfl

theorem literal_date_kept : date.literal (family.kept t) = date.literal t := by
  cases family <;> rfl

theorem toList_literal : ∃ rest, (family.literal t).toList =
    (Date.yearText t.date.year).toList ++ rest := by
  cases family with
  | dateTime => exact ⟨_, t.toList_text.trans (t.date.toList_text_append _)⟩
  | date =>
    have h := t.date.toList_text_append []
    rw [List.append_nil] at h
    exact ⟨_, h⟩

end TemporalFamily

namespace Value

open Timestamp

variable {v : Value} {family : TemporalFamily} {t : Timestamp}

theorem normalizeTemporal_of_some (h : v.timestamp? = some t) (family : TemporalFamily) :
    v.normalizeTemporal family = .text (family.literal t) := by
  rw [normalizeTemporal, h]

theorem normalizeTemporal_of_none (h : v.timestamp? = none) (family : TemporalFamily) :
    v.normalizeTemporal family = v := by
  rw [normalizeTemporal, h]

theorem normalizeTemporal_literal (family family' : TemporalFamily) (t : Timestamp) :
    (text (family.literal t)).normalizeTemporal family' =
      .text (family'.literal (family.kept t)) := by
  apply normalizeTemporal_of_some
  exact family.parse?_literal t

theorem normalizeTemporal_integer {s : Int64} (h : t.IsInstant s.toInt)
    (family : TemporalFamily) :
    (integer s).normalizeTemporal family = .text (family.literal t) := by
  apply normalizeTemporal_of_some
  exact ofUnixSeconds?_of_isInstant h

theorem normalizeTemporal_unixSeconds (s : Int64) :
    if -8334601228800 ≤ s.toInt ∧ s.toInt ≤ 8210266876799 then
      (∃ text, (integer s).normalizeTemporal .dateTime = .text text ∧ Spells text s.toInt) ∧
        ∃ text, (integer s).normalizeTemporal .date = .text text ∧
          Spells text (s.toInt / 86400 * 86400)
    else ∀ family, (integer s).normalizeTemporal family = .integer s := by
  split
  . next hrange =>
    obtain ⟨t, ht⟩ := exists_isInstant hrange.1 hrange.2
    obtain ⟨rest, htext⟩ := TemporalFamily.toList_literal .dateTime t
    obtain ⟨rest', htext'⟩ := TemporalFamily.toList_literal .date t
    refine ⟨⟨_, normalizeTemporal_integer ht .dateTime, ?_⟩,
      ⟨_, normalizeTemporal_integer ht .date, ?_⟩⟩
    . refine spells_of_yearText ht ?_ htext
      rw [TemporalFamily.parse?_literal, TemporalFamily.kept_dateTime ht.nanosecond]
    . exact spells_of_yearText (midnight_isInstant ht) (TemporalFamily.parse?_literal .date t)
        htext'
  . next hrange =>
    intro family
    apply normalizeTemporal_of_none
    exact ofUnixSeconds?_eq_none hrange

theorem normalizeTemporal_normalizeTemporal (v : Value) :
    (∀ family, (v.normalizeTemporal family).normalizeTemporal family = v.normalizeTemporal family) ∧
      (v.normalizeTemporal .dateTime).normalizeTemporal .date = v.normalizeTemporal .date := by
  cases h : v.timestamp? with
  | none => simp only [normalizeTemporal_of_none h, implies_true, and_self]
  | some t =>
    simp only [normalizeTemporal_of_some h, normalizeTemporal_literal,
      TemporalFamily.literal_kept, TemporalFamily.literal_date_kept, implies_true, and_self]

end Value

end SqlFilter
