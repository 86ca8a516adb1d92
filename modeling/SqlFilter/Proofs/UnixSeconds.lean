import SqlFilter.Proofs.CalendarDays
import SqlFilter.Timestamp

/-!
This module contains instants, the points in time that are some whole seconds before or after the
begin of 1970: there is one for each number of seconds in the range of the calendar, and it is the one
that `Timestamp.ofUnixSeconds?` finds.
-/

namespace SqlFilter

namespace Timestamp

structure IsInstant (t : Timestamp) (seconds : Int) : Prop where
  unixSeconds : t.unixSeconds = seconds
  /-- no leap second, which has the number of the second behind it -/
  second : t.second.val < 60
  nanosecond : t.nanosecond = 0

def minUnixSeconds : Int := -8334601228800

def maxUnixSeconds : Int := 8210266876799

variable {t u : Timestamp} {seconds : Int}

theorem IsInstant.dayNumber (h : t.IsInstant seconds) : t.date.dayNumber = seconds / 86400 := by
  have := h.unixSeconds
  have := h.second
  unfold Timestamp.unixSeconds at *
  omega

theorem IsInstant.minuteOfDay (h : t.IsInstant seconds) :
    t.minuteOfDay.val = (seconds % 86400).toNat / 60 := by
  have := h.unixSeconds
  have := h.second
  unfold Timestamp.unixSeconds at *
  omega

theorem IsInstant.second_eq (h : t.IsInstant seconds) :
    t.second.val = (seconds % 86400).toNat % 60 := by
  have := h.unixSeconds
  have := h.second
  unfold Timestamp.unixSeconds at *
  omega

theorem ofUnixSeconds?_of_isInstant (h : t.IsInstant seconds) :
    ofUnixSeconds? seconds = some t := by
  have hdate : Date.ofDayNumber? (seconds / 86400) = some t.date := by
    rw [← h.dayNumber]
    exact t.date.ofDayNumber?_dayNumber
  have hminute : Fin.ofNat 1440 t.minuteOfDay.val = t.minuteOfDay :=
    Fin.ext (Nat.mod_eq_of_lt t.minuteOfDay.isLt)
  have hsecond : Fin.ofNat 61 t.second.val = t.second := Fin.ext (Nat.mod_eq_of_lt t.second.isLt)
  rw [ofUnixSeconds?, hdate, Option.map_some, ← h.minuteOfDay, ← h.second_eq, hminute, hsecond,
    ← h.nanosecond]

theorem ofUnixSeconds?_eq_some_iff : ofUnixSeconds? seconds = some t ↔ t.IsInstant seconds := by
  refine ⟨fun h => ?_, ofUnixSeconds?_of_isInstant⟩
  obtain ⟨date, hdate, rfl⟩ := Option.map_eq_some_iff.1 h
  have hday := Date.ofDayNumber?_eq_some_iff.1 hdate
  constructor
  . simp only [Timestamp.unixSeconds, Fin.val_ofNat]
    omega
  . simp only [Fin.val_ofNat]
    omega
  . rfl

theorem IsInstant.bounds (h : t.IsInstant seconds) :
    minUnixSeconds ≤ seconds ∧ seconds ≤ maxUnixSeconds := by
  obtain ⟨hl, hu⟩ := t.date.dayNumber_mem
  have hmin : Date.minDayNumber = -96465292 := by decide
  have hmax : Date.maxDayNumber = 95026236 := by decide
  rw [h.dayNumber] at hl hu
  unfold minUnixSeconds maxUnixSeconds
  omega

theorem exists_isInstant (hl : minUnixSeconds ≤ seconds) (hu : seconds ≤ maxUnixSeconds) :
    ∃ t : Timestamp, t.IsInstant seconds := by
  have hmin : Date.minDayNumber = -96465292 := by decide
  have hmax : Date.maxDayNumber = 95026236 := by decide
  unfold minUnixSeconds at hl
  unfold maxUnixSeconds at hu
  obtain ⟨date, hdate⟩ := Date.exists_dayNumber (seconds / 86400) (by omega) (by omega)
  have hday : Date.ofDayNumber? (seconds / 86400) = some date :=
    Date.ofDayNumber?_eq_some_iff.2 hdate
  obtain ⟨t, ht⟩ : ∃ t, ofUnixSeconds? seconds = some t := by
    rw [ofUnixSeconds?, hday]
    exact ⟨_, rfl⟩
  exact ⟨t, ofUnixSeconds?_eq_some_iff.1 ht⟩

theorem ofUnixSeconds?_eq_none (h : ¬(minUnixSeconds ≤ seconds ∧ seconds ≤ maxUnixSeconds)) :
    ofUnixSeconds? seconds = none := by
  rw [Option.eq_none_iff_forall_ne_some]
  intro t ht
  exact h (ofUnixSeconds?_eq_some_iff.1 ht).bounds

theorem midnight_isInstant (h : t.IsInstant seconds) :
    (midnight t.date).IsInstant (seconds / 86400 * 86400) := by
  have hseconds : (midnight t.date).unixSeconds = 86400 * t.date.dayNumber := by
    simp [Timestamp.unixSeconds, midnight]
  refine ⟨?_, by simp [midnight], rfl⟩
  rw [hseconds, h.dayNumber, Int.mul_comm]

/-- The begin of the year 0. -/
def firstOfYears : Int := -62167219200

/-- The end of the year 9999. -/
def lastOfYears : Int := 253402300799

theorem IsInstant.year_lt_iff (h : t.IsInstant seconds) (year : Int) :
    t.date.year < year ↔ seconds < 86400 * (Calendar.daysBeforeYear year - Calendar.epoch) := by
  have hnumber := t.date.dayNumber_lt_iff_year year
  rw [← hnumber, h.dayNumber]
  omega

theorem IsInstant.year_neg_iff (h : t.IsInstant seconds) :
    t.date.year < 0 ↔ seconds < firstOfYears :=
  h.year_lt_iff 0

theorem IsInstant.year_gt_iff (h : t.IsInstant seconds) :
    9999 < t.date.year ↔ lastOfYears < seconds := by
  have hyear := h.year_lt_iff 10000
  have hnumber : 86400 * (Calendar.daysBeforeYear 10000 - Calendar.epoch) = lastOfYears + 1 := by
    decide
  rw [hnumber] at hyear
  omega

end Timestamp

end SqlFilter
