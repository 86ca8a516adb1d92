import Mathlib.Order.Monotone.Basic
import SqlFilter.Calendar

/-!
This module contains the proof that dates and day numbers are the same thing: every number in the
range of the calendar is that of one date, and later dates have greater numbers.
-/

namespace SqlFilter

namespace Calendar

variable {leap : Bool} {month day : Nat}

theorem daysBeforeMonth_succ (leap : Bool) (h : 1 ≤ month) :
    daysBeforeMonth leap (month + 1) = daysBeforeMonth leap month + daysInMonth leap month := by
  obtain ⟨past, rfl⟩ := Nat.exists_eq_add_of_le' h
  simp only [daysBeforeMonth, Nat.add_sub_cancel]
  rw [List.range'_1_concat, List.map_append, List.foldl_append, Nat.add_comm 1 past]
  rfl

theorem daysBeforeMonth_mono (leap : Bool) : Monotone (daysBeforeMonth leap) := by
  apply monotone_nat_of_le_succ
  intro month
  rcases Nat.eq_zero_or_pos month with rfl | h
  . exact Nat.le_refl _
  . rw [daysBeforeMonth_succ leap h]
    exact Nat.le_add_right _ _

theorem daysBeforeYear_succ_eq (year : Int) :
    daysBeforeYear (year + 1) = daysBeforeYear year + daysBeforeMonth (isLeapYear year) 13 := by
  rw [daysBeforeYear_succ]
  cases isLeapYear year <;> rfl

theorem exists_month (last : Nat) (h : day < daysBeforeMonth leap (last + 1)) :
    ∃ month, (1 ≤ month ∧ month ≤ last) ∧ daysBeforeMonth leap month ≤ day ∧
      day < daysBeforeMonth leap (month + 1) := by
  induction last with
  | zero => exact absurd h (Nat.not_lt_zero _)
  | succ last ih =>
    rcases Nat.lt_or_ge day (daysBeforeMonth leap (last + 1)) with hlt | hge
    . obtain ⟨month, ⟨hl, hu⟩, hday⟩ := ih hlt
      exact ⟨month, ⟨hl, Nat.le_succ_of_le hu⟩, hday⟩
    . exact ⟨last + 1, ⟨Nat.succ_pos _, Nat.le_refl _⟩, hge, h⟩

theorem monthOfDay_eq (hm : 1 ≤ month ∧ month ≤ 12) (hl : daysBeforeMonth leap month ≤ day)
    (hu : day < daysBeforeMonth leap (month + 1)) : monthOfDay leap day = month := by
  have hle (k : Nat) : daysBeforeMonth leap k ≤ day ↔ k ≤ month := by
    constructor
    . intro h
      by_contra hlt
      have := daysBeforeMonth_mono leap (Nat.succ_le_of_lt (Nat.lt_of_not_le hlt))
      rw [Nat.succ_eq_add_one] at this
      omega
    . intro h
      exact Nat.le_trans (daysBeforeMonth_mono leap h) hl
  have hcount : ∀ last ∈ List.range' 1 12,
      ((List.range' 1 12).countP fun k => decide (k ≤ last)) = last := by decide
  unfold monthOfDay
  simp only [hle]
  exact hcount month (List.mem_range'_1.2 ⟨hm.1, Nat.lt_succ_of_le hm.2⟩)

theorem daysBeforeYear_lt_iff {year year' : Int} :
    daysBeforeYear year < daysBeforeYear year' ↔ year < year' := by
  apply StrictMono.lt_iff_lt
  apply strictMono_int_of_lt_succ
  intro year
  rw [daysBeforeYear_succ]
  split <;> omega

theorem daysBeforeYear_le {year year' : Int} (h : year ≤ year') :
    daysBeforeYear year ≤ daysBeforeYear year' := by
  rw [← Int.not_lt, daysBeforeYear_lt_iff]
  exact Int.not_lt.2 h

theorem yearOfDay_eq {year day : Int} (hl : daysBeforeYear year ≤ day)
    (hu : day < daysBeforeYear (year + 1)) : yearOfDay day = year := by
  obtain ⟨hl', hu'⟩ := daysBeforeYear_yearOfDay day
  have h := daysBeforeYear_lt_iff.1 (lt_of_le_of_lt hl hu')
  have h' := daysBeforeYear_lt_iff.1 (lt_of_le_of_lt hl' hu)
  omega

end Calendar

namespace Date

open Calendar

variable {d d' : Date} {number : Int}

def dayOfYear (d : Date) : Nat :=
  daysBeforeMonth (isLeapYear d.year) d.month + (d.day - 1)

theorem dayNumber_eq (d : Date) : d.dayNumber = daysBeforeYear d.year + d.dayOfYear - epoch := by
  have := d.inMonth.1
  unfold dayNumber dayOfYear
  omega

theorem dayOfYear_lt_month (d : Date) :
    d.dayOfYear < daysBeforeMonth (isLeapYear d.year) (d.month + 1) := by
  have hday := d.inMonth
  have hsucc := daysBeforeMonth_succ (isLeapYear d.year) d.inYear.1
  unfold dayOfYear
  omega

theorem dayOfYear_lt_year (d : Date) :
    daysBeforeYear d.year + d.dayOfYear < daysBeforeYear (d.year + 1) := by
  have hmonth := d.dayOfYear_lt_month
  have hlast : daysBeforeMonth (isLeapYear d.year) (d.month + 1) ≤
      daysBeforeMonth (isLeapYear d.year) 13 :=
    daysBeforeMonth_mono _ (Nat.succ_le_succ d.inYear.2)
  have hyear := daysBeforeYear_succ_eq d.year
  omega

theorem ofDayNumber?_dayNumber (d : Date) : ofDayNumber? d.dayNumber = some d := by
  have hyear : yearOfDay (d.dayNumber + epoch) = d.year := by
    apply yearOfDay_eq
    . rw [dayNumber_eq]
      omega
    . have := d.dayOfYear_lt_year
      rw [dayNumber_eq]
      omega
  have hordinal : (d.dayNumber + epoch - daysBeforeYear d.year).toNat = d.dayOfYear := by
    rw [dayNumber_eq]
    omega
  have hmonth : monthOfDay (isLeapYear d.year) d.dayOfYear = d.month :=
    monthOfDay_eq d.inYear (Nat.le_add_right _ _) d.dayOfYear_lt_month
  have hday : d.dayOfYear - daysBeforeMonth (isLeapYear d.year) d.month + 1 = d.day := by
    have := d.inMonth.1
    unfold dayOfYear
    omega
  simp only [ofDayNumber?, hyear, hordinal, hmonth, hday, ofYmd?_self]

theorem dayNumber_injective : Function.Injective dayNumber := by
  intro d d' h
  rw [← Option.some.injEq, ← ofDayNumber?_dayNumber, h, ofDayNumber?_dayNumber]

theorem dayNumber_lt_iff_year (d : Date) (year : Int) :
    d.dayNumber < daysBeforeYear year - epoch ↔ d.year < year := by
  have hend := d.dayOfYear_lt_year
  rw [dayNumber_eq]
  constructor
  . intro h
    exact daysBeforeYear_lt_iff.1 (by omega)
  . intro h
    have := daysBeforeYear_le (Int.add_one_le_of_lt h)
    omega

def minDayNumber : Int := daysBeforeYear minYear - epoch

def maxDayNumber : Int := daysBeforeYear (maxYear + 1) - epoch - 1

theorem dayNumber_mem (d : Date) : minDayNumber ≤ d.dayNumber ∧ d.dayNumber ≤ maxDayNumber := by
  have hl := daysBeforeYear_le d.inYears.1
  have hu := daysBeforeYear_le
    (show d.year + 1 ≤ maxYear + 1 from Int.add_le_add_right d.inYears.2 1)
  have hyear := d.dayOfYear_lt_year
  rw [dayNumber_eq, minDayNumber, maxDayNumber]
  omega

theorem exists_dayNumber (number : Int) (hl : minDayNumber ≤ number) (hu : number ≤ maxDayNumber) :
    ∃ d : Date, d.dayNumber = number := by
  obtain ⟨hfirst, hlast⟩ := daysBeforeYear_yearOfDay (number + epoch)
  generalize yearOfDay (number + epoch) = year at hfirst hlast
  rw [minDayNumber] at hl
  rw [maxDayNumber] at hu
  have hmin : minYear ≤ year := by
    have := daysBeforeYear_lt_iff.1
      (show daysBeforeYear minYear < daysBeforeYear (year + 1) by omega)
    omega
  have hmax : year ≤ maxYear := by
    have := daysBeforeYear_lt_iff.1
      (show daysBeforeYear year < daysBeforeYear (maxYear + 1) by omega)
    omega
  obtain ⟨ordinal, hordinal⟩ := Int.eq_ofNat_of_zero_le (Int.sub_nonneg_of_le hfirst)
  have hend : ordinal < daysBeforeMonth (isLeapYear year) 13 := by
    rw [daysBeforeYear_succ_eq] at hlast
    omega
  obtain ⟨month, hmonth, hbefore, hbehind⟩ := exists_month 12 hend
  have hday : ordinal - daysBeforeMonth (isLeapYear year) month + 1 ≤
      daysInMonth (isLeapYear year) month := by
    rw [daysBeforeMonth_succ _ hmonth.1] at hbehind
    omega
  refine ⟨⟨year, month, _, ⟨hmin, hmax⟩, hmonth, Nat.succ_pos _, hday⟩, ?_⟩
  simp only [dayNumber]
  omega

theorem year_of_ofDayNumber? (h : ofDayNumber? number = some d) :
    d.year = yearOfDay (number + epoch) := by
  simp only [ofDayNumber?, ofYmd?] at h
  split at h
  . cases h
    rfl
  . cases h

theorem ofDayNumber?_eq_some_iff : ofDayNumber? number = some d ↔ d.dayNumber = number := by
  constructor
  . intro h
    have hyears := d.inYears
    rw [year_of_ofDayNumber? h] at hyears
    obtain ⟨hfirst, hlast⟩ := daysBeforeYear_yearOfDay (number + epoch)
    have hmin := daysBeforeYear_le hyears.1
    have hmax := daysBeforeYear_le (Int.add_le_add_right hyears.2 1)
    -- a number that has a date is in the range, and thus that of some date
    obtain ⟨d', rfl⟩ := exists_dayNumber number
      (by rw [minDayNumber]; omega) (by rw [maxDayNumber]; omega)
    rw [ofDayNumber?_dayNumber] at h
    cases h
    rfl
  . rintro rfl
    exact d.ofDayNumber?_dayNumber

def Before (d d' : Date) : Prop :=
  d.year < d'.year ∨ d.year = d'.year ∧
    (d.month < d'.month ∨ d.month = d'.month ∧ d.day < d'.day)

theorem dayNumber_lt_of_before (h : d.Before d') : d.dayNumber < d'.dayNumber := by
  rw [dayNumber_eq, dayNumber_eq]
  rcases h with hyear | ⟨hyear, hmonth | ⟨hmonth, hday⟩⟩
  . have hend := d.dayOfYear_lt_year
    have := daysBeforeYear_le (Int.add_one_le_of_lt hyear)
    omega
  . have hend := d.dayOfYear_lt_month
    have hbegin := daysBeforeMonth_mono (isLeapYear d.year) (Nat.succ_le_of_lt hmonth)
    rw [Nat.succ_eq_add_one] at hbegin
    rw [hyear] at hend hbegin ⊢
    unfold dayOfYear at *
    omega
  . have := d.inMonth.1
    unfold dayOfYear
    rw [hyear, hmonth]
    omega

theorem before_trichotomy (d d' : Date) : d.Before d' ∨ d = d' ∨ d'.Before d := by
  obtain ⟨year, month, day, _, _, _⟩ := d
  obtain ⟨year', month', day', _, _, _⟩ := d'
  simp only [Before, mk.injEq]
  omega

theorem dayNumber_lt_iff : d.dayNumber < d'.dayNumber ↔ d.Before d' := by
  refine ⟨fun h => ?_, dayNumber_lt_of_before⟩
  rcases d.before_trichotomy d' with hb | rfl | hb
  . exact hb
  . exact absurd h (lt_irrefl _)
  . exact absurd h (dayNumber_lt_of_before hb).asymm

end Date

end SqlFilter
