/-!
This module contains the dates of the proleptic Gregorian calendar and their numbering by days.
-/

namespace SqlFilter

namespace Calendar

def isLeapYear (year : Int) : Bool :=
  year % 4 == 0 && (year % 100 != 0 || year % 400 == 0)

def daysInMonth (leap : Bool) (month : Nat) : Nat :=
  match month with
  | 2 => if leap then 29 else 28
  | 4 | 6 | 9 | 11 => 30
  | _ => 31

def daysBeforeMonth (leap : Bool) (month : Nat) : Nat :=
  ((List.range' 1 (month - 1)).map (daysInMonth leap)).foldl (· + ·) 0

/-- The number of days from the first of January of the year 1 to that of the given year. -/
def daysBeforeYear (year : Int) : Int :=
  let past := year - 1
  365 * past + past / 4 - past / 100 + past / 400

/-- The number of days from the first of January of the year 1 to that of 1970. -/
def epoch : Int := 719162

example : daysBeforeYear 1970 = epoch := by decide

def minYear : Int := -262143

def maxYear : Int := 262142

/-- The mean length of a year gives a guess that is one off at most. -/
def yearOfDay (day : Int) : Int :=
  let guess := 400 * day / 146097 + 1
  if day < daysBeforeYear guess then guess - 1
  else if daysBeforeYear (guess + 1) ≤ day then guess + 1
  else guess

theorem daysBeforeYear_succ (year : Int) :
    daysBeforeYear (year + 1) = daysBeforeYear year + if isLeapYear year then 366 else 365 := by
  simp only [daysBeforeYear, isLeapYear, Bool.and_eq_true, Bool.or_eq_true, beq_iff_eq,
    bne_iff_ne]
  split <;> omega

theorem daysBeforeYear_yearOfDay (day : Int) :
    daysBeforeYear (yearOfDay day) ≤ day ∧ day < daysBeforeYear (yearOfDay day + 1) := by
  simp only [yearOfDay]
  split
  . simp only [daysBeforeYear] at *
    omega
  . split <;> (simp only [daysBeforeYear] at *; omega)

def monthOfDay (leap : Bool) (day : Nat) : Nat :=
  (List.range' 1 12).countP fun month => daysBeforeMonth leap month ≤ day

end Calendar

open Calendar

structure Date where
  year : Int
  month : Nat
  day : Nat
  inYears : minYear ≤ year ∧ year ≤ maxYear
  inYear : 1 ≤ month ∧ month ≤ 12
  inMonth : 1 ≤ day ∧ day ≤ daysInMonth (isLeapYear year) month
deriving DecidableEq

namespace Date

def ofYmd? (year : Int) (month day : Nat) : Option Date :=
  if h : (minYear ≤ year ∧ year ≤ maxYear) ∧ (1 ≤ month ∧ month ≤ 12) ∧
      (1 ≤ day ∧ day ≤ daysInMonth (isLeapYear year) month) then
    some ⟨year, month, day, h.1, h.2.1, h.2.2⟩
  else none

theorem ofYmd?_self (d : Date) : ofYmd? d.year d.month d.day = some d := by
  simp [ofYmd?, d.inYears, d.inYear, d.inMonth]

def dayNumber (d : Date) : Int :=
  daysBeforeYear d.year + daysBeforeMonth (isLeapYear d.year) d.month + (d.day - 1) - epoch

def ofDayNumber? (number : Int) : Option Date :=
  let day := number + epoch
  let year := yearOfDay day
  let leap := isLeapYear year
  let ordinal := (day - daysBeforeYear year).toNat
  let month := monthOfDay leap ordinal
  ofYmd? year month (ordinal - daysBeforeMonth leap month + 1)

example : (ofYmd? 2024 2 29).map dayNumber = some 19782 := by decide
example : ofYmd? 2023 2 29 = none := by decide
example : ofDayNumber? 19782 = ofYmd? 2024 2 29 := by decide
example : ofDayNumber? (-1) = ofYmd? 1969 12 31 := by decide

end Date

end SqlFilter
