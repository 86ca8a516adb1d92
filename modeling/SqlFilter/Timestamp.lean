import SqlFilter.Calendar
import SqlFilter.Decimal.Style

/-!
This module contains points in time without time zone, their numbering by seconds, and their
written form.
-/

namespace SqlFilter

structure Timestamp where
  date : Date
  minuteOfDay : Fin 1440
  second : Fin 61
  nanosecond : Fin 1000000000
deriving DecidableEq

namespace Timestamp

def ofParts? (date : Date) (hour minute second nanosecond : Nat) : Option Timestamp :=
  if hm : minute < 60 then
    if hh : hour < 24 then
      if hs : second < 61 then
        if hn : nanosecond < 1000000000 then
          some ⟨date, ⟨60 * hour + minute, by omega⟩, ⟨second, hs⟩, ⟨nanosecond, hn⟩⟩
        else none
      else none
    else none
  else none

def midnight (date : Date) : Timestamp :=
  ⟨date, 0, 0, 0⟩

def ofUnixSeconds? (seconds : Int) : Option Timestamp :=
  let rest := (seconds % 86400).toNat
  (Date.ofDayNumber? (seconds / 86400)).map fun date =>
    ⟨date, Fin.ofNat 1440 (rest / 60), Fin.ofNat 61 (rest % 60), 0⟩

def unixSeconds (t : Timestamp) : Int :=
  86400 * t.date.dayNumber + 60 * t.minuteOfDay.val + t.second.val

def minutesBefore? (t : Timestamp) (minutes : Int) : Option Timestamp :=
  let total := 1440 * t.date.dayNumber + t.minuteOfDay.val - minutes
  (Date.ofDayNumber? (total / 1440)).map fun date =>
    { t with date := date, minuteOfDay := Fin.ofNat 1440 (total % 1440).toNat }

end Timestamp

/-- Years from 0 to 9999 have four digits, the others a sign and at least four digits. -/
def Date.yearText (year : Int) : String :=
  if 0 ≤ year ∧ year ≤ 9999 then Decimal.padded 4 year.toNat
  else (if year < 0 then "-" else "+") ++ Decimal.padded 4 year.natAbs

def Date.text (d : Date) : String :=
  yearText d.year ++ "-" ++ Decimal.padded 2 d.month ++ "-" ++ Decimal.padded 2 d.day

namespace Timestamp

def clockText (t : Timestamp) : String :=
  Decimal.padded 2 (t.minuteOfDay.val / 60) ++ ":" ++ Decimal.padded 2 (t.minuteOfDay.val % 60) ++
    ":" ++ Decimal.padded 2 t.second.val

def text (t : Timestamp) : String :=
  t.date.text ++ " " ++ t.clockText

/-- Three, six or nine places, the fewest that are exact; nothing if the fraction is zero. -/
def fractionText (t : Timestamp) : String :=
  let n := t.nanosecond.val
  if n = 0 then ""
  else if n % 1000000 = 0 then "." ++ Decimal.padded 3 (n / 1000000)
  else if n % 1000 = 0 then "." ++ Decimal.padded 6 (n / 1000)
  else "." ++ Decimal.padded 9 n

def exactText (t : Timestamp) : String :=
  t.text ++ t.fractionText

end Timestamp

end SqlFilter
