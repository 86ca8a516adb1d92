import SqlFilter.Timestamp.Layout

/-!
This module contains the points in time that stand in TOML texts: dates, times of day, and both with
an offset from universal time or without. `Toml.dateTime?` gives each in its plain form.
-/

namespace SqlFilter.Toml

def date? (cs : List Char) : Option (Date × List Char) := do
  let (year, cs) ← Timestamp.fixed? 4 cs
  let cs ← Timestamp.expect? ['-'] cs
  let (month, cs) ← Timestamp.fixed? 2 cs
  let cs ← Timestamp.expect? ['-'] cs
  let (day, cs) ← Timestamp.fixed? 2 cs
  let date ← Date.ofYmd? year month day
  some (date, cs)

def fractionText (nanosecond : Nat) : String :=
  let digits := (Decimal.padded 9 nanosecond).toList.reverse.dropWhile (· == '0')
  if digits.isEmpty then "" else "." ++ String.ofList digits.reverse

def clock? (cs : List Char) : Option (String × List Char) := do
  let (hour, cs) ← Timestamp.fixed? 2 cs
  let cs ← Timestamp.expect? [':'] cs
  let (minute, cs) ← Timestamp.fixed? 2 cs
  let start := Decimal.padded 2 hour ++ ":" ++ Decimal.padded 2 minute ++ ":"
  if hour < 24 ∧ minute < 60 then
    match cs with
    | ':' :: cs =>
      let (second, cs) ← Timestamp.fixed? 2 cs
      let (nanosecond, cs) ← Timestamp.fraction? cs
      if second ≤ 60 then
        some (start ++ Decimal.padded 2 second ++ fractionText nanosecond, cs)
      else none
    | cs => some (start ++ "00", cs)
  else none

def offset? : List Char → Option String
  | ['Z'] => some "Z"
  | ['z'] => some "Z"
  | cs =>
    (Timestamp.offset? cs).map fun minutes =>
      (if minutes < 0 then "-" else "+") ++ Decimal.padded 2 (minutes.natAbs / 60) ++ ":" ++
        Decimal.padded 2 (minutes.natAbs % 60)

def dateTime? (cs : List Char) : Option String :=
  match clock? cs with
  | some (clock, rest) => if rest.isEmpty then some clock else none
  | none => do
    let (date, rest) ← date? cs
    match rest with
    | [] => some date.text
    | c :: rest =>
      if [' ', 't', 'T'].contains c then
        let (clock, rest) ← clock? rest
        let start := date.text ++ "T" ++ clock
        if rest.isEmpty then some start else (offset? rest).map (start ++ ·)
      else none

example : dateTime? "1979-05-27 07:32:00.500z".toList = some "1979-05-27T07:32:00.5Z" := by
  decide +kernel
example : dateTime? "07:32".toList = some "07:32:00" := by decide +kernel
example : dateTime? "1979-02-29".toList = none := by decide +kernel

end SqlFilter.Toml
