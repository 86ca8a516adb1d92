import SqlFilter.Timestamp
import SqlFilter.Text.Blank

/-!
This module contains the reading of points in time: the strict format of the internet with its
offset from universal time, and a few loose layouts. `Timestamp.readings` lists all ways in which a
text is tried.
-/

namespace SqlFilter

inductive LayoutItem where
  | year
  | month
  | day
  | hour
  | minute
  | second
  | blanks
  | literal (c : Char)
deriving DecidableEq

abbrev Layout := List LayoutItem

namespace Layout

def date (sep : Char) : Layout :=
  [.year, .literal sep, .month, .literal sep, .day]

def hourMinute : Layout :=
  [.hour, .literal ':', .minute]

def clock : Layout :=
  hourMinute ++ [.literal ':', .second]

def dateTimes : List Layout :=
  [date '-' ++ [.blanks] ++ clock,
   date '-' ++ [.literal 'T'] ++ clock,
   date '-' ++ [.blanks] ++ hourMinute,
   date '/' ++ [.blanks] ++ clock,
   date '/' ++ [.blanks] ++ hourMinute]

def days : List Layout :=
  [date '-', date '/', [.year, .month, .day]]

structure Fields where
  year : Int := 0
  month : Nat := 0
  day : Nat := 0
  hour : Nat := 0
  minute : Nat := 0
  second : Nat := 0

def Fields.timestamp? (f : Fields) : Option Timestamp :=
  (Date.ofYmd? f.year f.month f.day).bind fun date =>
    Timestamp.ofParts? date f.hour f.minute f.second 0

def number? (ds : List Char) : Option Nat :=
  if ds.isEmpty then none else some (Decimal.digitsValue 0 ds)

def narrow? (width : Nat) (cs : List Char) : Option (Nat × List Char) :=
  let cs := Text.skipBlanks cs
  let ds := (cs.take width).takeWhile Char.isDigit
  (number? ds).map fun n => (n, cs.drop ds.length)

def wide? (cs : List Char) : Option (Nat × List Char) :=
  (number? (cs.takeWhile Char.isDigit)).map fun n => (n, cs.dropWhile Char.isDigit)

/-- A year after any blanks: up to four digits, or a sign and any number of digits. -/
def year? (cs : List Char) : Option (Int × List Char) :=
  match Text.skipBlanks cs with
  | '-' :: cs => (wide? cs).map fun (n, rest) => (-(n : Int), rest)
  | '+' :: cs => (wide? cs).map fun (n, rest) => ((n : Int), rest)
  | cs => (narrow? 4 cs).map fun (n, rest) => ((n : Int), rest)

def readItem? (item : LayoutItem) (f : Fields) (cs : List Char) : Option (Fields × List Char) :=
  match item with
  | .year => (year? cs).map fun (n, rest) => ({ f with year := n }, rest)
  | .month => (narrow? 2 cs).map fun (n, rest) => ({ f with month := n }, rest)
  | .day => (narrow? 2 cs).map fun (n, rest) => ({ f with day := n }, rest)
  | .hour => (narrow? 2 cs).map fun (n, rest) => ({ f with hour := n }, rest)
  | .minute => (narrow? 2 cs).map fun (n, rest) => ({ f with minute := n }, rest)
  | .second => (narrow? 2 cs).map fun (n, rest) => ({ f with second := n }, rest)
  | .blanks => some (f, Text.skipBlanks cs)
  | .literal c =>
    match cs with
    | d :: rest => if d = c then some (f, rest) else none
    | [] => none

def readFields? : Layout → Fields → List Char → Option (Fields × List Char)
  | [], f, cs => some (f, cs)
  | item :: layout, f, cs => (readItem? item f cs).bind fun (f, rest) => readFields? layout f rest

def read? (layout : Layout) (cs : List Char) : Option Timestamp :=
  match readFields? layout {} cs with
  | some (f, []) => f.timestamp?
  | _ => none

end Layout

namespace Timestamp

def fixed? (width : Nat) (cs : List Char) : Option (Nat × List Char) :=
  let ds := cs.take width
  if ds.length = width ∧ ds.all Char.isDigit then
    some (Decimal.digitsValue 0 ds, cs.drop width)
  else none

def expect? (allowed : List Char) : List Char → Option (List Char)
  | c :: rest => if allowed.contains c then some rest else none
  | [] => none

/-- Digits past the ninth are dropped. -/
def nanoseconds (ds : List Char) : Nat :=
  Decimal.digitsValue 0 ((ds ++ List.replicate 9 '0').take 9)

def fraction? : List Char → Option (Nat × List Char)
  | '.' :: cs =>
    let ds := cs.takeWhile Char.isDigit
    if ds.isEmpty then none else some (nanoseconds ds, cs.dropWhile Char.isDigit)
  | cs => some (0, cs)

def offset? : List Char → Option Int
  | 'Z' :: [] => some 0
  | 'z' :: [] => some 0
  | sign :: cs => do
    let (hours, cs) ← fixed? 2 cs
    let cs ← expect? [':'] cs
    let (minutes, cs) ← fixed? 2 cs
    if cs.isEmpty ∧ hours < 24 ∧ minutes < 60 then
      let total : Int := 60 * hours + minutes
      if sign = '+' then some total
      else if sign = '-' ∨ sign = '\u2212' then some (-total)
      else none
    else none
  | [] => none

def readInternet? (cs : List Char) : Option Timestamp := do
  let (year, cs) ← fixed? 4 cs
  let cs ← expect? ['-'] cs
  let (month, cs) ← fixed? 2 cs
  let cs ← expect? ['-'] cs
  let (day, cs) ← fixed? 2 cs
  let cs ← expect? ['T', 't', ' '] cs
  let (hour, cs) ← fixed? 2 cs
  let cs ← expect? [':'] cs
  let (minute, cs) ← fixed? 2 cs
  let cs ← expect? [':'] cs
  let (second, cs) ← fixed? 2 cs
  let (nanosecond, cs) ← fraction? cs
  let offset ← offset? cs
  let date ← Date.ofYmd? year month day
  let t ← ofParts? date hour minute second nanosecond
  t.minutesBefore? offset

def readings : List (List Char → Option Timestamp) :=
  readInternet? :: (Layout.dateTimes ++ Layout.days).map Layout.read?

def parse? (text : String) : Option Timestamp :=
  readings.findSome? fun read => read (Text.trimChars text.toList)

end Timestamp

end SqlFilter
