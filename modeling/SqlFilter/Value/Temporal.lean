import SqlFilter.ColumnType
import SqlFilter.Timestamp.Layout
import SqlFilter.Value

/-!
This module contains the values that a column takes as date literals, and the arithmetic on the ends
of time ranges.
-/

namespace SqlFilter

def daySeconds : Int := 86400

def endOfDaySeconds : Int := 86399

def TemporalFamily.literal (family : TemporalFamily) (t : Timestamp) : String :=
  match family with
  | .dateTime => t.text
  | .date => t.date.text

namespace Value

def timestamp? : Value → Option Timestamp
  | .text s => Timestamp.parse? s
  | .integer n => Timestamp.ofUnixSeconds? n.toInt
  | .timestamp t => some t
  | .date d => some (Timestamp.midnight d)
  | _ => none

def normalizeTemporal (v : Value) (family : TemporalFamily) : Value :=
  match v.timestamp? with
  | some t => .text (family.literal t)
  | none => v

def addSeconds? (seconds : Int) : Value → Option Value
  | .integer n => (int64? (n.toInt + seconds)).map .integer
  | v => some v

end Value

end SqlFilter
