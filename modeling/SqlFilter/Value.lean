import SqlFilter.Json.Printer
import SqlFilter.Text.Blank
import SqlFilter.Timestamp
import SqlFilter.Uuid

/-!
This module contains the scalar values that are bound to a statement: their written form in
messages, their equality, and how a JSON document becomes one.
-/

namespace SqlFilter

inductive Value where
  | text (s : String)
  | integer (n : Int64)
  | float (x : Binary64)
  | boolean (b : Bool)
  | uuid (u : Uuid)
  | date (d : Date)
  | timestamp (t : Timestamp)
  | json (j : Json)
  | null

namespace Value

/-- Floating point numbers in messages are always positional, and whole ones have no point. -/
def numberStyle : Decimal.Style where
  plain _ := true
  wholeEnd := ""
  tie := .up
  nan := "NaN"
  infinity := "inf"
  minusInfinity := "-inf"

def isNull : Value → Bool
  | .null => true
  | _ => false

def text? : Value → Option String
  | .text s => some s
  | _ => none

/-- Null or a text of blanks only: the missing bound of a range. -/
def isBlank : Value → Bool
  | .null => true
  | .text s => Text.isAllBlank s
  | _ => false

/-- A text between single quotes, in which nothing is escaped. -/
def singleQuoted (s : String) : String :=
  "'" ++ s ++ "'"

def display : Value → String
  | .text s => singleQuoted s
  | .integer n => Decimal.intText n.toInt
  | .float x => numberStyle.text x
  | .boolean b => if b then "true" else "false"
  | .uuid u => singleQuoted u.text
  | .date d => singleQuoted d.text
  | .timestamp t => singleQuoted t.text
  | .json j => j.render
  | .null => "NULL"

def equals : Value → Value → Bool
  | .text a, .text b => a == b
  | .integer a, .integer b => a == b
  | .float a, .float b => a.equals b
  | .boolean a, .boolean b => a == b
  | .uuid a, .uuid b => a == b
  | .date a, .date b => a == b
  | .timestamp a, .timestamp b => a == b
  | .json a, .json b => a.equals b
  | .null, .null => true
  | _, _ => false

def int64? (n : Int) : Option Int64 :=
  if Int64.minValue.toInt ≤ n ∧ n ≤ Int64.maxValue.toInt then some (Int64.ofInt n) else none

theorem toInt_of_int64? {n : Int} {i : Int64} (h : int64? n = some i) : i.toInt = n := by
  simp only [int64?, Option.ite_none_right_eq_some, Option.some.injEq] at h
  obtain ⟨⟨hl, hu⟩, rfl⟩ := h
  rw [Int64.toInt_minValue] at hl
  rw [Int64.toInt_maxValue] at hu
  rw [Int64.toInt_ofInt_of_le (by omega) (by omega)]

/-- A JSON scalar becomes the value of its kind, an integer beyond 64 bits the nearest floating
point number; arrays and objects stay documents. -/
def ofJson : Json → Value
  | .null => .null
  | .bool b => .boolean b
  | .int n =>
    match int64? n with
    | some i => .integer i
    | none => .float (.ofInt n)
  | .float x => .float x
  | .string s => .text s
  | j => .json j

def ofCommaList (s : String) : List Value :=
  (s.toList.splitOn ',').map fun piece => .text (String.ofList piece)

end Value

end SqlFilter
