import SqlFilter.Json
import SqlFilter.Decimal.Style

/-!
This module contains the compact writing of JSON documents.
-/

namespace SqlFilter.Json

/--
Floating point numbers are positional from `1e-5` up to `1e16` and then have a fraction; otherwise
they have an exponent with its sign. A number that is not finite has no form and is written `null`.
-/
def numberStyle : Decimal.Style where
  plain e := -5 ≤ e && e < 16
  wholeEnd := ".0"
  tie := .toEven
  nan := "null"
  infinity := "null"
  minusInfinity := "null"

def escape (c : Char) : List Char :=
  if c == '"' then ['\\', '"']
  else if c == '\\' then ['\\', '\\']
  else if c.toNat == 8 then ['\\', 'b']
  else if c.toNat == 9 then ['\\', 't']
  else if c.toNat == 10 then ['\\', 'n']
  else if c.toNat == 12 then ['\\', 'f']
  else if c.toNat == 13 then ['\\', 'r']
  else if c.toNat < 0x20 then
    ['\\', 'u', '0', '0', Nat.digitChar (c.toNat / 16), Nat.digitChar (c.toNat % 16)]
  else [c]

def quoted (s : String) : String :=
  "\"" ++ String.ofList (s.toList.flatMap escape) ++ "\""

mutual

def render : Json → String
  | .null => "null"
  | .bool b => if b then "true" else "false"
  | .int n => Decimal.intText n
  | .float x => numberStyle.text x
  | .string s => quoted s
  | .array items => "[" ++ ",".intercalate (renderItems items) ++ "]"
  | .object members => "\x7b" ++ ",".intercalate (renderMembers members) ++ "\x7d"

def renderItems : List Json → List String
  | [] => []
  | j :: js => render j :: renderItems js

def renderMembers : List (String × Json) → List String
  | [] => []
  | (name, j) :: ms => (quoted name ++ ":" ++ render j) :: renderMembers ms

end

end SqlFilter.Json
