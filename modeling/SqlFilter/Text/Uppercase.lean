import SqlFilter.Text.UppercaseTable

/-!
This module contains the full upper-case mapping of texts: `ß` becomes `SS`, a ligature its letters.
-/

namespace SqlFilter.Text

def upperChar (c : Char) : List Char :=
  if c.toNat < 0x80 then [c.toUpper]
  else
    match caseExpansions.find? (fun e => e.1 == c.toNat) with
    | some e => e.2.map Char.ofNat
    | none =>
      match caseRuns.find? (fun r => r.covers c.toNat) with
      | some r => [Char.ofNat (c.toNat + r.shift).toNat]
      | none => [c]

def upper (s : String) : String :=
  String.ofList (s.toList.flatMap upperChar)

end SqlFilter.Text
