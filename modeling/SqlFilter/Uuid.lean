import SqlFilter.Json.Parser

/-!
This module contains universally unique identifiers and their text of five hyphenated groups.
-/

namespace SqlFilter

structure Uuid where
  bits : BitVec 128
deriving DecidableEq

namespace Uuid

def digits (u : Uuid) : List Char :=
  let ds := Nat.toDigits 16 u.bits.toNat
  List.replicate (32 - ds.length) '0' ++ ds

def text (u : Uuid) : String :=
  let ds := u.digits
  "-".intercalate
    [String.ofList (ds.take 8), String.ofList ((ds.drop 8).take 4),
     String.ofList ((ds.drop 12).take 4), String.ofList ((ds.drop 16).take 4),
     String.ofList (ds.drop 20)]

def parse? (s : String) : Option Uuid :=
  let ds := s.toList.filter (· != '-')
  if ds.length = 32 then (Json.hexValue? ds).map fun n => ⟨BitVec.ofNat 128 n⟩ else none

example : (parse? "0012abCD-0000-0000-0000-0000000000ff").map text =
    some "0012abcd-0000-0000-0000-0000000000ff" := by decide +kernel

end Uuid

end SqlFilter
