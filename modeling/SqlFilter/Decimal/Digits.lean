/-!
This module contains whole numbers in base ten: their digits as texts, and the value of digits.
-/

namespace SqlFilter.Decimal

def natText (n : Nat) : String :=
  String.ofList (Nat.toDigits 10 n)

@[simp]
theorem toList_natText (n : Nat) : (natText n).toList = Nat.toDigits 10 n := by
  simp [natText]

theorem natText_inj {m n : Nat} : natText m = natText n ↔ m = n := by
  refine ⟨fun h => ?_, fun h => h ▸ rfl⟩
  have : Nat.toDigits 10 m = Nat.toDigits 10 n := by
    simpa using congrArg String.toList h
  rw [← Nat.ofDigitChars_toDigits (b := 10) (n := m) (by omega) (by omega), this,
    Nat.ofDigitChars_toDigits (by omega) (by omega)]

def intText (n : Int) : String :=
  if n < 0 then "-" ++ natText n.natAbs else natText n.natAbs

def padded (width n : Nat) : String :=
  let ds := Nat.toDigits 10 n
  String.ofList (List.replicate (width - ds.length) '0' ++ ds)

def digitsValue (n : Nat) (ds : List Char) : Nat :=
  ds.foldl (fun n c => 10 * n + (c.toNat - '0'.toNat)) n

example : padded 4 44 = "0044" := by decide
example : digitsValue 0 ['2', '0', '2', '4'] = 2024 := by decide

end SqlFilter.Decimal
