/-!
This module contains floating point numbers as the bit patterns of IEEE 754 binary64: their parts,
the numeric comparison for equality, and the rounding of an exact quotient to the nearest one.
-/

namespace SqlFilter

structure Binary64 where
  bits : UInt64
deriving DecidableEq

namespace Binary64

def isNegative (x : Binary64) : Bool :=
  1 <<< 63 ≤ x.bits.toNat

def biasedExponent (x : Binary64) : Nat :=
  x.bits.toNat >>> 52 % 1 <<< 11

def fraction (x : Binary64) : Nat :=
  x.bits.toNat % 1 <<< 52

def isNaN (x : Binary64) : Bool :=
  x.biasedExponent == 2047 && x.fraction != 0

def isInfinite (x : Binary64) : Bool :=
  x.biasedExponent == 2047 && x.fraction == 0

def isZero (x : Binary64) : Bool :=
  x.biasedExponent == 0 && x.fraction == 0

def significand (x : Binary64) : Nat :=
  if x.biasedExponent = 0 then x.fraction else 1 <<< 52 + x.fraction

def exponent (x : Binary64) : Int :=
  if x.biasedExponent = 0 then -1074 else (x.biasedExponent : Int) - 1075

def equals (x y : Binary64) : Bool :=
  !x.isNaN && !y.isNaN && (x == y || (x.isZero && y.isZero))

def ofParts (negative : Bool) (magnitude : Nat) : Binary64 :=
  ⟨UInt64.ofNat (magnitude + if negative then 1 <<< 63 else 0)⟩

def nan : Binary64 := ofParts false (2047 <<< 52 + 1 <<< 51)

def infinity (negative : Bool) : Binary64 := ofParts negative (2047 <<< 52)

def zero (negative : Bool) : Binary64 := ofParts negative 0

def roundQuotient (num den : Nat) : Nat :=
  let q := num / den
  let r := num % den
  if den < 2 * r ∨ (2 * r = den ∧ q % 2 = 1) then q + 1 else q

def scaleQuotient (num den : Nat) (shift : Int) : Nat × Nat :=
  if 0 ≤ shift then (num <<< shift.toNat, den) else (num, den <<< (-shift).toNat)

/--
The number nearest to `num / den`, ties to the even significand. The exponent is chosen such that
the significand has 53 bits, or is that of the smallest numbers.
-/
def ofQuotient (negative : Bool) (num den : Nat) : Binary64 :=
  if num = 0 then zero negative
  else
    let guess : Int := (Nat.log2 num : Int) - Nat.log2 den - 52
    let (n, d) := scaleQuotient num den (-guess)
    -- the logarithms are off by less than one, so the guess is exact or one too great
    let exact := if n / d < 1 <<< 52 then guess - 1 else guess
    let q := max exact (-1074)
    let (n, d) := scaleQuotient num den (-q)
    let m := roundQuotient n d
    -- a significand that is rounded up to 2 ^ 53 carries into the exponent field
    let magnitude := if m < 1 <<< 52 then m else (q + 1074).toNat <<< 52 + m
    if 2047 <<< 52 ≤ magnitude then infinity negative else ofParts negative magnitude

/--
The number nearest to `digits * 10 ^ e`. Values far outside the range are decided by their size, so
that no huge power is computed.
-/
def ofDecimal (negative : Bool) (digits : Nat) (e : Int) : Binary64 :=
  if digits = 0 then zero negative
  else
    let places : Int := e + (Nat.toDigits 10 digits).length
    if 310 < places then infinity negative
    else if places < -330 then zero negative
    else if 0 ≤ e then ofQuotient negative (digits * Nat.pow 10 e.toNat) 1
    else ofQuotient negative digits (Nat.pow 10 (-e).toNat)

def ofInt (n : Int) : Binary64 :=
  ofDecimal (n < 0) n.natAbs 0

example : ofDecimal false 1 (-1) = ⟨0x3fb999999999999a⟩ := by decide +kernel
example : ofDecimal false 5 (-324) = ⟨1⟩ := by decide +kernel
example : ofDecimal true 17976931348623157 292 = ⟨0xffefffffffffffff⟩ := by decide +kernel
example : ofInt 0x8000000000000000 = ⟨0x43e0000000000000⟩ := by decide +kernel
example : ofInt 0x20000000000001 = ofInt 0x20000000000000 := by decide +kernel

end Binary64

end SqlFilter
