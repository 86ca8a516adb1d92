import SqlFilter.Decimal.Digits
import SqlFilter.Decimal.Shortest

/-!
This module contains the writing of binary64 numbers with the fewest digits that read back, in the
style that a record of decisions fixes, and the reading of decimal texts.
-/

namespace SqlFilter.Decimal

structure Style where
  /-- which exponents of the leading digit are written positionally -/
  plain : Int → Bool
  /-- what follows the digits of a whole number in positional form -/
  wholeEnd : String
  tie : Tie
  nan : String
  infinity : String
  minusInfinity : String

namespace Style

variable (style : Style)

def positional (d : Scaled) : String :=
  let ds := Nat.toDigits 10 d.digits
  if 0 ≤ d.exponent then
    String.ofList (ds ++ List.replicate d.exponent.toNat '0') ++ style.wholeEnd
  else
    let places := (-d.exponent).toNat
    let ds := List.replicate (places + 1 - ds.length) '0' ++ ds
    let whole := ds.length - places
    String.ofList (ds.take whole) ++ "." ++ String.ofList (ds.drop whole)

def scientific (d : Scaled) (leading : Int) : String :=
  let ds := Nat.toDigits 10 d.digits
  let fraction := ds.drop 1
  let tail := if fraction.isEmpty then "" else "." ++ String.ofList fraction
  String.ofList (ds.take 1) ++ tail ++ "e" ++ (if leading < 0 then "-" else "+") ++
    natText leading.natAbs

def magnitude (d : Scaled) : String :=
  let leading := d.exponent + (Nat.toDigits 10 d.digits).length - 1
  if style.plain leading then style.positional d else scientific d leading

def text (x : Binary64) : String :=
  if x.isNaN then style.nan
  else if x.isInfinite then (if x.isNegative then style.minusInfinity else style.infinity)
  else
    let sign := if x.isNegative then "-" else ""
    let d := if x.isZero then ⟨0, 0⟩ else shortest (Interval.ofBinary64 x) style.tie
    sign ++ style.magnitude d

end Style

def exponent? : List Char → Option Int
  | [] => some 0
  | c :: cs =>
    if c == 'e' || c == 'E' then
      let (negative, ds) := match cs with
        | '-' :: ds => (true, ds)
        | '+' :: ds => (false, ds)
        | ds => (false, ds)
      if ds.isEmpty || !ds.all Char.isDigit then none
      else
        let n : Int := digitsValue 0 ds
        some (if negative then -n else n)
    else none

def scaled? (cs : List Char) : Option Scaled :=
  let whole := cs.takeWhile Char.isDigit
  let rest := cs.dropWhile Char.isDigit
  let (places, rest) := match rest with
    | '.' :: more => (more.takeWhile Char.isDigit, more.dropWhile Char.isDigit)
    | _ => ([], rest)
  if whole.isEmpty && places.isEmpty then none
  else (exponent? rest).map fun e => ⟨digitsValue 0 (whole ++ places), e - places.length⟩

def binary64? (s : String) : Option Binary64 :=
  let (negative, cs) := match s.toList with
    | '-' :: cs => (true, cs)
    | '+' :: cs => (false, cs)
    | cs => (false, cs)
  let name := String.ofList (cs.map Char.toLower)
  if name == "nan" then some .nan
  else if name == "inf" || name == "infinity" then some (.infinity negative)
  else (scaled? cs).map fun d => .ofDecimal negative d.digits d.exponent

end SqlFilter.Decimal
