import SqlFilter.Binary64

/-!
This module contains the selection of the shortest decimal that reads back as a given binary64
number: the coarsest decimal grid with a point in the interval of reals that round to the number,
and of two such points the nearer one.
-/

namespace SqlFilter.Decimal

inductive Tie where
  | toEven
  | up
deriving DecidableEq

structure Scaled where
  digits : Nat
  exponent : Int
deriving DecidableEq

structure Interval where
  low : Nat
  value : Nat
  high : Nat
  den : Nat
  closed : Bool

namespace Interval

/-- The reals that round to a finite number other than zero; its ends belong to it if it is even. -/
def ofBinary64 (x : Binary64) : Interval :=
  -- in quarters of the last place both ends are whole numbers
  let m := x.significand
  let q := x.exponent - 2
  let unit := if 0 ≤ q then 1 <<< q.toNat else 1
  -- the number below a power of two is only half as far away
  let gap := if m = 1 <<< 52 ∧ 1 < x.biasedExponent then 1 else 2
  { low := (4 * m - gap) * unit
    value := 4 * m * unit
    high := (4 * m + 2) * unit
    den := if 0 ≤ q then 1 else 1 <<< (-q).toNat
    closed := m % 2 = 0 }

def inUnits (i : Interval) (k : Int) : Interval :=
  if 0 ≤ k then { i with den := i.den * Nat.pow 10 k.toNat }
  else
    let f := Nat.pow 10 (-k).toNat
    { i with low := i.low * f, value := i.value * f, high := i.high * f }

def holds (i : Interval) (n : Nat) : Bool :=
  if i.closed then i.low ≤ n * i.den && n * i.den ≤ i.high
  else i.low < n * i.den && n * i.den < i.high

def nearest? (i : Interval) (tie : Tie) : Option Nat :=
  let below := i.value / i.den
  let twice := 2 * (i.value % i.den)
  let takeBelow := twice < i.den || (twice == i.den && tie == .toEven && below % 2 == 0)
  match i.holds below, i.holds (below + 1) with
  | true, true => some (if takeBelow then below else below + 1)
  | true, false => some below
  | false, true => some (below + 1)
  | false, false => none

def leadingExponent (i : Interval) : Int :=
  if i.den ≤ i.value then (Nat.toDigits 10 (i.value / i.den)).length - 1
  else go 330 1 (i.value * 10)
where
  go : Nat → Nat → Nat → Int
  | 0, j, _ => -j
  | fuel + 1, j, scaled => if i.den ≤ scaled then -j else go fuel (j + 1) (scaled * 10)

end Interval

def Scaled.normalize (d : Scaled) : Scaled :=
  go d.digits d.digits d.exponent
where
  go : Nat → Nat → Int → Scaled
  | 0, n, e => ⟨n, e⟩
  | fuel + 1, n, e => if n % 10 = 0 then go fuel (n / 10) (e + 1) else ⟨n, e⟩

/-- The search starts on the grid of the leading digit; seventeen digits always suffice. -/
def shortest (i : Interval) (tie : Tie) : Scaled :=
  go 17 i.leadingExponent
where
  go : Nat → Int → Scaled
  | 0, k => ⟨(i.inUnits k).value / (i.inUnits k).den, k⟩
  | fuel + 1, k =>
    match (i.inUnits k).nearest? tie with
    | some n => (Scaled.mk n k).normalize
    | none => go fuel (k - 1)

end SqlFilter.Decimal
