import SceneMarkup.Number.Binary64

/-!
# Shortest decimals

Among the decimals that round to a given binary number, the shortest ones have the fewest
digits; of those the one nearest to the number is chosen. The search walks the decimal grids
with 1, 2, … 17 digits and on each looks only at the two neighbours of the number: if any point
of a grid lies in the rounding interval, so does one of these.
-/

namespace SceneMarkup

/-- A decimal number `digits * 10 ^ exponent` with a sign. -/
structure Decimal where
  negative : Bool
  digits : Nat
  exponent : Int
  deriving DecidableEq

namespace Decimal

/-- Powers of ten. -/
def pow10 (k : Nat) : Nat := Nat.pow 10 k

/-- `n / d` measured in units of `10 ^ p`, as a ratio. -/
def inUnits (n d : Nat) (p : Int) : Nat × Nat :=
  if 0 ≤ p then (n, d * pow10 p.toNat) else (n * pow10 (-p).toNat, d)

/-- The exponent of the largest power of ten that does not exceed the positive `n / d`.
The binary estimate is off by at most one. -/
def topExponent (n d : Nat) : Int :=
  let guess := Binary64.topExponent n d * 30103 / 100000
  let reaches (p : Int) : Bool :=
    let (a, b) := inUnits n d p
    b ≤ a
  if reaches (guess + 1) then guess + 1
  else if reaches guess then guess
  else guess - 1

/-- The numbers that round to a positive binary number, in quarters of the last place:
the bounds and whether they belong to it. -/
structure Interval where
  /-- The lower bound. -/
  low : Nat
  /-- The number itself. -/
  middle : Nat
  /-- The upper bound. -/
  high : Nat
  /-- Bounds belong to the interval when the significand is even. -/
  closed : Bool

/-- The interval around `significand * 2 ^ exponent`. Below a power of two the neighbours are
twice as dense. -/
def Interval.around (m : Nat) (e : Int) : Interval :=
  { low := if m = 4503599627370496 ∧ -1074 < e then 4 * m - 1 else 4 * m - 2
    middle := 4 * m
    high := 4 * m + 2
    closed := m % 2 == 0 }

/-- The interval test for `c * 10 ^ p`, all in quarters of `2 ^ e`. -/
def Interval.holds (i : Interval) (e p : Int) (c : Nat) : Bool :=
  let (a, b) := if 0 ≤ p then (c * pow10 p.toNat, 1) else (c, pow10 (-p).toNat)
  let (x, y) := Binary64.inUnits a b (e - 2)
  if i.closed then i.low * y ≤ x && x ≤ i.high * y
  else i.low * y < x && x < i.high * y

/-- The better of the number's two neighbours on the grid of `10 ^ p`, if one of them lies in
the interval. An exact tie goes to the even digit string. -/
def gridPoint? (i : Interval) (e p : Int) : Option Nat :=
  let (n, d) := if 0 ≤ e - 2 then (i.middle * Binary64.pow2 (e - 2).toNat, 1)
    else (i.middle, Binary64.pow2 (2 - e).toNat)
  let (a, b) := inUnits n d p
  let c := a / b
  let r := a % b
  let below := i.holds e p c
  let above := i.holds e p (c + 1)
  if below && above then
    some (if 2 * r < b then c else if b < 2 * r then c + 1 else if c % 2 = 0 then c else c + 1)
  else if below then some c
  else if above then some (c + 1)
  else none

/-- The first grid that has a point in the interval, from coarse to fine. -/
def search (i : Interval) (e p : Int) : Nat → Nat × Int
  | 0 => ((gridPoint? i e p).getD 0, p)
  | fuel + 1 =>
    match gridPoint? i e p with
    | some c => (c, p)
    | none => search i e (p - 1) fuel

/-- Digits without trailing zeros, the exponent raised to match. -/
def stripZeros (c : Nat) (p : Int) : Nat → Nat × Int
  | 0 => (c, p)
  | fuel + 1 => if c % 10 = 0 ∧ c ≠ 0 then stripZeros (c / 10) (p + 1) fuel else (c, p)

/-- The shortest decimal that rounds to `significand * 2 ^ exponent`. -/
def shortest (negative : Bool) (m : Nat) (e : Int) : Decimal :=
  if m = 0 then ⟨negative, 0, 0⟩
  else
    let (n, d) := if 0 ≤ e then (m * Binary64.pow2 e.toNat, 1)
      else (m, Binary64.pow2 (-e).toNat)
    let (c, p) := search (Interval.around m e) e (topExponent n d) 16
    let (c, p) := stripZeros c p 20
    ⟨negative, c, p⟩

end Decimal
end SceneMarkup
