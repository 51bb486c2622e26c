import SceneMarkup.Number.Numeral

/-!
# Rounding for output

Two roundings are used in markup: to the nearest integer, and to a fixed number of decimal
places. Both send a tie away from zero. The first works on the binary number, the second on
its shortest decimal.
-/

namespace SceneMarkup

/-- Why a number has no rounded form. -/
inductive NumberFault
  | notANumber
  | infinite
  | noPlaces
  /-- The unit of the last place is too large to be a decimal. -/
  | coarse
  /-- An integer is out of the range of binary numbers. -/
  | tooLarge
  deriving DecidableEq

/-- The message of a number fault. -/
def NumberFault.message : NumberFault → String
  | notANumber => "cannot convert float NaN to integer"
  | infinite => "cannot convert float infinity to integer"
  | noPlaces => "[<class 'decimal.InvalidOperation'>]"
  | coarse => "[<class 'decimal.Overflow'>]"
  | tooLarge => "int too large to convert to float"

namespace Decimal

/-- The magnitude in units of `10 ^ (-places)`, rounded to the nearest integer, half up. -/
def unitsAt (d : Decimal) (places : Int) : Nat :=
  let k := d.exponent + places
  if 0 ≤ k then d.digits * pow10 k.toNat
  else
    let unit := pow10 (-k).toNat
    (2 * d.digits + unit) / (2 * unit)

/-- The exponent of the leading digit. -/
def adjusted (d : Decimal) : Int := (Numeral.digits d.digits).length + d.exponent - 1

/-- The digits that a rounded decimal may have in any case. -/
def leastPrecision : Int := 28

/-- The digits that a decimal rounded to `places` may have: those before the point, those behind
it, and one more for a carry. -/
def precision (d : Decimal) (places : Int) : Int :=
  max leastPrecision (d.adjusted + places + 2)

/-- The decimal rounded to `places`, in units of the last place. A result with more digits than
the precision is refused. -/
def quantize (d : Decimal) (places precision : Int) : Except NumberFault Nat :=
  let units := d.unitsAt places
  if precision < (Numeral.digits units).length then .error .noPlaces else .ok units

/-- Digits without the zeros at their end. -/
def dropTrailingZeros (ds : List Char) : List Char :=
  (ds.reverse.dropWhile (· == '0')).reverse

/-- `units * 10 ^ (-places)` in positional notation, without zeros at the end of the fraction
and without a point before an empty fraction. -/
def fixedText (units : Nat) (places : Int) : List Char :=
  if places ≤ 0 then Numeral.digits (units * pow10 (-places).toNat)
  else
    let k := places.toNat
    let whole := Numeral.digits (units / pow10 k)
    match dropTrailingZeros (Numeral.padLeft k (Numeral.digits (units % pow10 k))) with
    | [] => whole
    | fraction => whole ++ '.' :: fraction

/-- The decimal rounded to `places`, as text; nothing when it rounds to zero. -/
def toPlaces (d : Decimal) (places : Int) : Except NumberFault (Option String) := do
  let units ← d.quantize places (d.precision places)
  if units = 0 then return none
  else
    let body := fixedText units places
    return some (String.ofList (if d.negative then '-' :: body else body))

/-- The number of places that matter: places behind the last digit of a decimal change
nothing. -/
def settle (d : Decimal) (places : Int) : Int := min places (max 0 (-d.exponent))

/-- The largest number of places, on either side of the point, that can be asked for. -/
def farthestPlace : Int := 2000054

/-- The largest exponent of a decimal. -/
def largestExponent : Int := 999999

/-- Checks a number of places before anything is rounded to it. -/
def checkPlaces (places : Int) : Except NumberFault Unit :=
  if places < -farthestPlace ∨ farthestPlace < places then .error .noPlaces
  else if places < -largestExponent then .error .coarse
  else .ok ()

end Decimal

namespace Binary64

/-- The integer nearest to a finite number, a tie going away from zero: the floor of the
magnitude plus one half, the sum being rounded like every sum. -/
def nearest (x : Binary64) : Int :=
  let n := (add x.abs half).floor
  if x.isNegative then -n else n

/-- The nearest integer of a number that has one. -/
def nearestInt (x : Binary64) : Except NumberFault Int :=
  match x with
  | nan => .error .notANumber
  | infinite _ => .error .infinite
  | finite .. => .ok x.nearest

/-- The number rounded to `places` decimals, as text; nothing when it rounds to zero. -/
def toPlaces (x : Binary64) (places : Int) : Except NumberFault (Option String) :=
  match x with
  | nan => .ok (some "NaN")
  | infinite _ => .error .noPlaces
  | finite s m e _ => (Decimal.shortest s m e).toPlaces places

/-- The number rounded to any admissible number of places. -/
def roundTo (x : Binary64) (places : Int) : Except NumberFault (Option String) :=
  match x with
  | finite s m e _ =>
    let d := Decimal.shortest s m e
    d.toPlaces (d.settle places)
  | x => x.toPlaces places

/-- Decimal places of lengths and weights in markup. -/
def markupPlaces : Int := 3

/-- A length in pixels; nothing when it rounds to zero. -/
def px (x : Binary64) : Except NumberFault (Option String) :=
  match x.toPlaces markupPlaces with
  | .ok none => .ok none
  | .ok (some t) => .ok (some (t ++ "px"))
  | .error f => .error f

end Binary64
end SceneMarkup
