/-!
# Binary floating-point numbers of 64 bits

A number is not-a-number, an infinity, or a signed `significand * 2 ^ exponent` in the one
admissible form. Every operation is exact arithmetic on integers followed by one rounding,
`ofRatio`: to the nearest representable number, of two equally near ones to the one with the
even significand. No operation of the machine's own floating point takes part.
-/

namespace SceneMarkup

/-- The admissible form: at most 53 binary digits, exponent in range, and the top digit set
unless the exponent is the smallest one. -/
def Binary64.Canonical (significand : Nat) (exponent : Int) : Prop :=
  significand < 9007199254740992 ∧ -1074 ≤ exponent ∧ exponent ≤ 971 ∧
    (exponent = -1074 ∨ 4503599627370496 ≤ significand)

instance Binary64.decidableCanonical (m : Nat) (e : Int) :
    Decidable (Binary64.Canonical m e) := by
  unfold Binary64.Canonical
  infer_instance

/-- A binary floating-point number. Zero and infinity carry a sign; there is one not-a-number. -/
inductive Binary64
  | nan
  | infinite (negative : Bool)
  | finite (negative : Bool) (significand : Nat) (exponent : Int)
      (canonical : Binary64.Canonical significand exponent)
  deriving DecidableEq

namespace Binary64

/-- Powers of two. -/
def pow2 (k : Nat) : Nat := Nat.pow 2 k

/-- Zero with a sign. -/
def zero (negative : Bool) : Binary64 :=
  .finite negative 0 (-1074) (by decide)

instance : Inhabited Binary64 := ⟨zero false⟩

/-- The number with these parts; parts out of range stand for infinity. -/
def ofParts (negative : Bool) (m : Nat) (e : Int) : Binary64 :=
  if h : Canonical m e then .finite negative m e h else .infinite negative

/-- The integer nearest to `n / d`, of two equally near ones the even one. -/
def divNearestEven (n d : Nat) : Nat :=
  let q := n / d
  let r := n % d
  if 2 * r < d then q
  else if d < 2 * r then q + 1
  else if q % 2 = 0 then q else q + 1

/-- `n / d` measured in units of `2 ^ e`, as a ratio. -/
def inUnits (n d : Nat) (e : Int) : Nat × Nat :=
  if 0 ≤ e then (n, d * pow2 e.toNat) else (n * pow2 (-e).toNat, d)

/-- The exponent of the largest power of two that does not exceed the positive `n / d`. -/
def topExponent (n d : Nat) : Int :=
  let k : Int := (Nat.log2 n : Int) - (Nat.log2 d : Int)
  let (a, b) := inUnits n d k
  if b ≤ a then k else k - 1

/-- The representable number nearest to `n / d`, with a sign. Magnitudes beyond the largest
number become infinite; a nonzero magnitude may round to zero. -/
def ofRatio (negative : Bool) (n d : Nat) : Binary64 :=
  if n = 0 then zero negative
  else
    let e := max (topExponent n d - 52) (-1074)
    let (a, b) := inUnits n d e
    let m := divNearestEven a b
    if m = 9007199254740992 then ofParts negative 4503599627370496 (e + 1)
    else ofParts negative m e

/-- The number nearest to an integer. -/
def ofInt (n : Int) : Binary64 :=
  ofRatio (n < 0) n.natAbs 1

/-- The number nearest to `digits * 10 ^ exponent`. Magnitudes that are far out of range are
answered without writing the power of ten out. -/
def ofDecimal (negative : Bool) (digits : Nat) (exponent : Int) : Binary64 :=
  if digits = 0 then zero negative
  else
    let size : Int := (Nat.toDigits 10 digits).length + exponent
    if 400 < size then .infinite negative
    else if size < -400 then zero negative
    else if 0 ≤ exponent then ofRatio negative (digits * Nat.pow 10 exponent.toNat) 1
    else ofRatio negative digits (Nat.pow 10 (-exponent).toNat)

/-- A number that is neither infinite nor not-a-number. -/
def isFinite : Binary64 → Bool
  | finite .. => true
  | _ => false

/-- The exact magnitude of a finite number as a ratio; `0 / 1` of the others. -/
def magnitude : Binary64 → Nat × Nat
  | finite _ m e _ => if 0 ≤ e then (m * pow2 e.toNat, 1) else (m, pow2 (-e).toNat)
  | _ => (0, 1)

/-- The sign bit. -/
def isNegative : Binary64 → Bool
  | nan => false
  | infinite s => s
  | finite s .. => s

/-- The exact value of a finite number as a ratio of an integer and a positive integer. -/
def ratio (x : Binary64) : Int × Nat :=
  let (n, d) := x.magnitude
  (if x.isNegative then -(n : Int) else (n : Int), d)

/-- A number equal to zero, whatever its sign. -/
def isZero : Binary64 → Bool
  | finite _ m _ _ => m = 0
  | _ => false

/-- The number with its sign turned around. -/
def neg : Binary64 → Binary64
  | nan => nan
  | infinite s => infinite (!s)
  | finite s m e h => finite (!s) m e h

/-- The number without its sign. -/
def abs : Binary64 → Binary64
  | nan => nan
  | infinite _ => infinite false
  | finite _ m e h => finite false m e h

/-- The rounded sum. An exact zero is negative only when both summands are. -/
def add (x y : Binary64) : Binary64 :=
  match x, y with
  | nan, _ => nan
  | _, nan => nan
  | infinite s, infinite t => if s = t then infinite s else nan
  | infinite s, finite .. => infinite s
  | finite .., infinite t => infinite t
  | finite s _ _ _, finite t _ _ _ =>
    let (p, q) := x.ratio
    let (u, v) := y.ratio
    let n := p * (v : Int) + u * (q : Int)
    if n = 0 then zero (s && t) else ofRatio (n < 0) n.natAbs (q * v)

/-- The rounded difference. -/
def sub (x y : Binary64) : Binary64 := add x (neg y)

/-- The rounded product. -/
def mul (x y : Binary64) : Binary64 :=
  match x, y with
  | nan, _ => nan
  | _, nan => nan
  | infinite s, infinite t => infinite (s != t)
  | infinite s, finite t m _ _ => if m = 0 then nan else infinite (s != t)
  | finite s m _ _, infinite t => if m = 0 then nan else infinite (s != t)
  | finite s _ _ _, finite t _ _ _ =>
    let (p, q) := x.magnitude
    let (u, v) := y.magnitude
    ofRatio (s != t) (p * u) (q * v)

/-- Strictly less, as numbers. Nothing is less than not-a-number, nor it than anything. -/
def lt (x y : Binary64) : Bool :=
  match x, y with
  | nan, _ => false
  | _, nan => false
  | infinite s, infinite t => s && !t
  | infinite s, finite .. => s
  | finite .., infinite t => !t
  | finite .., finite .. =>
    let (p, q) := x.ratio
    let (u, v) := y.ratio
    p * (v : Int) < u * (q : Int)

/-- Equal as numbers: the two zeros are equal and not-a-number equals nothing. -/
def numEq (x y : Binary64) : Bool :=
  match x, y with
  | nan, _ => false
  | _, nan => false
  | infinite s, infinite t => s == t
  | infinite _, finite .. => false
  | finite .., infinite _ => false
  | finite .., finite .. =>
    let (p, q) := x.ratio
    let (u, v) := y.ratio
    p * (v : Int) == u * (q : Int)

/-- The largest integer that does not exceed a finite number. -/
def floor (x : Binary64) : Int :=
  let (p, q) := x.ratio
  p / (q : Int)

/-- One half. -/
def half : Binary64 := ofRatio false 1 2

/-- One. -/
def one : Binary64 := ofRatio false 1 1

/-- The bit pattern of a number; not-a-number gets the quiet pattern. -/
def toBits : Binary64 → Nat
  | nan => 9221120237041090560
  | infinite s => (if s then 18442240474082181120 else 9218868437227405312)
  | finite s m e _ =>
    let sign := if s then 9223372036854775808 else 0
    if m < 4503599627370496 then sign + m
    else sign + (e + 1075).toNat * 4503599627370496 + (m - 4503599627370496)

/-- The number with a bit pattern. -/
def ofBits (bits : Nat) : Binary64 :=
  let negative := 9223372036854775808 ≤ bits
  let field := bits / 4503599627370496 % 2048
  let fraction := bits % 4503599627370496
  if field = 2047 then (if fraction = 0 then .infinite negative else .nan)
  else if field = 0 then ofParts negative fraction (-1074)
  else ofParts negative (4503599627370496 + fraction) ((field : Int) - 1075)

end Binary64
end SceneMarkup
