import SceneMarkup.Number.Rounding

/-!
# Directions

The direction of a vector is the angle from the first axis to it. It is computed in fixed-point
arithmetic, far more precisely than a binary number can tell, by a series whose terms are all
positive:

`arctan (n / d) = Σ t k`, where `t 0 = n d / (n² + d²)` and
`t (k + 1) = t k · n² / (n² + d²) · (2 k + 2) / (2 k + 3)`.

For `n ≤ d` each term is less than half of the one before.
-/

namespace SceneMarkup.Angle

/-- One in fixed-point notation. -/
def unit : Nat := Binary64.pow2 160

/-- The number of terms after which the rest of the series is below the last digit. -/
def terms : Nat := 200

/-- The sum of the terms from the one with index `k` on. -/
def series (ratio : Nat) : Nat → Nat → Nat → Nat
  | 0, _, _ => 0
  | count + 1, k, term =>
    term + series ratio count (k + 1) (term * ratio * (2 * k + 2) / (unit * (2 * k + 3)))

/-- The angle with the tangent `n / d`, for `n ≤ d`. -/
def shallow (n d : Nat) : Nat :=
  if n = 0 then 0
  else
    let s := n * n + d * d
    series (n * n * unit / s) terms 0 (n * d * unit / s)

/-- A right angle: twice the angle of the diagonal. -/
def quarterTurn : Nat := 2 * shallow 1 1

/-- The angle with the tangent `n / d`. -/
def acute (n d : Nat) : Nat :=
  if n ≤ d then shallow n d else quarterTurn - shallow d n

/-- The size of a coordinate next to another one. Beside an infinite coordinate a finite one
vanishes. -/
def extent (x other : Binary64) : Nat × Nat :=
  match x, other with
  | .infinite _, _ => (1, 1)
  | _, .infinite _ => (0, 1)
  | _, _ => x.magnitude

/-- The direction of the vector `(x, y)` in radians, between minus and plus half a turn. -/
def radians (y x : Binary64) : Binary64 :=
  let (p, q) := extent y x
  let (u, v) := extent x y
  let angle := acute (p * v) (u * q)
  Binary64.ofRatio y.isNegative (if x.isNegative then 2 * quarterTurn - angle else angle) unit

/-- The degrees in a radian. -/
def degreesPerRadian : Binary64 := .ofDecimal false 5729577951308232 (-14)

/-- The direction of the vector `(x, y)` in whole degrees. -/
def wholeDegrees (y x : Binary64) : Except NumberFault Int :=
  match y, x with
  | .nan, _ => .error .notANumber
  | _, .nan => .error .notANumber
  | _, _ => .ok ((radians y x).mul degreesPerRadian).nearest

end SceneMarkup.Angle
