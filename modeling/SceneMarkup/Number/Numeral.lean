import SceneMarkup.Number.Decimal

/-!
# Text of numbers

A binary number is written as the shortest decimal that reads back to it. The layout of the
digits is fixed by `Numeral.plain`: positional notation in the middle of the range, an exponent
outside it.
-/

namespace SceneMarkup

/-- How the digits of a decimal are laid out. -/
structure Numeral where
  /-- The smallest exponent of the leading digit that is written positionally. -/
  lowest : Int
  /-- The largest such exponent. -/
  highest : Int
  /-- The least number of digits of a written exponent. -/
  exponentWidth : Nat

namespace Numeral

/-- Positional from `0.0001` up to sixteen digits before the point, and always with a digit
after the point; beyond that an exponent with a sign and at least two digits. -/
def plain : Numeral := { lowest := -4, highest := 15, exponentWidth := 2 }

/-- A number of zeros. -/
def zeros (k : Nat) : List Char := List.replicate k '0'

/-- The digits of a natural number, most significant first. -/
def digits (n : Nat) : List Char := Nat.toDigits 10 n

/-- Digits filled up with zeros on the left. -/
def padLeft (width : Nat) (ds : List Char) : List Char :=
  zeros (width - ds.length) ++ ds

/-- The digits of a positive decimal in positional notation. -/
def positional (ds : List Char) (exponent : Int) : List Char :=
  if 0 ≤ exponent then ds ++ zeros exponent.toNat ++ ['.', '0']
  else
    let places := (-exponent).toNat
    let padded := padLeft (places + 1) ds
    padded.take (padded.length - places) ++ ['.'] ++ padded.drop (padded.length - places)

/-- The digits of a positive decimal with an exponent. -/
def scientific (style : Numeral) (ds : List Char) (top : Int) : List Char :=
  let mantissa := match ds with
    | [] => []
    | [d] => [d]
    | d :: rest => d :: '.' :: rest
  mantissa ++ ['e', if top < 0 then '-' else '+'] ++
    padLeft style.exponentWidth (digits top.natAbs)

/-- The text of a decimal. -/
def render (style : Numeral) (d : Decimal) : String :=
  let ds := digits d.digits
  let top : Int := ds.length + d.exponent - 1
  let body :=
    if style.lowest ≤ top ∧ top ≤ style.highest then positional ds d.exponent
    else scientific style ds top
  String.ofList (if d.negative then '-' :: body else body)

end Numeral

/-- The text of a binary number. -/
def Binary64.text : Binary64 → String
  | .nan => "nan"
  | .infinite s => if s then "-inf" else "inf"
  | .finite s m e _ => Numeral.plain.render (Decimal.shortest s m e)

end SceneMarkup
