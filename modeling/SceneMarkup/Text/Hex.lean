/-!
# Hexadecimal digits
-/

namespace SceneMarkup.Text.Hex

/-- The digit of a value below sixteen, in lower case. -/
def digit (n : Nat) : Char :=
  if n < 10 then Char.ofNat (48 + n) else Char.ofNat (87 + n)

/-- The value of a digit of either case. -/
def value? (c : Char) : Option Nat :=
  let n := c.toNat
  if 48 ≤ n ∧ n ≤ 57 then some (n - 48)
  else if 97 ≤ n ∧ n ≤ 102 then some (n - 87)
  else if 65 ≤ n ∧ n ≤ 70 then some (n - 55)
  else none

/-- The digits of a number, at least `width` of them. -/
def padded (width n : Nat) : List Char :=
  let ds := Nat.toDigits 16 n
  List.replicate (width - ds.length) '0' ++ ds

/-- The number that a row of digits stands for. -/
def ofDigits? : List Char → Option Nat
  | cs => cs.foldl (fun acc c => match acc, value? c with
    | some n, some d => some (16 * n + d)
    | _, _ => none) (some 0)

end SceneMarkup.Text.Hex
