/-!
# Punycode

A label of a host name is written in ASCII: first its ASCII characters, then, behind a hyphen,
where the others stand. The others come in the order of their code points, each by its distance
from the one before, in digits of a base of thirty-six whose thresholds adapt to the distances
so far.
-/

namespace SceneMarkup.Text.Punycode

/-- The digit of a value below thirty-six. -/
def digit (n : Nat) : Char :=
  if n < 26 then Char.ofNat (97 + n) else Char.ofNat (22 + n)

/-- The threshold of a digit at a position, which counts in steps of thirty-six. -/
def threshold (position bias : Nat) : Nat := max 1 (min 26 (position - bias))

/-- The digits of a distance from a position on. -/
def digits (bias position n : Nat) : List Char :=
  let t := threshold position bias
  if n < t then [digit n]
  else digit (t + (n - t) % (36 - t)) :: digits bias (position + 36) ((n - t) / (36 - t))
termination_by n
decreasing_by
  have : 1 ≤ threshold position bias := Nat.le_max_left ..
  have : (n - threshold position bias) / (36 - threshold position bias) ≤
      n - threshold position bias := Nat.div_le_self ..
  omega

/-- The number of reductions of a distance, and what is left of it. -/
def reduce (n : Nat) : Nat × Nat :=
  if 455 < n then
    let (steps, rest) := reduce (n / 35)
    (steps + 1, rest)
  else (0, n)
termination_by n
decreasing_by exact Nat.div_lt_self (by omega) (by omega)

/-- The bias after a distance, given how many characters are written. -/
def adapt (distance written : Nat) (isFirst : Bool) : Nat :=
  let scaled := if isFirst then distance / 700 else distance / 2
  let (steps, rest) := reduce (scaled + scaled / written)
  36 * steps + 36 * rest / (rest + 38)

/-- What is written so far: the digits in reverse pieces, the distance from the last character,
the bias, and the number of characters. -/
structure Progress where
  output : List (List Char)
  distance : Nat
  bias : Nat
  written : Nat

/-- The progress behind a character, when the characters with the code point `code` are being
written. -/
def Progress.step (basic code : Nat) (p : Progress) (c : Char) : Progress :=
  if c.toNat < code then { p with distance := p.distance + 1 }
  else if c.toNat = code then
    { output := digits p.bias 36 p.distance :: p.output
      distance := 0
      bias := adapt p.distance (p.written + 1) (p.written == basic)
      written := p.written + 1 }
  else p

/-- The progress after all code points of a row, `next` being the first one that is open. -/
def Progress.run (basic : Nat) (cs : List Char) (next : Nat) (p : Progress) : List Nat → Progress
  | [] => p
  | code :: codes =>
    let start := { p with distance := p.distance + (code - next) * (p.written + 1) }
    let done := cs.foldl (Progress.step basic code) start
    run basic cs (code + 1) { done with distance := done.distance + 1 } codes

/-- Increasing code points without repetition. -/
def increasing (codes : List Nat) : List Nat := (codes.mergeSort fun a b => a ≤ b).eraseDups

/-- The written form of a label. -/
def encode (cs : List Char) : List Char :=
  let basic := cs.filter (·.toNat < 128)
  let codes := increasing ((cs.map Char.toNat).filter (128 ≤ ·))
  let p := Progress.run basic.length cs 128 ⟨[], 0, 72, basic.length⟩ codes
  (if basic = [] then [] else basic ++ ['-']) ++ p.output.reverse.flatten

end SceneMarkup.Text.Punycode
