/-!
# Halves of surrogate pairs

Two units of sixteen bits, the halves of a surrogate pair, spell a character beyond the first
plane. A half that stands alone is no character, yet escapes and wide encodings can spell it. It
is kept as the character of a private area that stands in for it, so that it equals nothing but
itself.
-/

namespace SceneMarkup.Text.Surrogate

/-- The first half of a pair. -/
def isHigh (unit : Nat) : Bool := 0xD800 ≤ unit && unit < 0xDC00

/-- The second half of a pair. -/
def isLow (unit : Nat) : Bool := 0xDC00 ≤ unit && unit < 0xE000

/-- The character that a pair spells. -/
def join (high low : Nat) : Char :=
  Char.ofNat (0x10000 + (high - 0xD800) * 1024 + (low - 0xDC00))

/-- The character that stands in for a half. -/
def standIn (unit : Nat) : Char := Char.ofNat (unit + 0xE8000)

/-- The half that a character stands in for. -/
def half? (c : Char) : Option Nat :=
  let n := c.toNat
  if 0xF5800 ≤ n ∧ n < 0xF6000 then some (n - 0xE8000) else none

/-- The character of a code point, the stand-in of a half. -/
def ofCode (n : Nat) : Char :=
  if isHigh n || isLow n then standIn n else Char.ofNat n

/-- A text in which no half of a pair stands alone. -/
def isWhole (s : String) : Bool := s.toList.all fun c => (half? c).isNone

end SceneMarkup.Text.Surrogate
