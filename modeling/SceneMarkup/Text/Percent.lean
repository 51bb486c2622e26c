import SceneMarkup.Text.Hex
import SceneMarkup.Text.Identifier
import SceneMarkup.Text.Utf8

/-!
# Percent encoding

A percent sign with two hexadecimal digits stands for a byte; any other percent sign stands for
itself. ASCII characters are bytes too, and runs of bytes are decoded as UTF-8. Characters
beyond the ASCII set stand for themselves and end a run.

Encoding writes the bytes of a character as such signs unless the character is safe, and leaves
signs that stand for a byte already as they are.
-/

namespace SceneMarkup.Text.Percent

/-- A byte, or a character that stands for itself. -/
inductive Unit
  | byte (b : Nat)
  | char (c : Char)

/-- The unit of a plain character. -/
def Unit.ofChar (c : Char) : Unit :=
  if c.toNat < 128 then .byte c.toNat else .char c

/-- The units of a text. -/
def units : List Char → List Unit
  | [] => []
  | [c] => [Unit.ofChar c]
  | [c, d] => [Unit.ofChar c, Unit.ofChar d]
  | c :: h :: l :: rest =>
    if c = '%' then
      match Hex.value? h, Hex.value? l with
      | some a, some b => .byte (16 * a + b) :: units rest
      | _, _ => .byte 37 :: units (h :: l :: rest)
    else Unit.ofChar c :: units (h :: l :: rest)

/-- The characters of units, `run` being the bytes read so far in reverse. -/
def assemble (run : List Nat) : List Unit → List Char
  | [] => Utf8.decode run.reverse
  | .byte b :: rest => assemble (b :: run) rest
  | .char c :: rest => Utf8.decode run.reverse ++ c :: assemble [] rest

/-- The text that a percent-encoded text stands for. -/
def decode (cs : List Char) : List Char := assemble [] (units cs)

/-- A byte as a percent sign with two digits. -/
def escapeByte (b : Nat) : List Char :=
  '%' :: (Hex.padded 2 b).map upperAscii

/-- The characters that never need an escape. -/
def isUnreserved (c : Char) : Bool :=
  isAsciiAlphanum c || c == '-' || c == '.' || c == '_' || c == '~'

/-- A character, escaped unless it is safe. -/
def encodeChar (safe : Char → Bool) (c : Char) : List Char :=
  if isUnreserved c || safe c then [c] else (Utf8.encode c).flatMap escapeByte

/-- A text with all characters escaped that are not safe. What stands for a byte already
stays. -/
def encode (safe : Char → Bool) : List Char → List Char
  | [] => []
  | [c] => encodeChar safe c
  | [c, d] => encodeChar safe c ++ encodeChar safe d
  | c :: h :: l :: rest =>
    if c = '%' ∧ (Hex.value? h).isSome ∧ (Hex.value? l).isSome then
      c :: h :: l :: encode safe rest
    else encodeChar safe c ++ encode safe (h :: l :: rest)

end SceneMarkup.Text.Percent
