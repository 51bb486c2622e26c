/-!
# UTF-8

A character is written in one to four bytes. Bytes are decoded from left to right. A sequence that
breaks off is answered by one replacement character for its longest correct beginning, and decoding
goes on at the byte that does not belong to it.
-/

namespace SceneMarkup.Text.Utf8

/-- The character that stands for bytes that cannot be decoded. -/
def replacement : Char := Char.ofNat 0xFFFD

/-- The bytes of a character. -/
def encode (c : Char) : List Nat :=
  let n := c.toNat
  if n < 0x80 then [n]
  else if n < 0x800 then [0xC0 + n / 64, 0x80 + n % 64]
  else if n < 0x10000 then [0xE0 + n / 4096, 0x80 + n / 64 % 64, 0x80 + n % 64]
  else [0xF0 + n / 262144, 0x80 + n / 4096 % 64, 0x80 + n / 64 % 64, 0x80 + n % 64]

/-- A character of which some bytes are read: how many are missing, the bits so far, and the
range of the next byte. -/
structure Pending where
  missing : Nat
  bits : Nat
  low : Nat
  high : Nat

/-- What a byte at the start of a character means. -/
inductive Lead
  | char (c : Char)
  | pending (p : Pending)
  | invalid

/-- The meaning of a first byte. Ranges of the second byte keep out overlong forms, surrogates
and values beyond the last code point. -/
def lead (b : Nat) : Lead :=
  if b < 0x80 then .char (Char.ofNat b)
  else if b < 0xC2 then .invalid
  else if b < 0xE0 then .pending ⟨1, b - 0xC0, 0x80, 0xBF⟩
  else if b = 0xE0 then .pending ⟨2, 0, 0xA0, 0xBF⟩
  else if b = 0xED then .pending ⟨2, 0xD, 0x80, 0x9F⟩
  else if b < 0xF0 then .pending ⟨2, b - 0xE0, 0x80, 0xBF⟩
  else if b = 0xF0 then .pending ⟨3, 0, 0x90, 0xBF⟩
  else if b = 0xF4 then .pending ⟨3, 4, 0x80, 0x8F⟩
  else if b < 0xF4 then .pending ⟨3, b - 0xF0, 0x80, 0xBF⟩
  else .invalid

/-- One step of decoding: the characters that a byte completes, and what is then pending. -/
def step (state : Option Pending) (b : Nat) : List Char × Option Pending :=
  let fresh : List Char × Option Pending := match lead b with
    | .char c => ([c], none)
    | .pending p => ([], some p)
    | .invalid => ([replacement], none)
  match state with
  | none => fresh
  | some p =>
    if p.low ≤ b ∧ b ≤ p.high then
      let bits := p.bits * 64 + (b - 0x80)
      if p.missing ≤ 1 then ([Char.ofNat bits], none)
      else ([], some ⟨p.missing - 1, bits, 0x80, 0xBF⟩)
    else (replacement :: fresh.1, fresh.2)

/-- Decodes bytes behind a pending character. -/
def decodeFrom (state : Option Pending) : List Nat → List Char
  | [] => match state with
    | none => []
    | some _ => [replacement]
  | b :: rest =>
    let (cs, next) := step state b
    cs ++ decodeFrom next rest

/-- The text of a row of bytes. -/
def decode (bytes : List Nat) : List Char := decodeFrom none bytes

end SceneMarkup.Text.Utf8
