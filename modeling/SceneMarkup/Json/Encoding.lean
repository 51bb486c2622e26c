import SceneMarkup.Text.Wide

/-!
# Encodings of JSON texts

The first characters of a JSON text belong to the ASCII set, so the zeros among its first bytes
tell how wide its units are and in which order their bytes come. A body that begins with such
zeros is taken for the bytes of a wide encoding.
-/

namespace SceneMarkup.Json

/-- An encoding of a JSON text. -/
inductive Encoding
  | utf8
  | utf16 (order : Text.Wide.Order)
  | utf32 (order : Text.Wide.Order)
  deriving DecidableEq

namespace Encoding

/-- The encoding by the first bytes of a text. -/
def ofBytes : List Nat → Encoding
  | [a, b] =>
    if a = 0 then utf16 .big else if b = 0 then utf16 .little else utf8
  | a :: b :: c :: d :: _ =>
    if a = 0 then (if b = 0 then utf32 .big else utf16 .big)
    else if b = 0 then (if c = 0 ∧ d = 0 then utf32 .little else utf16 .little)
    else utf8
  | _ => utf8

end Encoding

/-- The bytes of a body. -/
def bytesOf (body : String) : List Nat := body.toUTF8.data.toList.map UInt8.toNat

/-- The rest of a text behind a byte order mark, if it starts with one. -/
def skipMark : List Char → List Char
  | [] => []
  | c :: rest => if c.toNat = 0xFEFF then rest else c :: rest

/-- The text of a body; nothing when its bytes do not fill units or a unit is no code point. -/
def decodeBody (body : String) : Option (List Char) :=
  if (body.toList.take 4).all (·.toNat ≠ 0) then some (skipMark body.toList)
  else
    let bytes := bytesOf body
    match Encoding.ofBytes bytes with
    | .utf8 => some (skipMark body.toList)
    | .utf16 order => Text.Wide.decode16 order bytes
    | .utf32 order => Text.Wide.decode32 order bytes

end SceneMarkup.Json
