import SceneMarkup.Text.Surrogate

/-!
# Wide encodings

Texts in units of two or four bytes, in either order of bytes. Units of two bytes spell
characters beyond the first plane in pairs.
-/

namespace SceneMarkup.Text.Wide

/-- Which byte of a unit comes first. -/
inductive Order
  | big | little
  deriving DecidableEq

/-- The number that two parts of a unit make, given their order and the weight of the higher
one. -/
def Order.combine (o : Order) (weight first second : Nat) : Nat :=
  match o with
  | .big => first * weight + second
  | .little => second * weight + first

/-- The units of two bytes; nothing when a byte is left over. -/
def units16 (o : Order) : List Nat → Option (List Nat)
  | [] => some []
  | [_] => none
  | a :: b :: rest => (units16 o rest).map (o.combine 256 a b :: ·)

/-- The units of four bytes; nothing when bytes are left over. -/
def units32 (o : Order) (bytes : List Nat) : Option (List Nat) :=
  (units16 o bytes).bind pairs
where
  /-- Units of two bytes, put together in pairs. -/
  pairs : List Nat → Option (List Nat)
    | [] => some []
    | [_] => none
    | a :: b :: rest => (pairs rest).map (o.combine 65536 a b :: ·)

/-- The characters that units of two bytes spell. -/
def join : List Nat → List Char
  | [] => []
  | [u] => [Surrogate.ofCode u]
  | u :: v :: rest =>
    if Surrogate.isHigh u && Surrogate.isLow v then Surrogate.join u v :: join rest
    else Surrogate.ofCode u :: join (v :: rest)

/-- The text of bytes in units of two. -/
def decode16 (o : Order) (bytes : List Nat) : Option (List Char) := (units16 o bytes).map join

/-- The text of bytes in units of four; nothing when a unit is no code point. -/
def decode32 (o : Order) (bytes : List Nat) : Option (List Char) :=
  (units32 o bytes).bind fun us =>
    if us.all (· < 0x110000) then some (us.map Surrogate.ofCode) else none

end SceneMarkup.Text.Wide
