import SceneMarkup.Markup.Fault
import SceneMarkup.Number.Angle
import SceneMarkup.Scene.Paint
import SceneMarkup.Text.Hex

/-!
# Brushes

A brush is a color in hexadecimal notation or a gradient. Channels are not clamped, so a
channel beyond one takes more digits and one below zero has a sign.
-/

namespace SceneMarkup

namespace Color

/-- The number of steps of a channel. -/
def channelSteps : Binary64 := .ofInt 255

/-- A channel as a whole number of steps. -/
def channelByte (x : Binary64) : Except NumberFault Int :=
  (x.mul channelSteps).nearestInt

/-- A whole number of steps in hexadecimal digits, at least two places wide. -/
def byteText (n : Int) : List Char :=
  if n < 0 then '-' :: Text.Hex.padded 1 n.natAbs else Text.Hex.padded 2 n.natAbs

/-- The three channels in hexadecimal notation. -/
def channelText (c : Color) : Except NumberFault (List Char) := do
  let r ← channelByte c.r
  let g ← channelByte c.g
  let b ← channelByte c.b
  return '#' :: (byteText r ++ byteText g ++ byteText b)

/-- The color in hexadecimal notation. Alpha is written only where it is below one. -/
def hex (c : Color) (alpha : Binary64) : Except NumberFault String := do
  let channels ← c.channelText
  if alpha.lt .one then
    let a ← channelByte alpha
    return String.ofList (channels ++ byteText a)
  else
    return String.ofList channels

/-- The color with an alpha that is an integer, of which the multiple is exact. -/
def hexWhole (c : Color) (alpha : Int) : Except NumberFault String := do
  let channels ← c.channelText
  if alpha < 1 then
    let steps := Binary64.ofInt (alpha * 255)
    if steps.isFinite then return String.ofList (channels ++ byteText steps.nearest)
    else .error .tooLarge
  else
    return String.ofList channels

/-- An alpha that is given beside a color. -/
inductive Alpha
  | float (x : Binary64)
  | whole (n : Int)

/-- The color in hexadecimal notation, with an alpha that is given or its own. -/
def text (c : Color) : Option Alpha → Except NumberFault String
  | none => c.hex c.a
  | some (.float x) => c.hex x
  | some (.whole n) => c.hexWhole n

end Color

namespace Gradient

/-- One hundred. -/
def hundred : Binary64 := .ofInt 100

/-- A stop: its color and its position in percent. -/
def stopText (s : ColorStop) : Except NumberFault String := do
  let color ← s.color.text none
  let percent ← (s.position.mul hundred).nearestInt
  return color ++ " " ++ toString percent ++ "%"

/-- Stops in order. -/
def stopTexts : List ColorStop → Except NumberFault (List String)
  | [] => return []
  | s :: rest => do
    let text ← stopText s
    let texts ← stopTexts rest
    return text :: texts

/-- A gradient from its parts: the leading one and the stops. -/
def text (name lead : String) (stops : List String) : String :=
  "@" ++ name ++ "-gradient(" ++ ", ".intercalate (lead :: stops) ++ ")"

/-- The angle of a gradient in degrees, clockwise from the top. -/
def angle (y x : Binary64) : Except NumberFault Int := do
  let degrees ← Angle.wholeDegrees y x
  return (90 + degrees) % 360

/-- The direction of a transform: the first two entries of its first row. -/
def direction? : List (List Binary64) → Option (Binary64 × Binary64)
  | (a :: b :: _) :: _ => some (a, b)
  | _ => none

/-- A linear gradient; nothing to draw for fewer than two stops. -/
def linear (stops : List ColorStop) (transform : List (List Binary64)) : Except Fault String :=
  if stops.length < 2 then .ok ""
  else
    match direction? transform with
    | none => .error .missingEntry
    | some (a, b) =>
      match angle b a, stopTexts stops with
      | .error f, _ => .error (.number f)
      | _, .error f => .error (.number f)
      | .ok degrees, .ok texts => .ok (text "linear" (toString degrees ++ "deg") texts)

/-- A radial gradient; nothing to draw for fewer than two stops. -/
def radial (stops : List ColorStop) : Except Fault String :=
  if stops.length < 2 then .ok ""
  else
    match stopTexts stops with
    | .error f => .error (.number f)
    | .ok texts => .ok (text "radial" "circle" texts)

end Gradient

/-- What a paint lacks for its kind of brush. -/
inductive Lack
  | color | linearStops | radialStops
  deriving DecidableEq

/-- The brush of a paint. -/
inductive Brush
  | drawn (text : String)
  | incomplete (lack : Lack)
  | unsupported (type : String)
  deriving DecidableEq

namespace Brush

/-- The text of a brush: empty when the paint lacks something, none for kinds without a brush. -/
def text? : Brush → Option String
  | drawn t => some t
  | incomplete _ => some ""
  | unsupported _ => none

end Brush

namespace Paint

/-- The stops and the transform of a paint that has both. -/
def gradient? (p : Paint) : Option (List ColorStop × List (List Binary64)) :=
  match p.stops, p.transform with
  | some (s :: stops), some (row :: rows) => some (s :: stops, row :: rows)
  | _, _ => none

/-- The brush of a paint. -/
def brush (p : Paint) : Except Fault Brush :=
  if p.type = "SOLID" then
    match p.color with
    | none => .ok (.incomplete .color)
    | some c =>
      match c.text (some (.float p.opacity)) with
      | .ok t => .ok (.drawn t)
      | .error f => .error (.number f)
  else if p.type = "GRADIENT_LINEAR" then
    match p.gradient? with
    | none => .ok (.incomplete .linearStops)
    | some (stops, transform) => (Gradient.linear stops transform).map .drawn
  else if p.type = "GRADIENT_RADIAL" then
    match p.gradient? with
    | none => .ok (.incomplete .radialStops)
    | some (stops, _) => (Gradient.radial stops).map .drawn
  else .ok (.unsupported p.type)

end Paint
end SceneMarkup
