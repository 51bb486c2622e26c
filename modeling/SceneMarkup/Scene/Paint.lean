import SceneMarkup.Number.Binary64

/-!
# Paints

A paint fills or strokes a node. Its kind is kept as the text that the design gives, so that
kinds without a brush survive reading.
-/

namespace SceneMarkup

/-- A color with channels and alpha between zero and one. -/
structure Color where
  r : Binary64
  g : Binary64
  b : Binary64
  a : Binary64
  deriving DecidableEq

/-- A color at a position of a gradient. -/
structure ColorStop where
  color : Color
  position : Binary64
  deriving DecidableEq

/-- A reference to a variable of the design. -/
structure VariableRef where
  id : String
  type : String
  deriving DecidableEq

/-- A fill or a stroke. -/
structure Paint where
  type : String
  visible : Bool
  opacity : Binary64
  color : Option Color
  stops : Option (List ColorStop)
  transform : Option (List (List Binary64))
  colorBinding : Option VariableRef
  deriving DecidableEq

/-- The first paint that is visible. -/
def Paint.firstVisible? (paints : List Paint) : Option Paint :=
  paints.find? (·.visible)

end SceneMarkup
