import SceneMarkup.Scene.Node

/-!
# Properties of elements

The properties that an element can have, and the order in which they are written: first those
that all elements share, then those of the element's class.
-/

namespace SceneMarkup

/-- A property of an element. -/
inductive Property
  | x | y | width | height
  | maxWidth | maxHeight | minWidth | minHeight
  | spacing | alignment
  | paddingLeft | paddingRight | paddingTop | paddingBottom
  | opacity
  | borderRadius | borderWidth | borderColor | background
  | text | color | fontFamily | fontSize | fontWeight | horizontalAlignment
  | commands | fill | stroke | strokeWidth
  deriving DecidableEq

namespace Property

/-- The name under which a property is declared. -/
def name : Property → String
  | x => "x"
  | y => "y"
  | width => "width"
  | height => "height"
  | maxWidth => "max-width"
  | maxHeight => "max-height"
  | minWidth => "min-width"
  | minHeight => "min-height"
  | spacing => "spacing"
  | alignment => "alignment"
  | paddingLeft => "padding-left"
  | paddingRight => "padding-right"
  | paddingTop => "padding-top"
  | paddingBottom => "padding-bottom"
  | opacity => "opacity"
  | borderRadius => "border-radius"
  | borderWidth => "border-width"
  | borderColor => "border-color"
  | background => "background"
  | text => "text"
  | color => "color"
  | fontFamily => "font-family"
  | fontSize => "font-size"
  | fontWeight => "font-weight"
  | horizontalAlignment => "horizontal-alignment"
  | commands => "commands"
  | fill => "fill"
  | stroke => "stroke"
  | strokeWidth => "stroke-width"

/-- The properties that all elements share. -/
def shared : List Property :=
  [x, y, width, height, maxWidth, maxHeight, minWidth, minHeight, spacing, alignment,
    paddingLeft, paddingRight, paddingTop, paddingBottom, opacity]

/-- The properties of rectangles. -/
def ofRectangle : List Property := [borderRadius, borderWidth, borderColor, background]

/-- The properties of texts. -/
def ofText : List Property :=
  [text, color, fontFamily, fontSize, fontWeight, horizontalAlignment]

/-- The properties of paths. -/
def ofPath : List Property := [commands, fill, stroke, strokeWidth]

/-- The properties of a class beside the shared ones. -/
def ofClass : NodeClass → List Property
  | .shape _ => ofRectangle
  | .text => ofText
  | .path _ => ofPath
  | _ => []

end Property

namespace Corner

/-- The name under which the radius of a corner is declared. -/
def name : Corner → String
  | topLeft => "border-top-left-radius"
  | topRight => "border-top-right-radius"
  | bottomLeft => "border-bottom-left-radius"
  | bottomRight => "border-bottom-right-radius"

/-- The attribute that binds the radius of a corner. -/
def bindable : Corner → Bindable
  | topLeft => .topLeftRadius
  | topRight => .topRightRadius
  | bottomLeft => .bottomLeftRadius
  | bottomRight => .bottomRightRadius

end Corner
end SceneMarkup
