import SceneMarkup.Scene.Paint

/-!
# Variable bindings

Attributes of a node can be bound to variables. Only bound attributes are listed, in the order
of `Bindable.all` when they come from a design.
-/

namespace SceneMarkup

/-- The attributes that can be bound. -/
inductive Bindable
  | x | y | width | height
  | minWidth | maxWidth | minHeight | maxHeight
  | itemSpacing | paddingLeft | paddingRight | paddingTop | paddingBottom
  | cornerRadius | topLeftRadius | topRightRadius | bottomLeftRadius | bottomRightRadius
  | strokeWeight | characters | fontSize | fontWeight
  deriving DecidableEq

namespace Bindable

/-- All bindable attributes. -/
def all : List Bindable :=
  [x, y, width, height, minWidth, maxWidth, minHeight, maxHeight, itemSpacing, paddingLeft,
    paddingRight, paddingTop, paddingBottom, cornerRadius, topLeftRadius, topRightRadius,
    bottomLeftRadius, bottomRightRadius, strokeWeight, characters, fontSize, fontWeight]

/-- The key of an attribute, its words set apart by underscores. -/
def key : Bindable → String
  | x => "x"
  | y => "y"
  | width => "width"
  | height => "height"
  | minWidth => "min_width"
  | maxWidth => "max_width"
  | minHeight => "min_height"
  | maxHeight => "max_height"
  | itemSpacing => "item_spacing"
  | paddingLeft => "padding_left"
  | paddingRight => "padding_right"
  | paddingTop => "padding_top"
  | paddingBottom => "padding_bottom"
  | cornerRadius => "corner_radius"
  | topLeftRadius => "top_left_radius"
  | topRightRadius => "top_right_radius"
  | bottomLeftRadius => "bottom_left_radius"
  | bottomRightRadius => "bottom_right_radius"
  | strokeWeight => "stroke_weight"
  | characters => "characters"
  | fontSize => "font_size"
  | fontWeight => "font_weight"

end Bindable

/-- The bound attributes of a node with their variables. -/
structure Bindings where
  entries : List (Bindable × VariableRef)
  deriving DecidableEq

namespace Bindings

/-- No attribute is bound. -/
def empty : Bindings := ⟨[]⟩

/-- The variable of an attribute. -/
def get? (bs : Bindings) (b : Bindable) : Option VariableRef :=
  (bs.entries.find? (·.1 = b)).map (·.2)

end Bindings
end SceneMarkup
