import SceneMarkup.Scene.Binding

/-!
# Scene nodes

A node has the attributes that all nodes share, a kind with the attributes of that kind, and
its children in order. The kind belongs to one of a few classes, which the type decides.
-/

namespace SceneMarkup

/-- Position and size. A node without a position has no coordinates. -/
structure Box where
  x : Option Binary64
  y : Option Binary64
  width : Binary64
  height : Binary64
  minWidth : Option Binary64
  maxWidth : Option Binary64
  minHeight : Option Binary64
  maxHeight : Option Binary64

/-- Spacing, alignment and padding. -/
structure Arrangement where
  itemSpacing : Option Binary64
  align : Option String
  paddingLeft : Option Binary64
  paddingRight : Option Binary64
  paddingTop : Option Binary64
  paddingBottom : Option Binary64

/-- What every node has. -/
structure Attributes where
  id : String
  name : String
  parentType : Option String
  box : Box
  arrangement : Arrangement
  opacity : Binary64
  bindings : Bindings

/-- A node that sits directly on a page. -/
def Attributes.isRootChild (a : Attributes) : Bool :=
  match a.parentType with
  | some t => t == "PAGE" || t == "CANVAS"
  | none => false

/-- Fills, strokes and the weight of the strokes. -/
structure Paints where
  fills : List Paint
  strokes : List Paint
  strokeWeight : Option Binary64

/-- The corners of a rectangle, in the order in which they are written. -/
inductive Corner
  | topLeft | topRight | bottomLeft | bottomRight
  deriving DecidableEq

/-- All corners. -/
def Corner.all : List Corner := [topLeft, topRight, bottomLeft, bottomRight]

/-- The radius of all corners and the radii of single ones. -/
structure Radii where
  uniform : Option Binary64
  topLeft : Option Binary64
  topRight : Option Binary64
  bottomLeft : Option Binary64
  bottomRight : Option Binary64

/-- The radius of a single corner. -/
def Radii.corner (r : Radii) : Corner → Option Binary64
  | .topLeft => r.topLeft
  | .topRight => r.topRight
  | .bottomLeft => r.bottomLeft
  | .bottomRight => r.bottomRight

/-- The content of a text node. -/
structure TextContent where
  characters : String
  fills : List Paint
  fontFamily : Option String
  fontSize : Option Binary64
  fontWeight : Option Binary64
  alignment : Option String

/-- The nodes that are drawn as a rectangle. -/
inductive Shape
  | rectangle | ellipse | group | component
  deriving DecidableEq

/-- The nodes that are drawn as a path. -/
inductive Stroke
  | line | vector
  deriving DecidableEq

/-- The classes of nodes. Each type that the design names belongs to one of them. -/
inductive NodeClass
  | frame
  | shape (form : Shape)
  | instanceOf
  | text
  | path (form : Stroke)
  | other
  deriving DecidableEq

namespace NodeClass

/-- The class of a type. -/
def ofType (type : String) : NodeClass :=
  if type = "FRAME" then frame
  else if type = "RECTANGLE" then shape .rectangle
  else if type = "ELLIPSE" then shape .ellipse
  else if type = "GROUP" then shape .group
  else if type = "COMPONENT" then shape .component
  else if type = "INSTANCE" then instanceOf
  else if type = "TEXT" then text
  else if type = "LINE" then path .line
  else if type = "VECTOR" then path .vector
  else other

/-- The name of a class in messages. -/
def label : NodeClass → String
  | frame => "FrameNode"
  | shape .rectangle => "RectangleNode"
  | shape .ellipse => "EllipseNode"
  | shape .group => "GroupNode"
  | shape .component => "ComponentNode"
  | instanceOf => "InstanceNode"
  | text => "TextNode"
  | path .line => "LineNode"
  | path .vector => "VectorNode"
  | other => "OtherNode"

/-- The one type of a class; only the last class has more. -/
def type? : NodeClass → Option String
  | frame => some "FRAME"
  | shape .rectangle => some "RECTANGLE"
  | shape .ellipse => some "ELLIPSE"
  | shape .group => some "GROUP"
  | shape .component => some "COMPONENT"
  | instanceOf => some "INSTANCE"
  | text => some "TEXT"
  | path .line => some "LINE"
  | path .vector => some "VECTOR"
  | other => none

end NodeClass

/-- The kind of a node. A kind without attributes of its own keeps its type. -/
inductive Kind
  | frame (layoutMode : String)
  | shape (form : Shape) (paints : Paints) (radii : Radii)
  | instanceOf (component : Option String)
  | text (content : TextContent)
  | path (form : Stroke) (paints : Paints)
  | other (type : String)

/-- The class of a kind. -/
def Kind.nodeClass : Kind → NodeClass
  | frame _ => .frame
  | shape form _ _ => .shape form
  | instanceOf _ => .instanceOf
  | text _ => .text
  | path form _ => .path form
  | other _ => .other

/-- The type of a node as the design names it. -/
def Kind.type : Kind → String
  | frame _ => "FRAME"
  | shape .rectangle .. => "RECTANGLE"
  | shape .ellipse .. => "ELLIPSE"
  | shape .group .. => "GROUP"
  | shape .component .. => "COMPONENT"
  | instanceOf _ => "INSTANCE"
  | text _ => "TEXT"
  | path .line _ => "LINE"
  | path .vector _ => "VECTOR"
  | other t => t

/-- Whether nodes of a kind can be filled. -/
def Kind.hasFills : Kind → Bool
  | shape .. => true
  | text _ => true
  | path .. => true
  | _ => false

/-- Whether nodes of a kind can be stroked. -/
def Kind.hasStrokes : Kind → Bool
  | shape .. => true
  | path .. => true
  | _ => false

/-- The radii of a kind that has corners. -/
def Kind.radii? : Kind → Option Radii
  | shape _ _ radii => some radii
  | _ => none

/-- The fills of a kind that has some. -/
def Kind.fills : Kind → List Paint
  | shape _ paints _ => paints.fills
  | text content => content.fills
  | path _ paints => paints.fills
  | _ => []

/-- The strokes of a kind that has some. -/
def Kind.strokes : Kind → List Paint
  | shape _ paints _ => paints.strokes
  | path _ paints => paints.strokes
  | _ => []

/-- The weight of the strokes. -/
def Kind.strokeWeight : Kind → Option Binary64
  | shape _ paints _ => paints.strokeWeight
  | path _ paints => paints.strokeWeight
  | _ => none

/-- A node of a scene. -/
inductive Node
  | mk (attributes : Attributes) (kind : Kind) (children : List Node)

namespace Node

/-- The attributes that every node has. -/
def attributes : Node → Attributes
  | mk a _ _ => a

/-- The kind of a node. -/
def kind : Node → Kind
  | mk _ k _ => k

/-- The children of a node. -/
def children : Node → List Node
  | mk _ _ cs => cs

/-- The identifier of a node in its design. -/
def id (n : Node) : String := n.attributes.id

/-- The name of a node. -/
def name (n : Node) : String := n.attributes.name

/-- The type of a node. -/
def type (n : Node) : String := n.kind.type

/-- The component that an instance names. -/
def componentId? (n : Node) : Option String :=
  match n.kind with
  | .instanceOf c => c
  | _ => none

mutual

/-- The identifiers of all nodes of a tree whose type is among `types`, parents first. -/
def idsOfTypes (types : List String) : Node → List String
  | mk a k cs =>
    (if types.contains k.type then [a.id] else []) ++ idsOfTypesAll types cs

/-- The identifiers of all such nodes of a row of trees. -/
def idsOfTypesAll (types : List String) : List Node → List String
  | [] => []
  | n :: ns => idsOfTypes types n ++ idsOfTypesAll types ns

end

end Node
end SceneMarkup
