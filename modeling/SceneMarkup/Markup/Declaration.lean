import SceneMarkup.Markup.Reference
import SceneMarkup.Svg.Commands
import SceneMarkup.Text.Quoted

/-!
# Declarations of properties

A property that is bound to a variable reads the variable, when variables are followed and the
design has it. Otherwise the literal of the node is written, and nothing where it rounds to
zero; only positions, and the weight of a path's strokes, write an explicit zero.

A property can be asked of any node. Where the class of the node lacks an attribute that the
property needs, that is a fault, found only when the attribute is looked at.

A fault stays within the property that it meets: `contained` puts a remark in the place of the
property's lines.
-/

namespace SceneMarkup.Property

/-- A declaration. -/
def declaration (name value : String) : String := name ++ ": " ++ value ++ ";"

/-- The declaration of a value that is there and not empty. -/
def declare? (p : Property) : Option String → List String
  | some v => if v = "" then [] else [declaration p.name v]
  | none => []

/-- The path to the variable of a binding, when variables are followed. -/
def reference (followed : Bool) (binding : Option VariableRef) : Script (Option String) :=
  match followed, binding with
  | true, some r => Reference.resolve r.id
  | _, _ => return none

/-- A length in pixels; nothing for none and for one that rounds to zero. -/
def pixels : Option Binary64 → Script (Option String)
  | some v => Script.ofNumber v.px
  | none => return none

/-- A length in pixels, zero written out; nothing for none. -/
def pixelsOrZero : Option Binary64 → Script (Option String)
  | some v => do return some ((← Script.ofNumber v.px).getD "0px")
  | none => return none

/-- The path of a binding or else a literal. -/
def bound (p : Property) (followed : Bool) (binding : Option VariableRef)
    (literal : Script (Option String)) : Script (List String) := do
  match ← reference followed binding with
  | some path => return p.declare? (some path)
  | none => return p.declare? (← literal)

/-- The fault of a node whose class lacks an attribute. -/
def lacking {α : Type} (n : Node) (field : String) : Script α :=
  .fail (.lacking n.kind.nodeClass field)

/-- A coordinate. What sits directly on a page is positioned by the page. -/
def position (p : Property) (followed : Bool) (n : Node) (b : Bindable)
    (literal : Option Binary64) : Script (List String) :=
  if n.attributes.isRootChild then return []
  else p.bound followed (n.attributes.bindings.get? b) (pixelsOrZero literal)

/-- A length. -/
def length (p : Property) (followed : Bool) (n : Node) (b : Bindable)
    (literal : Option Binary64) : Script (List String) :=
  p.bound followed (n.attributes.bindings.get? b) (pixels literal)

/-- The alignment inside a layout. -/
def alignmentValue (align : String) : String :=
  if align = "MIN" then "start"
  else if align = "CENTER" then "center"
  else if align = "MAX" then "end"
  else if align = "STRETCH" then "stretch"
  else "space-between"

/-- The opacity, unless the node is opaque. -/
def opacityLines (n : Node) : Script (List String) :=
  if n.attributes.opacity.numEq .one then return []
  else do
    let percent ← Script.ofNumber (n.attributes.opacity.mul Gradient.hundred).nearestInt
    return [declaration opacity.name (toString percent ++ "%")]

/-- A radius that is greater than zero. -/
def isPositive : Option Binary64 → Bool
  | some r => (Binary64.zero false).lt r
  | none => false

/-- The corners that are bound, with their variables. -/
def boundCorners (bs : Bindings) : List (Corner × VariableRef) :=
  Corner.all.filterMap fun c => (bs.get? c.bindable).map fun r => (c, r)

/-- The corners with a radius of their own that are not bound. -/
def droppedCorners (bs : Bindings) (radii : Radii) : List Corner :=
  Corner.all.filter fun c => (bs.get? c.bindable).isNone && isPositive (radii.corner c)

/-- The declaration of a corner that is bound, if its variable is there. -/
def boundCorner (c : Corner × VariableRef) : Script (List String) := do
  match ← Reference.resolve c.2.id with
  | some path => return [declaration c.1.name path]
  | none => return []

/-- Looks at the corners that are not bound and leaves a notice of those whose own radius is
dropped. -/
def reportDropped (n : Node) : Script Unit :=
  match n.kind.radii? with
  | some radii =>
    let dropped := droppedCorners n.attributes.bindings radii
    if dropped ≠ [] then Script.notify (.cornersDropped n.name n.id dropped) else pure ()
  | none =>
    match Corner.all.find? fun c => (n.attributes.bindings.get? c.bindable).isNone with
    | some c => lacking n c.bindable.key
    | none => pure ()

/-- The declarations of single corners that are bound. -/
def boundCornerLines (n : Node) (corners : List (Corner × VariableRef)) :
    Script (List String) := do
  let lines ← Script.collect boundCorner corners
  if lines ≠ [] then reportDropped n
  return lines

/-- The variable that all corners share, if they are all bound to one. -/
def sharedCorner? (corners : List (Corner × VariableRef)) : Option VariableRef :=
  match corners with
  | [] => none
  | c :: rest =>
    if corners.length = Corner.all.length ∧ rest.all (·.2.id = c.2.id) then some c.2 else none

/-- The declarations of radii that are bound, for all corners in one or corner by corner. -/
def boundRadius (n : Node) : Script (List String) := do
  match ← reference true (n.attributes.bindings.get? .cornerRadius) with
  | some path => return [declaration borderRadius.name path]
  | none =>
    let corners := boundCorners n.attributes.bindings
    match sharedCorner? corners with
    | some r =>
      match ← Reference.resolve r.id with
      | some path => return [declaration borderRadius.name path]
      | none => return []
    | none => boundCornerLines n corners

/-- The declaration of a corner's own radius. A radius that rounds to zero has no length. -/
def literalCorner (radii : Radii) (c : Corner) : Script (List String) :=
  match radii.corner c with
  | none => return []
  | some r =>
    if isPositive (some r) then do
      let value ← Script.ofNumber r.px
      return [declaration c.name (value.getD "None")]
    else return []

/-- The declarations of a node's own radii. -/
def literalRadius (n : Node) : Script (List String) :=
  match n.kind.radii? with
  | none => lacking n "corner_radius"
  | some radii =>
    match radii.uniform with
    | some r => do return borderRadius.declare? (← pixels (some r))
    | none => Script.collect (literalCorner radii) Corner.all

/-- The radii of a rectangle. -/
def radiusLines (followed : Bool) (n : Node) : Script (List String) :=
  match n.kind with
  | .shape .ellipse .. => return [declaration borderRadius.name "self.width/2"]
  | _ => do
    let lines ← if followed then boundRadius n else pure []
    if lines = [] then literalRadius n else return lines

/-- The notice that a brush leaves. -/
def brushNotice? : Brush → Option Notice
  | .drawn _ => none
  | .incomplete l => some (.lack l)
  | .unsupported type => some (.noBrush type)

/-- The brush that a paint describes itself. -/
def ownBrush (paint : Paint) : Script (Option String) := do
  let brush ← Script.ofExcept paint.brush
  match brushNotice? brush with
  | some n => Script.notify n
  | none => pure ()
  return brush.text?

/-- The brush of a paint: its variable or its own. -/
def brush (followed : Bool) (paint : Paint) : Script (Option String) := do
  match ← reference followed paint.colorBinding with
  | some path => return some path
  | none => ownBrush paint

/-- The brush of the first visible fill. Only a solid fill reads a variable. -/
def fillValue (followed : Bool) (fills : List Paint) : Script (Option String) :=
  match Paint.firstVisible? fills with
  | none => return none
  | some paint => brush (followed && paint.type == "SOLID") paint

/-- The brush of a node: that of its first visible fill. -/
def brushOf (followed : Bool) (n : Node) : Script (Option String) :=
  if n.kind.hasFills then fillValue followed n.kind.fills else lacking n "fills"

/-- The declaration of a fill. -/
def fillLines (p : Property) (followed : Bool) (n : Node) : Script (List String) := do
  return p.declare? (← brushOf followed n)

/-- The lines of a node that can be stroked. -/
def onStrokes (n : Node) (lines : Script (List String)) : Script (List String) :=
  if n.kind.hasStrokes then lines else lacking n "strokes"

/-- The width of a border, if there is one. -/
def borderWidthLines (followed : Bool) (n : Node) : Script (List String) :=
  onStrokes n
    (if n.kind.strokes.isEmpty then return []
    else borderWidth.length followed n .strokeWeight n.kind.strokeWeight)

/-- The brush of a border. -/
def borderColorLines (followed : Bool) (n : Node) : Script (List String) :=
  onStrokes n
    (match n.kind.strokes with
    | [] => return []
    | s :: _ => do return borderColor.declare? (← brush followed s))

/-- The brush of a path's stroke, if the first one is visible. -/
def strokeLines (followed : Bool) (n : Node) : Script (List String) :=
  onStrokes n
    (match n.kind.strokes with
    | [] => return []
    | s :: _ =>
      if s.visible then do return stroke.declare? (← brush followed s)
      else return [])

/-- The width of a path's strokes, if any of them is visible. -/
def strokeWidthLines (followed : Bool) (n : Node) : Script (List String) :=
  onStrokes n
    (if n.kind.strokes.any (·.visible) then
      strokeWidth.bound followed (n.attributes.bindings.get? .strokeWeight)
        (pixelsOrZero n.kind.strokeWeight)
    else return [])

/-- What is read from the content of a text. -/
def ofContent {α : Type} (n : Node) (field : String) (f : TextContent → Script α) :
    Script α :=
  match n.kind with
  | .text content => f content
  | _ => lacking n field

/-- The characters of a text. -/
def textLines (followed : Bool) (n : Node) : Script (List String) :=
  text.bound followed (n.attributes.bindings.get? .characters)
    (ofContent n "characters" fun content =>
      return some (Text.Quoted.literal content.characters))

/-- The family of a font. Bindings of it are not followed. -/
def fontFamilyLines (n : Node) : Script (List String) :=
  ofContent n "font_family" fun content =>
    match content.fontFamily with
    | some family =>
      if family = "" then return []
      else return [declaration fontFamily.name (Text.Quoted.literal family)]
    | none => return []

/-- The size of a font. -/
def fontSizeLines (followed : Bool) (n : Node) : Script (List String) :=
  fontSize.bound followed (n.attributes.bindings.get? .fontSize)
    (ofContent n "font_size" fun content => pixels content.fontSize)

/-- The weight of a font. A variable holds a length, from which the unit is taken. -/
def fontWeightLines (followed : Bool) (n : Node) : Script (List String) := do
  match ← reference followed (n.attributes.bindings.get? .fontWeight) with
  | some path => return [declaration fontWeight.name (path ++ " / 1px")]
  | none =>
    ofContent n "font_weight" fun content =>
      match content.fontWeight with
      | none => return []
      | some w => do
        let value ← Script.ofNumber (w.toPlaces Binary64.markupPlaces)
        return [declaration fontWeight.name (value.getD "0")]

/-- The remark on an alignment that has no counterpart. -/
def justifiedNote : String :=
  "// Note: The value was justified in Figma, but this isn't supported right now"

/-- The declaration of an alignment. -/
def textAlignment (value : String) : List String :=
  if value = "LEFT" then [declaration horizontalAlignment.name "left"]
  else if value = "CENTER" then [declaration horizontalAlignment.name "center"]
  else if value = "RIGHT" then [declaration horizontalAlignment.name "right"]
  else if value = "JUSTIFIED" then
    [declaration horizontalAlignment.name "left" ++ " " ++ justifiedNote]
  else []

/-- The alignment of a text. -/
def textAlignmentLines (n : Node) : Script (List String) :=
  ofContent n "text_align_horizontal" fun content =>
    return textAlignment (content.alignment.getD "")

/-- The commands in the drawing of a path. -/
def commandsIn : Stroke → String → Option String
  | .line, svg => Svg.lineCommands? svg
  | .vector, svg => Svg.pathCommands? svg

/-- The form in which a node is drawn. All but lines are drawn as paths. -/
def drawnForm : Kind → Stroke
  | .path .line _ => .line
  | _ => .vector

/-- The commands of a path. A drawing without any is quoted in a remark. -/
def commandLines (n : Node) : Script (List String) := do
  match ← Script.attempt (.drawingOf n) with
  | .error f =>
    Script.notify (.drawingFailed n.name n.id f)
    return ["// Error exporting SVG: " ++ f.message]
  | .ok (svg : String) =>
    match commandsIn (drawnForm n.kind) svg with
    | some found => return [declaration commands.name (Text.Quoted.literal found)]
    | none =>
      Script.notify (.noCommands n.name n.id)
      return ["// Could not extract path commands from SVG", "// " ++ Text.singleLine svg]

/-- The lines of a property. -/
def lines (followed : Bool) (n : Node) (p : Property) : Script (List String) :=
  let box := n.attributes.box
  let arrangement := n.attributes.arrangement
  match p with
  | .x => x.position followed n .x box.x
  | .y => y.position followed n .y box.y
  | .width => width.length followed n .width box.width
  | .height => height.length followed n .height box.height
  | .maxWidth => maxWidth.length followed n .maxWidth box.maxWidth
  | .maxHeight => maxHeight.length followed n .maxHeight box.maxHeight
  | .minWidth => minWidth.length followed n .minWidth box.minWidth
  | .minHeight => minHeight.length followed n .minHeight box.minHeight
  | .spacing => spacing.length followed n .itemSpacing arrangement.itemSpacing
  | .alignment =>
    match arrangement.align with
    | some a => return [declaration alignment.name (alignmentValue a)]
    | none => return []
  | .paddingLeft => paddingLeft.length followed n .paddingLeft arrangement.paddingLeft
  | .paddingRight => paddingRight.length followed n .paddingRight arrangement.paddingRight
  | .paddingTop => paddingTop.length followed n .paddingTop arrangement.paddingTop
  | .paddingBottom => paddingBottom.length followed n .paddingBottom arrangement.paddingBottom
  | .opacity => opacityLines n
  | .borderRadius => radiusLines followed n
  | .borderWidth => borderWidthLines followed n
  | .borderColor => borderColorLines followed n
  | .background => background.fillLines followed n
  | .text => textLines followed n
  | .color => color.fillLines followed n
  | .fontFamily => fontFamilyLines n
  | .fontSize => fontSizeLines followed n
  | .fontWeight => fontWeightLines followed n
  | .horizontalAlignment => textAlignmentLines n
  | .commands => commandLines n
  | .fill => fill.fillLines followed n
  | .stroke => strokeLines followed n
  | .strokeWidth => strokeWidthLines followed n

/-- The remark in the place of a property that a fault has stopped. -/
def faultRemark (p : Property) (f : Fault) : String :=
  "// Error processing " ++ p.name ++ ": " ++ f.message

/-- The lines of a property, or a remark on the fault that has stopped it. -/
def contained (followed : Bool) (n : Node) (p : Property) : Script (List String) :=
  (p.lines followed n).recover fun f => do
    Script.notify (.propertyFailed p n.name n.id f)
    return [p.faultRemark f]

/-- The lines of several properties, one after the other. -/
def allLines (followed : Bool) (n : Node) (ps : List Property) : Script (List String) :=
  Script.collect (contained followed n) ps

end SceneMarkup.Property
