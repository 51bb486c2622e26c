import SceneMarkup.Scene.NodeReader

/-!
# Node documents

The design service describes a node by a document that differs from a scene in four ways:
positions are those on the canvas and not relative to the parent, sizes may stand apart, the
radii of the corners come in one list, and gradients have handles and no transform. A document
is recast member by member, and the node is then read from the result.

The type of a parent always comes from the parent itself and never from the document of the
child.
-/

namespace SceneMarkup.Document

open Json (Defect Members)

/-- Zero, where a document leaves a number out. -/
def zero : Json := .int 0

/-- The place on the canvas; an object without members when there is none. -/
def canvasBox (v : Json) : Except Defect Json := v.memberOrEmpty "absoluteBoundingBox"

/-- The difference of two boxes in one coordinate. -/
def offset (key : String) (box parentBox : Json) : Except Defect Json := do
  let a ← box.memberD key zero
  let b ← parentBox.memberD key zero
  a.sub b

/-- The position relative to the parent by a matrix of two rows. -/
def matrixPosition? (v : Json) : Option (Json × Json) :=
  match v with
  | .arr [first, second] => some (first, second)
  | _ => none

/-- The position relative to the parent: that of the document's own matrix, else the difference
of the places on the canvas. There is none when a place is missing. -/
def position (self : Json) (parent : Option Json) : Except Defect (Option (Json × Json)) := do
  match matrixPosition? (← self.memberD "relativeTransform" .null) with
  | some (first, second) => return some (← first.item 2, ← second.item 2)
  | none =>
    let box ← canvasBox self
    let parentBox ← match parent with
      | some p => canvasBox p
      | none => pure (.obj [])
    if box.isVacant || parentBox.isVacant then return none
    else return some (← offset "x" box parentBox, ← offset "y" box parentBox)

/-- The width and the height. -/
def size (self : Json) : Except Defect (Json × Json) := do
  match ← self.memberD "size" .null with
  | .obj ms => return ((Json.find? "x" ms).getD zero, (Json.find? "y" ms).getD zero)
  | _ =>
    let box ← canvasBox self
    return (← box.memberD "width" zero, ← box.memberD "height" zero)

/-- The members with the position under the keys that are free. -/
def place (found : Option (Json × Json)) (ms : Members) : Members :=
  match found with
  | some (x, y) => Json.setDefault "y" y (Json.setDefault "x" x ms)
  | none => ms

/-- The members with the radii of a list of four, clockwise from the top left, under the keys
that are free. -/
def spreadRadii (radii : Option Json) (ms : Members) : Members :=
  match radii with
  | some (.arr [a, b, c, d]) =>
    Json.setDefault "bottomLeftRadius" d
      (Json.setDefault "bottomRightRadius" c
        (Json.setDefault "topRightRadius" b
          (Json.setDefault "topLeftRadius" a ms)))
  | _ => ms

/-- The transform of a gradient whose first two handles are these. Its first row points from
the first to the second. -/
def gradientTransform (start finish : Json) : Except Defect Json := do
  let dx ← offset "x" finish start
  let dy ← offset "y" finish start
  return .arr [
    .arr [dx, dy, ← start.memberD "x" zero],
    .arr [← dy.negate, dx, ← start.memberD "y" zero]]

/-- A paint with a transform, if it has none and its handles give one. -/
def paint (v : Json) : Except Defect Json := do
  if ← v.mentions "gradientTransform" then return v
  else
    match v, ← v.memberD "gradientHandlePositions" .null with
    | .obj ms, .arr (start :: finish :: _) =>
      return .obj (Json.insert "gradientTransform" (← gradientTransform start finish) ms)
    | _, _ => return v

/-- Paints in order. -/
def paints : List Json → Except Defect (List Json)
  | [] => return []
  | v :: vs => do
    let p ← paint v
    let ps ← paints vs
    return p :: ps

/-- The members with the paints under a key, if they are a list there. -/
def repaint (key : String) (ms : Members) : Except Defect Members :=
  match Json.find? key ms with
  | some (.arr vs) => do return Json.insert key (.arr (← paints vs)) ms
  | _ => return ms

/-- The type of the parent: that of the parent's document, if there is one. -/
def parentType (parent : Option Json) (otherwise : Json) : Except Defect Json :=
  match parent with
  | some p => p.required "type"
  | none => return otherwise

/-- The members from which the node of a document is read. -/
def members (parent : Option Json) (otherwise : Json) (ms : Members) : Except Defect Members := do
  let self : Json := .obj ms
  let type ← parentType parent otherwise
  let found ← position self parent
  let (width, height) ← size self
  let placed := place found (Json.insert "parentType" type ms)
  let sized := Json.setDefault "height" height (Json.setDefault "width" width placed)
  let filled ← repaint "fills" (spreadRadii (Json.find? "rectangleCornerRadii" ms) sized)
  repaint "strokes" filled

/-- Why a value that is no object is no document. -/
def refusal (parent : Option Json) (v : Json) : Defect :=
  match v.checkTable, parentType parent .null with
  | .error d, _ => d
  | _, .error d => d
  | _, _ => .notObject

mutual

/-- The node of a document. Without the parent's document the type of the parent is
`otherwise`. -/
def read (parent : Option Json) (otherwise : Json) : Json → Reading Node
  | .obj ms =>
    match members parent otherwise ms with
    | .error d => .defect d
    | .ok data => (readChildren (.obj ms) ms).andThen (Node.ofMembers data)
  | v => .defect (refusal parent v)

/-- The children among the members of a document. -/
def readChildren (self : Json) : List (String × Json) → Reading (List Node)
  | [] => .value []
  | (key, v) :: rest =>
    if key = "children" then readElements self v else readChildren self rest

/-- The children of a document. A text and an object have elements that are no documents. -/
def readElements (self : Json) : Json → Reading (List Node)
  | .arr items => readAll self items
  | .str s =>
    match s.toList with
    | [] => .value []
    | c :: _ => .defect (refusal (some self) (Json.character c))
  | .obj ms =>
    match ms with
    | [] => .value []
    | m :: _ => .defect (refusal (some self) (.str m.1))
  | _ => .defect .unsuited

/-- The nodes of documents in order. The first one that fails ends the reading. -/
def readAll (self : Json) : List Json → Reading (List Node)
  | [] => .value []
  | v :: vs =>
    (read (some self) .null v).andThen fun n => (readAll self vs).map (n :: ·)

end

/-- The node of a document. A parent without content stands for none. -/
def node (parent : Json) (otherwise : Json) (v : Json) : Reading Node :=
  read (if parent.isVacant then none else some parent) otherwise v

end SceneMarkup.Document
