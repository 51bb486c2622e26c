import SceneMarkup.Scene.Node
import SceneMarkup.Scene.Reader

/-!
# Reading scene nodes

The type of an object decides the class of the node and with it the fields that are read. A
child without a parent type of its own gets the type of the node that holds it.

The children of a node are read one after the other, and the first one that fails is reported
alone. Items that are no objects are reported only when all objects among the children are
sound.
-/

namespace SceneMarkup

open Reading

namespace Box

/-- Position and size. -/
def ofMembers (ms : Json.Members) : Reading Box :=
  Box.mk
    <$> optional "x" number ms
    <*> optional "y" number ms
    <*> withDefault "width" (.zero false) number ms
    <*> withDefault "height" (.zero false) number ms
    <*> optional "min_width" number ms
    <*> optional "max_width" number ms
    <*> optional "min_height" number ms
    <*> optional "max_height" number ms

end Box

namespace Arrangement

/-- Spacing, alignment and padding. -/
def ofMembers (ms : Json.Members) : Reading Arrangement :=
  Arrangement.mk
    <$> optional "item_spacing" number ms
    <*> optional "layout_align" text ms
    <*> optional "padding_left" number ms
    <*> optional "padding_right" number ms
    <*> optional "padding_top" number ms
    <*> optional "padding_bottom" number ms

end Arrangement

namespace Attributes

/-- What every node has. Without a parent type of its own the node has the inherited one. -/
def ofMembers (inherited : Option String) (ms : Json.Members) : Reading Attributes :=
  Attributes.mk
    <$> withDefault "id" "" text ms
    <*> withDefault "name" "" text ms
    <*> withDefault "parent_type" inherited (nullable text) ms
    <*> Box.ofMembers ms
    <*> Arrangement.ofMembers ms
    <*> withDefault "opacity" .one number ms
    <*> withDefault "bound_variables" .empty Bindings.read ms

end Attributes

namespace Paints

/-- Fills, strokes and the weight of the strokes. -/
def ofMembers (ms : Json.Members) : Reading Paints :=
  Paints.mk
    <$> withDefault "fills" [] (list Paint.read) ms
    <*> withDefault "strokes" [] (list Paint.read) ms
    <*> optional "stroke_weight" number ms

end Paints

namespace Radii

/-- The radii of the corners. -/
def ofMembers (ms : Json.Members) : Reading Radii :=
  Radii.mk
    <$> optional "corner_radius" number ms
    <*> optional "top_left_radius" number ms
    <*> optional "top_right_radius" number ms
    <*> optional "bottom_left_radius" number ms
    <*> optional "bottom_right_radius" number ms

end Radii

namespace TextContent

/-- The content of a text node. -/
def ofMembers (ms : Json.Members) : Reading TextContent :=
  TextContent.mk
    <$> withDefault "characters" "" text ms
    <*> withDefault "fills" [] (list Paint.read) ms
    <*> optional "font_family" text ms
    <*> optional "font_size" number ms
    <*> optional "font_weight" number ms
    <*> optional "text_align_horizontal" text ms

/-- The keys that a style gives to the text that it belongs to. -/
def styleKeys : List String :=
  ["fontFamily", "fontSize", "fontWeight", "textAlignHorizontal"]

/-- The members of a text with those of a style for some keys. Members of the text's own
stay. -/
def liftStyle (style : Json) : List String → Json.Members → Except Json.Defect Json.Members
  | [], ms => .ok ms
  | key :: keys, ms =>
    match style.mentions key with
    | .error d => .error d
    | .ok false => liftStyle style keys ms
    | .ok true =>
      if Json.hasKey key ms then liftStyle style keys ms
      else
        match style.required key with
        | .error d => .error d
        | .ok v => liftStyle style keys (Json.insert key v ms)

/-- The members of a text with the family of a font, unless there is one already. -/
def liftFont (font : Option Json) (ms : Json.Members) : Json.Members :=
  match font with
  | some (.obj entries) =>
    Json.setDefault "fontFamily" ((Json.find? "family" entries).getD .null) ms
  | _ => ms

/-- The members of a text, to which its style and its font give what they have. -/
def lift (ms : Json.Members) : Except Json.Defect Json.Members :=
  let found := (Json.find? "style" ms).getD .null
  let style := if found.isVacant then .obj [] else found
  match liftStyle style styleKeys (Json.erase "style" ms) with
  | .error d => .error d
  | .ok lifted => .ok (liftFont (Json.find? "fontName" ms) (Json.erase "fontName" lifted))

end TextContent

namespace NodeClass

/-- The class of the node that an object stands for. -/
def ofMembers (ms : Json.Members) : Except Json.Defect NodeClass :=
  match Json.find? "type" ms with
  | some (.str type) => .ok (ofType type)
  | some (.arr _) => .error .unsuited
  | some (.obj _) => .error .unsuited
  | _ => .ok other

/-- The members from which a node of a class is read. -/
def lift (c : NodeClass) (ms : Json.Members) : Except Json.Defect Json.Members :=
  match c with
  | text => TextContent.lift ms
  | _ => .ok ms

/-- The type of a node. Only the class with many types has to give it. -/
def readType (c : NodeClass) (ms : Json.Members) : Reading String :=
  match c.type? with
  | some t => withDefault "type" t (literal t) ms
  | none => required "type" Reading.text ms

/-- The kind of a node, given its type. -/
def readKind (c : NodeClass) (ms : Json.Members) : Reading (String → Kind) :=
  match c with
  | frame => (fun mode _ => .frame mode) <$> withDefault "layout_mode" "NONE" Reading.text ms
  | shape form =>
    (fun paints radii _ => .shape form paints radii)
      <$> Paints.ofMembers ms <*> Radii.ofMembers ms
  | instanceOf =>
    (fun component _ => .instanceOf component) <$> optional "component_id" Reading.text ms
  | text => (fun content _ => .text content) <$> TextContent.ofMembers ms
  | path form => (fun paints _ => .path form paints) <$> Paints.ofMembers ms
  | other => value .other

/-- The type that the children of a node inherit as the type of their parent. -/
def inherited (c : NodeClass) (ms : Json.Members) : Option String :=
  match c.readType ms with
  | .value t => some t
  | _ => none

end NodeClass

namespace Node

/-- The node of a class with these members and children. -/
def assemble (c : NodeClass) (inherited : Option String) (ms : Json.Members)
    (children : Reading (List Node)) : Reading Node :=
  match c.lift ms with
  | .error d => .defect d
  | .ok ms =>
    (fun type attributes children kind => mk attributes (kind type) children)
      <$> c.readType ms
      <*> Attributes.ofMembers inherited ms
      <*> children.within (.key "children")
      <*> c.readKind ms

/-- The children among the items of a list, of which those without a node are no objects. -/
def sound (position : Nat) : List (Option Node) → Reading (List Node)
  | [] => value []
  | some n :: rest => (sound (position + 1) rest).map (n :: ·)
  | none :: rest =>
    Reading.both ((issue .notModel).within (.index position)) (sound (position + 1) rest)

mutual

/-- Reads a node. -/
def read (inherited : Option String) : Json → Reading Node
  | .obj ms =>
    match NodeClass.ofMembers ms with
    | .error d => .defect d
    | .ok c => assemble c inherited ms (childrenIn (c.inherited ms) ms)
  | _ => .defect .notObject

/-- Reads the children among the members of a node. -/
def childrenIn (parent : Option String) : List (String × Json) → Reading (List Node)
  | [] => value []
  | (key, v) :: rest =>
    if key = "children" then childrenOf parent v else childrenIn parent rest

/-- Reads the children of a node. Null stands for none. -/
def childrenOf (parent : Option String) : Json → Reading (List Node)
  | .null => value []
  | .arr items => (readItems parent items).andThen (sound 0)
  | .str s => sound 0 (s.toList.map fun _ => none)
  | .obj ms => sound 0 (ms.map fun _ => none)
  | _ => .defect .unsuited

/-- Reads the objects among the items of a list, one after the other. -/
def readItems (parent : Option String) : List Json → Reading (List (Option Node))
  | [] => value []
  | v :: vs =>
    match v with
    | .obj _ =>
      (read parent v).andThen fun n => (readItems parent vs).map (some n :: ·)
    | _ => (readItems parent vs).map (none :: ·)

end

/-- The node with these members, whose children have been read already. -/
def ofMembers (ms : Json.Members) (children : List Node) : Reading Node :=
  match NodeClass.ofMembers ms with
  | .error d => .defect d
  | .ok c => assemble c none ms (value children)

/-- Reads a node of a certain class. -/
def readAs (c : NodeClass) : Json → Reading Node :=
  object fun ms => assemble c none ms (childrenIn (c.inherited ms) ms)

end Node
end SceneMarkup
