import SceneMarkup.Markup.Block
import SceneMarkup.Markup.Declaration

/-!
# Snippets

The snippet of a scene has one block for each node, nested as the nodes are. An instance is a
block of its component, and what is inside it is left to the component.
-/

namespace SceneMarkup.Snippet

/-- The element that a frame becomes. -/
def frameKeyword (layoutMode : String) : String :=
  if layoutMode = "HORIZONTAL" then "HorizontalLayout"
  else if layoutMode = "VERTICAL" then "VerticalLayout"
  else "Rectangle"

/-- The element that a kind of node becomes; that of an instance is its component. -/
def keyword : Kind → String
  | .frame mode => frameKeyword mode
  | .text _ => "Text"
  | .path .. => "Path"
  | _ => "Rectangle"

/-- The remark on a kind that has no element of its own. -/
def remark : Kind → Option String
  | .other type => some ("Unsupported type: " ++ type)
  | _ => none

/-- The properties of a class of nodes, in order. -/
def properties (c : NodeClass) : List Property := Property.shared ++ Property.ofClass c

/-- The component of an instance; none when the design does not know it. -/
def component (n : Node) : Script (Option MainComponent) := do
  match ← Script.attempt (.componentOf n) with
  | .ok (found : Option MainComponent) => return found
  | .error f =>
    Script.notify (.componentFailed n.name n.id f)
    return none

/-- The block of an instance. -/
def instanceBlock (n : Node) : Script Block := do
  let identifier := Text.kebab n.name
  match ← component n with
  | some c => return .mk (some (Text.pascal c.declaredName)) (some identifier) none [] []
  | none =>
    return .mk none none (some ("Main component not found for instance: " ++ identifier)) [] []

mutual

/-- The block of a node. -/
def block (followed : Bool) : Node → Script Block
  | .mk a k children =>
    match k with
    | .instanceOf _ => instanceBlock (.mk a k children)
    | _ => do
      let lines ← Property.allLines followed (.mk a k children) (properties k.nodeClass)
      let inner ← blocks followed children
      return .mk (some (keyword k)) (some (Text.kebab a.name)) (remark k) lines inner

/-- The blocks of a row of nodes. -/
def blocks (followed : Bool) : List Node → Script (List Block)
  | [] => return []
  | n :: rest => do
    let b ← block followed n
    let bs ← blocks followed rest
    return b :: bs

end

/-- The snippet of a scene. -/
def text (followed : Bool) (n : Node) : Script String := do
  return (← block followed n).render

end SceneMarkup.Snippet
