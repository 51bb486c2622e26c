/-!
# Variables, collections and components of a design
-/

namespace SceneMarkup

/-- A variable and the collection it belongs to. -/
structure Variable where
  id : String
  name : String
  collectionId : String
  deriving DecidableEq

/-- A mode of a collection, such as light or dark. -/
structure VariableMode where
  id : String
  name : String
  deriving DecidableEq

/-- A collection of variables. -/
structure VariableCollection where
  id : String
  name : String
  modes : List VariableMode
  deriving DecidableEq

/-- The component that an instance shows. Variants live in a set. -/
structure MainComponent where
  id : String
  name : String
  setName : Option String
  deriving DecidableEq

/-- The public name of a component: that of its set, unless there is none. -/
def MainComponent.declaredName (c : MainComponent) : String :=
  match c.setName with
  | some s => if s = "" then c.name else s
  | none => c.name

end SceneMarkup
