import SceneMarkup.Markup.Script
import SceneMarkup.Text.Identifier

/-!
# References to variables

A variable is read through the global of its collection, along the segments of its name. The
values of a collection with several modes are reached through `current`, which stands for the
mode in force.
-/

namespace SceneMarkup.Reference

/-- The place of a collection's values: its global, or what is in force of it. -/
def scope (c : VariableCollection) : String :=
  if 1 < c.modes.length then Text.pascal c.name ++ ".current" else Text.pascal c.name

/-- The components of the path to a variable inside its collection. -/
def components (v : Variable) : List String := (Text.segments v.name).map Text.kebab

/-- The path to a variable. The path to one whose name has no segments ends in a point. -/
def path (c : VariableCollection) (v : Variable) : String :=
  scope c ++ "." ++ ".".intercalate (components v)

/-- The path to the variable with an identifier, if the design has it and its collection. -/
def resolve (id : String) : Script (Option String) := do
  match ← Script.query (.variableById id) with
  | none => return none
  | some (v : Variable) =>
    match ← Script.query (.collectionById v.collectionId) with
    | none =>
      Script.notify (.noCollection id)
      return none
    | some (c : VariableCollection) => return some (path c v)

end SceneMarkup.Reference
