import SceneMarkup.Scene.Reader

/-!
# Variables and components in answers of the service

Variables and collections come in one answer, components beside the document of the node that
uses them. Every entry is found under its identifier.
-/

namespace SceneMarkup.Library

open Json (Defect)

/-- The readings of entries, in order. The first one that fails ends the reading. -/
def eachEntry {α : Type} (read : String → Json → Reading α) :
    Json.Members → Reading (List (String × α))
  | [] => .value []
  | (key, v) :: rest =>
    (read key v).andThen fun a => (eachEntry read rest).map ((key, a) :: ·)

/-- A reading of what an access finds. -/
def onAccess {α β : Type} (found : Except Defect α) (read : α → Reading β) : Reading β :=
  match found with
  | .ok a => read a
  | .error d => .defect d

/-- The entries under a key, none when the key is missing. -/
def entriesUnder (key : String) (v : Json) : Except Defect Json.Members := do
  (← v.memberD key (.obj [])).entries

/-- What a variable is read from. -/
def variableMembers (key : String) (v : Json) : Except Defect Json.Members := do
  return [
    ("id", ← v.memberD "id" (.str key)),
    ("name", ← v.memberD "name" (.str "")),
    ("variable_collection_id", ← v.memberD "variableCollectionId" (.str ""))]

/-- A variable under its identifier. -/
def variableEntry (key : String) (v : Json) : Reading Variable :=
  onAccess (variableMembers key v) Variable.ofMembers

/-- A collection under its identifier. An identifier of its own counts more. -/
def collectionEntry (key : String) : Json → Reading VariableCollection
  | .obj ms => VariableCollection.ofMembers (Json.ofPairs (("id", .str key) :: ms))
  | _ => .defect .unsuited

/-- The variables and the collections of an answer. -/
def read (answer : Json) :
    Reading (List (String × Variable) × List (String × VariableCollection)) :=
  onAccess (answer.memberD "meta" (.obj [])) fun content =>
    (onAccess (entriesUnder "variables" content) (eachEntry variableEntry)).andThen fun vs =>
      (onAccess (entriesUnder "variableCollections" content)
        (eachEntry collectionEntry)).map fun cs => (vs, cs)

/-- The value that a key, which itself comes from outside, has in a table of sets; none when it
is vacant or missing. In a list a key that is among the items serves as an index. -/
def setUnder (sets key : Json) : Except Defect (Option Json) :=
  if key.isVacant then .ok none
  else
    match sets, key with
    | .obj _, .arr _ => .error .unsuited
    | .obj _, .obj _ => .error .unsuited
    | .obj ms, .str k => .ok (Json.find? k ms)
    | .obj _, _ => .ok none
    | .arr items, key =>
      if items.any fun v => v.same key then (Json.itemAt items key).map some else .ok none
    | .str text, .str k => do
      if ← (Json.str text).mentions k then .error .unsuited else .ok none
    | _, _ => .error .unsuited

/-- The name of the set that a component belongs to. -/
def setName (sets details : Json) : Except Defect Json := do
  match ← setUnder sets (← details.memberD "componentSetId" .null) with
  | some v => v.memberD "name" .null
  | none => return .null

/-- What a component is read from. -/
def componentMembers (sets : Json) (key : String) (v : Json) : Except Defect Json.Members := do
  let set ← setName sets v
  return [
    ("id", .str key),
    ("name", ← v.memberD "name" (.str "")),
    ("component_set_name", set)]

/-- The components beside a document. -/
def components (item : Json) : Reading (List (String × MainComponent)) :=
  onAccess (item.memberD "componentSets" (.obj [])) fun sets =>
    onAccess (entriesUnder "components" item)
      (eachEntry fun key v => onAccess (componentMembers sets key v) MainComponent.ofMembers)

end SceneMarkup.Library
