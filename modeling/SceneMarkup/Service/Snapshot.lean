import SceneMarkup.Service.Client
import SceneMarkup.Service.Document
import SceneMarkup.Service.Library

/-!
# Snapshots

A snapshot holds a scene and all that generation may ask about it, so that generation itself
needs no exchange. Only the document of the node is indispensable; what else is not available
is left out.
-/

namespace SceneMarkup

/-- A scene with the tables of its design. -/
structure Snapshot where
  node : Node
  tables : Tables

namespace Snapshot

/-- The types of nodes that need a drawing. -/
def drawnTypes : List String := ["LINE", "VECTOR"]

/-- The part of an answer that is about a node: its document and what stands beside it. -/
def entryOf (file node : String) (data : Json) : Except Failure (Json × Json) :=
  match do (← data.memberOrEmpty "nodes").memberD node .null with
  | .error d => .error (.defect d)
  | .ok found =>
    if found.isVacant then .error (.refused (.noNode node file))
    else
      match found.memberD "document" .null with
      | .error d => .error (.defect d)
      | .ok document =>
        if document.isVacant then .error (.refused (.noNode node file))
        else .ok (document, found)

section

variable {σ : Type} (server : Server σ) (client : Client)

/-- The variables and the collections of a file, none when they are not available. -/
def library (file : String) :
    Exchange σ ServiceNotice (List (String × Variable) × List (String × VariableCollection)) := do
  let answer ← Exchange.orElse
    (do return some (← client.library server file))
    fun r => do
      Exchange.note (.noVariables r)
      return none
  match answer with
  | none => return ([], [])
  | some data =>
    let found ← Exchange.reading (Library.read data)
    Exchange.note (.variablesRead found.1.length found.2.length)
    return found

/-- The drawings of nodes, none when they are not available. -/
def drawings (file : String) (nodes : List String) :
    Exchange σ ServiceNotice (List (String × String)) :=
  Exchange.orElse (client.drawings server file nodes)
    fun r => do
      Exchange.note (.noDrawings r)
      return []

/-- The snapshot of a node. Variables are fetched only if they are followed. -/
def load (file node : String) (followed : Bool) : Exchange σ ServiceNotice Snapshot := do
  let data ← client.documents server file [node]
  match entryOf file node data with
  | .error f => Exchange.fail f
  | .ok (document, entry) =>
    let parentType ← client.parentType server file (.str node)
    let scene ← Exchange.reading (Document.node .null parentType document)
    let components ← Exchange.reading (Library.components entry)
    let (known, collections) ←
      if followed then library server client file else pure ([], [])
    let paths := scene.idsOfTypes drawnTypes
    let svgs ← if paths.isEmpty then pure [] else drawings server client file paths
    Exchange.note (.loaded file node scene.type known.length components.length svgs.length
      paths.length)
    return ⟨scene, ⟨known, collections, components, svgs⟩⟩

end

end Snapshot
end SceneMarkup
