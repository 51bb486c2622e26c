import SceneMarkup.Scene.Library
import SceneMarkup.Scene.Node

/-!
# Questions to a design host

Generation sees nothing of a design but the scene tree. Whatever else it needs it asks of a
design host, one question at a time. A host may keep a state, so that the same question need
not get the same answer twice.
-/

namespace SceneMarkup

/-- Why a design host does not answer. -/
inductive HostFault
  /-- The host cannot serve the request. -/
  | refused (message : String)
  /-- The host failed in a way of its own. -/
  | failed (message : String)
  deriving DecidableEq

/-- The message of a host fault. -/
def HostFault.message : HostFault → String
  | refused m => m
  | failed m => m

/-- A question to a design host. -/
inductive Query
  /-- The variable with an identifier. -/
  | variableById (id : String)
  /-- The collection with an identifier. -/
  | collectionById (id : String)
  /-- The component that an instance shows. -/
  | componentOf (node : Node)
  /-- The drawing of a node as an SVG document. -/
  | drawingOf (node : Node)

/-- What a host answers when it does not fail. -/
def Query.Answer : Query → Type
  | variableById _ => Option Variable
  | collectionById _ => Option VariableCollection
  | componentOf _ => Option MainComponent
  | drawingOf _ => String

/-- The reply of a host to a question. -/
abbrev Query.Reply (q : Query) : Type := Except HostFault q.Answer

/-- A host with a state. -/
def Host (σ : Type) : Type := (q : Query) → σ → q.Reply × σ

/-- A host that gives the same reply whenever it gets the same question. -/
def Host.constant (reply : (q : Query) → q.Reply) : Host Unit := fun q s => (reply q, s)

end SceneMarkup
