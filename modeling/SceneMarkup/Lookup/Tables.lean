import SceneMarkup.Lookup.Query

/-!
# Tables of a design

Tables hold what is known of a design in advance. They answer every question at once; only a
drawing that they lack is refused.
-/

namespace SceneMarkup

/-- What is known of a design, each entry under its identifier. -/
structure Tables where
  known : List (String × Variable)
  collections : List (String × VariableCollection)
  components : List (String × MainComponent)
  drawings : List (String × String)

namespace Tables

variable {α : Type}

/-- Tables without entries. -/
def empty : Tables := ⟨[], [], [], []⟩

/-- The entry under a key. -/
def lookup? (key : String) : List (String × α) → Option α
  | [] => none
  | (k, a) :: rest => if k = key then some a else lookup? key rest

/-- The entries with one put under a key. A new key comes last, an old one keeps its place. -/
def put (key : String) (value : α) : List (String × α) → List (String × α)
  | [] => [(key, value)]
  | (k, a) :: rest => if k = key then (key, value) :: rest else (k, a) :: put key value rest

/-- The component of an instance that names one. -/
def component? (t : Tables) (n : Node) : Option MainComponent :=
  match n.componentId? with
  | some id => if id = "" then none else lookup? id t.components
  | none => none

/-- The reply of the tables to a question. -/
def reply (t : Tables) : (q : Query) → q.Reply
  | .variableById id => .ok (lookup? id t.known)
  | .collectionById id => .ok (lookup? id t.collections)
  | .componentOf n => .ok (t.component? n)
  | .drawingOf n =>
    match lookup? n.id t.drawings with
    | some svg => .ok svg
    | none => .error (.refused ("No SVG export available for node " ++ n.id))

/-- The tables as a host. -/
def host (t : Tables) : Host Unit := Host.constant t.reply

end Tables
end SceneMarkup
