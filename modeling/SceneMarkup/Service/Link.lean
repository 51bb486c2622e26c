import SceneMarkup.Text.Identifier
import SceneMarkup.Text.Percent
import SceneMarkup.Text.Search

/-!
# Links to nodes

A link names a file of the design service and a node in it. The identifier of the node may be
percent-encoded, and a hyphen in it stands for a colon.
-/

namespace SceneMarkup

/-- A node of a file. -/
structure Link where
  file : String
  node : String
  deriving DecidableEq

namespace Link

/-- Why a text is no link to a node. -/
inductive Defect
  | noFile | noNode
  deriving DecidableEq

/-- The message of a defect. -/
def Defect.message : Defect → String
  | noFile =>
    "Invalid Figma URL. Expected format: " ++
      "https://www.figma.com/design/\x7bfileKey\x7d/...?node-id=\x7bnodeId\x7d"
  | noNode => "Figma URL must include a node-id parameter."

/-- The characters of a class in front of a text; none is nothing. -/
def leading? (p : Char → Bool) (cs : List Char) : Option (List Char) :=
  match cs.takeWhile p with
  | [] => none
  | found => some found

/-- The key of the file behind the name of the service. -/
def keyHere? (cs : List Char) : Option (List Char) :=
  ((Text.after? "design/".toList cs).orElse fun _ => Text.after? "file/".toList cs).bind
    (leading? Text.isAsciiAlphanum)

/-- The key of the first file that is named. -/
def fileKey? (cs : List Char) : Option (List Char) :=
  Text.search "figma.com/".toList keyHere? cs

/-- The value of the parameter that starts here. -/
def parameterHere? : List Char → Option (List Char)
  | [] => none
  | c :: cs =>
    if c = '?' ∨ c = '&' then
      (Text.after? "node-id=".toList cs).bind (leading? fun d => d ≠ '&' ∧ d ≠ '#')
    else none

/-- The value of the first parameter with the identifier of a node. -/
def parameter? (cs : List Char) : Option (List Char) :=
  Text.search [] parameterHere? cs

/-- The identifier that the value of a parameter stands for. -/
def nodeId (cs : List Char) : List Char :=
  (Text.Percent.decode cs).map fun c => if c = '-' then ':' else c

/-- Reads a link. -/
def read (text : String) : Except Defect Link :=
  match fileKey? text.toList with
  | none => .error .noFile
  | some key =>
    match parameter? text.toList with
    | none => .error .noNode
    | some value => .ok ⟨String.ofList key, String.ofList (nodeId value)⟩

end Link
end SceneMarkup
