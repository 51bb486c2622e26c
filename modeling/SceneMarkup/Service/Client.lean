import SceneMarkup.Json.Reader
import SceneMarkup.Lookup.Tables
import SceneMarkup.Service.Notice

/-!
# The client of the design service

A client asks the service for documents, variables and renderings. Answers of the service are
data of unknown shape and are looked into only as far as a question needs.
-/

namespace SceneMarkup

/-- A client with its token and the time that it waits for a response. -/
structure Client where
  token : String
  timeout : Binary64

namespace Client

/-- The client with a token, or with the one of the settings when it is missing or empty. -/
def create (token : Option String) (otherwise : String) (timeout : Binary64) :
    Except Refusal Client :=
  let chosen := match token with
    | some t => if t = "" then otherwise else t
    | none => otherwise
  if chosen = "" then .error .noToken else .ok ⟨chosen, timeout⟩

/-- The content of a response. Only one status stands for success. -/
def content (address : String) (r : Response) : Except Failure Json :=
  if r.status = 403 then .error (.refused .forbidden)
  else if r.status = 404 then .error (.refused (.notFound address))
  else if r.status = 429 then .error (.refused .tooMany)
  else if r.status ≠ 200 then .error (.refused (.badStatus r.status r.body))
  else
    match Json.readBody r.body with
    | .ok v => .ok v
    | .error f => .error (.unreadable f)

/-- The content of what comes back on a request. -/
def outcome (address : String) : WireReply → Except Failure Json
  | .ok r => content address r
  | .error (.timedOut _) => .error (.refused (.timedOut address))
  | .error (.notConnected _) => .error (.refused (.notConnected address))
  | .error f => .error (.transport f)

section

variable {σ : Type} (server : Server σ) (client : Client)

/-- Asks the service for what is under a path. -/
def get (path : String) (parameters : List (String × String)) :
    Exchange σ ServiceNotice Json := do
  Exchange.connect client.token
  match Destination.ofPath path parameters with
  | .error d => Exchange.fail (.unaddressed d)
  | .ok d =>
    let reply ← Exchange.send server ⟨d.address, d.parameters, some client.token⟩
    match outcome path reply with
    | .ok v => return v
    | .error f => Exchange.fail f

/-- The number of elements under a key, zero when the key is missing. -/
def sizeUnder (key : String) (v : Json) : Except Json.Defect Nat := do
  (← v.memberD key (.obj [])).size

/-- The documents of nodes. -/
def documents (file : String) (nodes : List String) : Exchange σ ServiceNotice Json := do
  let data ← get server client ("/v1/files/" ++ file ++ "/nodes")
    [("ids", ",".intercalate nodes), ("geometry", "paths")]
  let returned ← Exchange.access (sizeUnder "nodes" data)
  Exchange.note (.nodesCame file nodes.length returned)
  return data

/-- The variables and the collections of a file. -/
def library (file : String) : Exchange σ ServiceNotice Json := do
  let data ← get server client ("/v1/files/" ++ file ++ "/variables/local") []
  let about ← Exchange.access (data.memberD "meta" (.obj []))
  let known ← Exchange.access (sizeUnder "variables" about)
  let collections ← Exchange.access (sizeUnder "variableCollections" about)
  Exchange.note (.variablesCame file known collections)
  return data

/-- How nodes are rendered: the formats that are asked for, the name of the format in notices,
and the scale. -/
structure Rendering where
  formats : List String
  name : String
  scale : String

/-- Rendering as SVG documents. -/
def Rendering.svg : Rendering := ⟨["svg"], "svg", "1"⟩

/-- The parameters of a rendering. -/
def Rendering.parameters (r : Rendering) : List (String × String) :=
  r.formats.map (fun f => ("format", f)) ++ [("scale", r.scale)]

/-- The addresses of an answer to a request for renderings. -/
def renderMembers (data : Json) : Except Failure Json.Members :=
  match data.memberD "err" .null with
  | .error d => .error (.defect d)
  | .ok reason =>
    if reason.isVacant then
      match data.memberD "images" (.obj []) with
      | .error d => .error (.defect d)
      | .ok images =>
        match images.entries with
        | .ok ms => .ok ms
        | .error d => .error (.defect d)
    else .error (.refused (.renderFailed reason))

/-- The addresses of renderings of nodes. -/
def renders (file : String) (nodes : List String) (r : Rendering) :
    Exchange σ ServiceNotice Json.Members := do
  let data ← get server client ("/v1/images/" ++ file)
    (("ids", ",".intercalate nodes) :: r.parameters)
  match renderMembers data with
  | .error f => Exchange.fail f
  | .ok images =>
    let rendered := (images.filter fun m => !m.2.isVacant).length
    Exchange.note (.rendersCame file r.name nodes.length rendered)
    return images

/-- The drawing that a response to a download brings. -/
def drawingIn (node : String) (r : Response) : Exchange σ ServiceNotice (Option String) := do
  if r.status = 200 then return some r.body
  else
    Exchange.note (.downloadStatus node r.status)
    return none

/-- The drawing under an address. -/
def download (node address : String) : Exchange σ ServiceNotice (Option String) := do
  match Destination.ofAddress address with
  | .error d => Exchange.fail (.unaddressed d)
  | .ok d =>
    match ← Exchange.send server ⟨d.address, d.parameters, none⟩ with
    | .error f =>
      Exchange.note (.downloadFailed node f.message)
      return none
    | .ok r => if d.isReachable then drawingIn node r else Exchange.fail (.noScheme d.address)

/-- The drawing of a node, if it has a rendering that can be had. -/
def drawing? (images : Json.Members) (node : String) :
    Exchange σ ServiceNotice (Option String) := do
  match (Json.find? node images).getD .null with
  | .str address =>
    if address = "" then
      Exchange.note (.noRender node)
      return none
    else download server node address
  | v =>
    if v.isVacant then
      Exchange.note (.noRender node)
      return none
    else Exchange.fail (.defect .unsuited)

/-- The drawings of nodes, one after the other, added to those that are there. -/
def downloads (images : Json.Members) :
    List String → List (String × String) → Exchange σ ServiceNotice (List (String × String))
  | [], found => return found
  | node :: rest, found => do
    match ← drawing? server images node with
    | some svg => downloads images rest (Tables.put node svg found)
    | none => downloads images rest found

/-- The drawings of nodes. Nodes without one are left out. -/
def drawings (file : String) (nodes : List String) :
    Exchange σ ServiceNotice (List (String × String)) := do
  if nodes.isEmpty then return []
  else
    let images ← renders server client file nodes Rendering.svg
    Exchange.withDownloads (downloads server images nodes [])

/-- The drawing of a node. -/
def drawing (file node : String) : Exchange σ ServiceNotice String := do
  match Tables.lookup? node (← drawings server client file [node]) with
  | some svg => return svg
  | none => Exchange.refuse (.noDrawing node)

end

/-- Whether one of the elements of a page is a node. -/
def holds (node : Json) : List Json → Except Json.Defect Bool
  | [] => return false
  | v :: vs => do
    if (← v.memberD "id" .null).equal node then return true else holds node vs

/-- The type of the first page that holds a node. -/
def pageType (node : Json) : List Json → Except Json.Defect Json
  | [] => return .null
  | page :: pages => do
    let frames ← (← page.memberD "children" (.arr [])).elements
    if ← holds node frames then page.memberD "type" (.str "CANVAS")
    else pageType node pages

/-- The type of the page that holds a node, in the structure of a file. -/
def parentTypeIn (node file : Json) : Except Json.Defect Json := do
  let document ← file.memberD "document" (.obj [])
  pageType node (← (← document.memberD "children" (.arr [])).elements)

section

variable {σ : Type} (server : Server σ) (client : Client)

/-- The structure of a file down to what sits on its pages; none when it is not available. -/
def outline (file : String) : Exchange σ ServiceNotice (Option Json) :=
  Exchange.orElse
    (do return some (← get server client ("/v1/files/" ++ file) [("depth", "2")]))
    fun r => do
      Exchange.note (.noStructure r)
      return none

/-- The type of the page that a node sits on, null when it sits deeper. -/
def parentType (file : String) (node : Json) : Exchange σ ServiceNotice Json := do
  match ← outline server client file with
  | some data => Exchange.access (parentTypeIn node data)
  | none => return .null

end

/-- An exchange after which the client holds no connection. -/
def during {σ α : Type} (x : Exchange σ ServiceNotice α) : Exchange σ ServiceNotice α :=
  Exchange.ensuring x Exchange.hangUp

end Client
end SceneMarkup
