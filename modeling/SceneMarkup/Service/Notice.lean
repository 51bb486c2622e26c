import SceneMarkup.Json.Printer
import SceneMarkup.Service.Exchange

/-!
# Messages about the design service
-/

namespace SceneMarkup

/-- The message of a refusal. -/
def Refusal.message : Refusal → String
  | badLink d => d.message
  | noToken =>
    "Figma token not configured. Set FIGMA_TOKEN environment variable " ++
      "or pass token= to FigmaClient()."
  | timedOut address => "Figma API timeout: " ++ address
  | notConnected address => "Figma API connection error: " ++ address
  | forbidden =>
    "Figma API returned 403 Forbidden. Check that FIGMA_TOKEN is valid " ++
      "and has file_content:read scope."
  | notFound address => "Figma resource not found: " ++ address
  | tooMany => "Figma API rate limit exceeded. Retry later."
  | badStatus status body =>
    "Figma API error " ++ toString status ++ ": " ++ String.ofList (body.toList.take 200)
  | renderFailed reason => "Figma image render error: " ++ reason.shown
  | noDrawing node => "Figma returned no SVG render for node " ++ node
  | noNode node file => "Node " ++ node ++ " not found in file " ++ file

/-- The message of a failure. -/
def Failure.message : Failure → String
  | refused r => r.message
  | transport f => f.message
  | unreadable (.longInteger digits) => Number.longIntegerMessage digits
  | unreadable _ => "The answer of the service is not JSON."
  | unaddressed _ => "The address of a request is not valid."
  | noScheme address => "unknown url type: " ++ Text.shown address
  | defect _ => "The answer of the service is not of the expected shape."
  | invalid _ => "The answer of the service holds invalid values."

/-- Something that an exchange leaves a notice of. -/
inductive ServiceNotice
  /-- Documents of nodes have come. -/
  | nodesCame (file : String) (requested returned : Nat)
  /-- Variables and collections have come. -/
  | variablesCame (file : String) (known collections : Nat)
  /-- Addresses of renderings have come. -/
  | rendersCame (file format : String) (requested rendered : Nat)
  /-- A node has no rendering. -/
  | noRender (node : String)
  /-- The download of a rendering has failed. -/
  | downloadFailed (node message : String)
  /-- The download of a rendering has another status than success. -/
  | downloadStatus (node : String) (status : Nat)
  /-- The structure of the file is not available. -/
  | noStructure (r : Refusal)
  /-- Variables and collections have been read. -/
  | variablesRead (known collections : Nat)
  /-- Variables are not available. -/
  | noVariables (r : Refusal)
  /-- Drawings are not available. -/
  | noDrawings (r : Refusal)
  /-- A snapshot is complete. -/
  | loaded (file node type : String) (known components drawings paths : Nat)

namespace ServiceNotice

/-- The level of a notice. -/
def level : ServiceNotice → Log.Level
  | nodesCame .. => .info
  | variablesCame .. => .info
  | rendersCame .. => .info
  | variablesRead .. => .info
  | loaded .. => .info
  | _ => .warning

/-- The message of a notice. -/
def message : ServiceNotice → String
  | nodesCame file requested returned =>
    "get_file_nodes: file=" ++ file ++ ", requested=" ++ toString requested ++
      ", returned=" ++ toString returned
  | variablesCame file known collections =>
    "get_file_variables: file=" ++ file ++ ", variables=" ++ toString known ++
      ", collections=" ++ toString collections
  | rendersCame file format requested rendered =>
    "get_node_images: file=" ++ file ++ ", format=" ++ format ++
      ", requested=" ++ toString requested ++ ", rendered=" ++ toString rendered
  | noRender node => "export_svgs: no render URL for node " ++ node
  | downloadFailed node text =>
    "export_svgs: download failed for node " ++ node ++ ": " ++ text
  | downloadStatus node status =>
    "export_svgs: download returned " ++ toString status ++ " for node " ++ node
  | noStructure r => "get_parent_type: failed to fetch file structure: " ++ r.message
  | variablesRead known collections =>
    "parse_variables_response: " ++ toString known ++ " variables, " ++
      toString collections ++ " collections"
  | noVariables r =>
    "load_snapshot: variables unavailable, emitting literals: " ++ r.message
  | noDrawings r => "load_snapshot: SVG export failed: " ++ r.message
  | loaded file node type known components drawings paths =>
    "load_snapshot: file=" ++ file ++ ", node=" ++ node ++ ", type=" ++ type ++
      ", variables=" ++ toString known ++ ", components=" ++ toString components ++
      ", svgs=" ++ toString drawings ++ "/" ++ toString paths

/-- The record of a notice. -/
def toRecord (n : ServiceNotice) : Log.Record :=
  ⟨n.level, "figma_inspector.integrations.figma", n.message⟩

end ServiceNotice
end SceneMarkup
