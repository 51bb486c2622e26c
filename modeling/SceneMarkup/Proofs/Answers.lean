import Mathlib.Data.List.Forall2
import Mathlib.Data.List.Permutation
import SceneMarkup.Proofs.Exchanges

/-!
# Well-formed answers

The service answers with values of unknown shape. This file says beside the program what the answers
look like when nothing is wrong with them, and what the client finds in them:

* `IsStructure`: the pages of a file with what sits on them; `parentTypeIn_of_isStructure` finds the
  type of the first page that holds a node;
* `IsRendered`: a table with an address for each node that has been rendered;
* `arrivals`: the downloads from these addresses, one after the other. A download that fails costs
  its own drawing and no other one, and none of them ends the row (`downloads_goes`).
-/

namespace SceneMarkup

theorem Json.memberD_obj (ms : Json.Members) (key : String) (default : Json) :
    (Json.obj ms).memberD key default = .ok ((Json.find? key ms).getD default) :=
  rfl

namespace Client

open Exchange

/-- A page: its type, and the identifiers of what sits on it as far as there are any. -/
structure Page where
  type : String
  frames : List (Option String)

/-- A value describes something on a page. -/
inductive IsFrame : Json → Option String → Prop
  | mk {ms : Json.Members} {id : Option String} :
      Json.find? "id" ms = id.map .str → IsFrame (.obj ms) id

/-- A value describes a page. A page without a type is a canvas, and one without children is
empty. -/
inductive IsPage : Json → Page → Prop
  | mk {ms : Json.Members} {frames : List Json} {p : Page} :
      (Json.find? "children" ms).getD (.arr []) = .arr frames →
      List.Forall₂ IsFrame frames p.frames →
      (Json.find? "type" ms).getD (.str "CANVAS") = .str p.type →
      IsPage (.obj ms) p

/-- A value describes the pages of a file. -/
inductive IsStructure : Json → List Page → Prop
  | mk {top document : Json.Members} {children : List Json} {pages : List Page} :
      (Json.find? "document" top).getD (.obj []) = .obj document →
      (Json.find? "children" document).getD (.arr []) = .arr children →
      List.Forall₂ IsPage children pages →
      IsStructure (.obj top) pages

/-- The type of the first page that holds a node. -/
def typeOfPage? (node : String) (pages : List Page) : Option String :=
  (pages.find? fun p => p.frames.contains (some node)).map (·.type)

/-- A text, or null where there is none. -/
def textOrNull : Option String → Json
  | some s => .str s
  | none => .null

theorem equal_identifier (id : Option String) (node : String) :
    ((id.map Json.str).getD .null).equal (.str node) = (some node == id) := by
  cases id with
  | none => simp [Json.equal, Json.same, Json.samePlain, Json.ratio?]
  | some s => simp [Json.equal, Json.same, Json.samePlain, eq_comm]

/-- Whether a page holds a node is decided by the identifiers of its frames. -/
theorem holds_of_isFrame
    {node : String} {frames : List Json} {ids : List (Option String)}
    (h : List.Forall₂ IsFrame frames ids) :
    holds (.str node) frames = .ok (ids.contains (some node)) := by
  induction h with
  | nil => rfl
  | @cons v id frames ids hhead _ ih =>
      cases hhead with
      | @mk ms _ hid =>
          show (if ((Json.find? "id" ms).getD .null).equal (.str node) = true then .ok true
            else holds (.str node) frames) = _
          rw [hid, equal_identifier, List.contains_cons]
          by_cases hnode : (some node == id) = true
          · simp [hnode]
          · simp [hnode, ih]

/-- Among pages the type of the first one that holds the node is found. -/
theorem pageType_of_isPage
    {node : String} {children : List Json} {pages : List Page}
    (h : List.Forall₂ IsPage children pages) :
    pageType (.str node) children = .ok (textOrNull (typeOfPage? node pages)) := by
  induction h with
  | nil => rfl
  | @cons v p children pages hhead _ ih =>
      cases hhead with
      | @mk ms frames _ hframes hids htype =>
          simp only [pageType, Json.memberD_obj, hframes, htype, Bind.bind, Except.bind,
            Json.elements, holds_of_isFrame hids]
          cases hnode : p.frames.contains (some node) with
          | true => simp only [typeOfPage?, List.find?_cons, hnode]; rfl
          | false =>
              simp only [typeOfPage?, List.find?_cons, hnode] at ih ⊢
              exact ih

/-- In the structure of a file the type of the page with the node is found. -/
theorem parentTypeIn_of_isStructure
    {v : Json} {pages : List Page} (h : IsStructure v pages) (node : String) :
    parentTypeIn (.str node) v = .ok (textOrNull (typeOfPage? node pages)) := by
  cases h with
  | mk hdocument hchildren hpages =>
      simp only [parentTypeIn, Json.memberD_obj, hdocument, hchildren, Bind.bind, Except.bind,
        Json.elements]
      exact pageType_of_isPage hpages

/-- A value is a table of renderings, and nothing is said to have failed. -/
inductive IsRendered : Json → Json.Members → Prop
  | mk {top images : Json.Members} :
      ((Json.find? "err" top).getD .null).isVacant = true →
      (Json.find? "images" top).getD (.obj []) = .obj images →
      IsRendered (.obj top) images

/-- A value says why nothing could be rendered. -/
inductive FailsToRender : Json → Prop
  | mk {top : Json.Members} :
      ((Json.find? "err" top).getD .null).isVacant = false → FailsToRender (.obj top)

/-- An answer with renderings gives their addresses. -/
theorem renderMembers_of_isRendered {v : Json} {images : Json.Members} (h : IsRendered v images) :
    renderMembers v = .ok images := by
  cases h with
  | mk herr himages => simp [renderMembers, Json.memberD_obj, herr, himages, Json.entries]

/-- An answer that reports a failure to render is refused. -/
theorem renderMembers_of_failsToRender {v : Json} (h : FailsToRender v) :
    ∃ refusal, renderMembers v = .error (.refused refusal) := by
  cases h with
  | mk herr => simp [renderMembers, Json.memberD_obj, herr]

/-- The entry of a node in a table of renderings. -/
def rendering (images : Json.Members) (node : String) : Json :=
  (Json.find? node images).getD .null

/-- An entry is usable: there is no rendering, or it has an address from which it can be had. -/
inductive Usable : Json → Prop
  | none {v : Json} : v.isVacant = true → Usable v
  | address {address : String} {d : Destination} :
      Destination.ofAddress address = .ok d → d.isReachable = true → Usable (.str address)

variable {σ : Type} {server : Server σ} {token : String} {images : Json.Members}

/-- The drawing that comes back on a download: the body of a response of success. -/
def drawn? : WireReply → Option String
  | .ok r => if r.status = 200 then some r.body else none
  | .error _ => none

/-- Where a rendering can be had from, if there is one. -/
def source? : Json → Option Destination
  | .str address =>
    if address = "" then none
    else
      match Destination.ofAddress address with
      | .ok d => some d
      | .error _ => none
  | _ => none

/-- The drawing that arrives when a rendering is downloaded, and the state that this leaves the
server in. -/
def arrival (server : Server σ) (entry : Json) (s : σ) : Option String × σ :=
  match source? entry with
  | some d =>
    let (reply, s') := server ⟨d.address, d.parameters, none⟩ s
    (drawn? reply, s')
  | none => (none, s)

/-- The drawings that arrive when the renderings of nodes are downloaded one after the other. A
download that fails costs its own drawing and no other one. -/
def arrivals (server : Server σ) (images : Json.Members) :
    List String → σ → List (String × String) × σ
  | [], s => ([], s)
  | node :: rest, s =>
    let (drawing, s₁) := arrival server (rendering images node) s
    let (found, s') := arrivals server images rest s₁
    match drawing with
    | some body => ((node, body) :: found, s')
    | none => (found, s')

/-- Drawings under their nodes, where a later one replaces an earlier one of the same node. -/
def shelve (found before : List (String × String)) : List (String × String) :=
  found.foldl (fun shelf e => Tables.put e.1 e.2 shelf) before

theorem drawing?_goes_vacant
    {node : String} {s : σ} (h : (rendering images node).isVacant = true) :
    Goes token (drawing? server images node) s (.ok none) s := by
  unfold drawing?
  rw [← rendering]
  split
  next address hentry =>
    have haddress : address = "" := by simpa [hentry, Json.isVacant] using h
    rw [if_pos haddress]
    exact (goes_note _).bind (goes_done none)
  next =>
    rw [if_pos h]
    exact (goes_note _).bind (goes_done none)

theorem drawing?_eq_download
    {node address : String} (hentry : rendering images node = .str address)
    (haddress : address ≠ "") :
    drawing? server images node = download server node address := by
  unfold drawing?
  rw [← rendering, hentry]
  simp [haddress]

/-- Nothing that comes back on a download ends it in a failure. -/
theorem download_goes
    {node address : String} {d : Destination} {reply : WireReply} {s s' : σ}
    (hd : Destination.ofAddress address = .ok d) (hreachable : d.isReachable = true)
    (hreply : server ⟨d.address, d.parameters, none⟩ s = (reply, s')) :
    Goes token (download server node address) s (.ok (drawn? reply)) s' := by
  unfold download
  rw [hd]
  refine (goes_send hreply).bind ?_
  cases reply with
  | error f => exact (goes_note _).bind (goes_done none)
  | ok r =>
      simp only [hreachable, if_true, drawingIn, drawn?]
      split
      · exact goes_done (some r.body)
      · exact (goes_note _).bind (goes_done none)

/-- A usable entry has the drawing that arrives, if one does. -/
theorem drawing?_goes {node : String} (h : Usable (rendering images node)) (s : σ) :
    Goes token (drawing? server images node) s
      (.ok (arrival server (rendering images node) s).1)
      (arrival server (rendering images node) s).2 := by
  generalize hentry : rendering images node = entry at h ⊢
  by_cases hvacant : entry.isVacant = true
  · have hsource : source? entry = none := by
      cases entry <;> simp_all [source?, Json.isVacant]
    simp only [arrival, hsource]
    exact drawing?_goes_vacant (hentry ▸ hvacant)
  · cases h with
    | none hnone => exact absurd hnone hvacant
    | @address address d hd hreachable =>
        have haddress : address ≠ "" := by simpa [Json.isVacant] using hvacant
        have hsource : source? (.str address) = some d := by simp [source?, haddress, hd]
        simp only [arrival, hsource]
        rw [drawing?_eq_download hentry haddress]
        exact download_goes hd hreachable rfl

/-- Whatever the server does, the downloads of usable renderings come to what arrives. -/
theorem downloads_goes
    {nodes : List String} (h : ∀ node ∈ nodes, Usable (rendering images node)) (s : σ)
    (before : List (String × String)) :
    Goes token (downloads server images nodes before) s
      (.ok (shelve (arrivals server images nodes s).1 before))
      (arrivals server images nodes s).2 := by
  induction nodes generalizing s before with
  | nil => exact goes_done before
  | cons node rest ih =>
      obtain ⟨hnode, hrest⟩ := List.forall_mem_cons.1 h
      refine (drawing?_goes hnode s).bind ?_
      simp only [arrivals]
      cases (arrival server (rendering images node) s).1 with
      | none => exact ih hrest _ before
      | some body => exact ih hrest _ (Tables.put node body before)

section

variable {client : Client} {file : String} {nodes : List String}
variable {s s' s'' : σ} {reply : WireReply} {v : Json}

def documentsInquiry (file : String) (nodes : List String) : Inquiry :=
  ⟨"/v1/files/" ++ file ++ "/nodes", [("ids", ",".intercalate nodes), ("geometry", "paths")]⟩

def libraryInquiry (file : String) : Inquiry := ⟨"/v1/files/" ++ file ++ "/variables/local", []⟩

def rendersInquiry (file : String) (nodes : List String) (r : Rendering) : Inquiry :=
  ⟨"/v1/images/" ++ file, ("ids", ",".intercalate nodes) :: r.parameters⟩

def outlineInquiry (file : String) : Inquiry := ⟨"/v1/files/" ++ file, [("depth", "2")]⟩

theorem documents_goes_out
    (h : Answers server client (documentsInquiry file nodes) s reply s') (hout : Out reply) :
    ∃ refusal,
      Goes client.token (documents server client file nodes) s (.error (.refused refusal)) s' := by
  obtain ⟨refusal, hget⟩ := get_goes_out h hout
  exact ⟨refusal, hget.bind_error _⟩

theorem documents_goes
    (h : Answers server client (documentsInquiry file nodes) s reply s') (hv : Carries reply v)
    {n : Nat} (hsize : sizeUnder "nodes" v = .ok n) :
    Goes client.token (documents server client file nodes) s (.ok v) s' := by
  refine (get_goes_value h hv).bind ?_
  rw [hsize]
  refine (goes_done n).bind ?_
  exact (goes_note _).bind (goes_done v)

theorem library_goes_out
    (h : Answers server client (libraryInquiry file) s reply s') (hout : Out reply) :
    ∃ refusal,
      Goes client.token (library server client file) s (.error (.refused refusal)) s' := by
  obtain ⟨refusal, hget⟩ := get_goes_out h hout
  exact ⟨refusal, hget.bind_error _⟩

theorem library_goes
    (h : Answers server client (libraryInquiry file) s reply s') (hv : Carries reply v)
    {about : Json} {m n : Nat} (habout : v.memberD "meta" (.obj []) = .ok about)
    (hknown : sizeUnder "variables" about = .ok m)
    (hcollections : sizeUnder "variableCollections" about = .ok n) :
    Goes client.token (library server client file) s (.ok v) s' := by
  refine (get_goes_value h hv).bind ?_
  rw [habout]
  refine (goes_done about).bind ?_
  rw [hknown]
  refine (goes_done m).bind ?_
  rw [hcollections]
  refine (goes_done n).bind ?_
  exact (goes_note _).bind (goes_done v)

theorem renders_goes
    {r : Rendering} (h : Answers server client (rendersInquiry file nodes r) s reply s')
    (hv : Carries reply v) (himages : IsRendered v images) :
    Goes client.token (renders server client file nodes r) s (.ok images) s' := by
  refine (get_goes_value h hv).bind ?_
  rw [renderMembers_of_isRendered himages]
  exact (goes_note _).bind (goes_done images)

/-- Nothing is rendered when the service is out, and nothing when it says so itself. -/
theorem renders_goes_refused
    {r : Rendering} (h : Answers server client (rendersInquiry file nodes r) s reply s')
    (hreply : Out reply ∨ ∃ v, Carries reply v ∧ FailsToRender v) :
    ∃ refusal,
      Goes client.token (renders server client file nodes r) s (.error (.refused refusal)) s' := by
  rcases hreply with hout | ⟨v, hv, hfails⟩
  · obtain ⟨refusal, hget⟩ := get_goes_out h hout
    exact ⟨refusal, hget.bind_error _⟩
  · obtain ⟨refusal, hrefusal⟩ := renderMembers_of_failsToRender hfails
    refine ⟨refusal, (get_goes_value h hv).bind ?_⟩
    rw [hrefusal]
    exact goes_fail _

theorem drawings_goes_error
    (hnodes : nodes ≠ []) {f : Failure}
    (h : Goes client.token (renders server client file nodes .svg) s (.error f) s') :
    Goes client.token (drawings server client file nodes) s (.error f) s' := by
  rw [drawings, if_neg (by simpa using hnodes)]
  exact h.bind_error _

/-- Drawings are refused while the service is out or fails to render. -/
theorem drawings_goes_refused
    (hnodes : nodes ≠ [])
    (h : Answers server client (rendersInquiry file nodes .svg) s reply s')
    (hreply : Out reply ∨ ∃ v, Carries reply v ∧ FailsToRender v) :
    ∃ refusal,
      Goes client.token (drawings server client file nodes) s (.error (.refused refusal)) s' := by
  obtain ⟨refusal, hrenders⟩ := renders_goes_refused h hreply
  exact ⟨refusal, drawings_goes_error hnodes hrenders⟩

/-- Drawings are those that arrive, one request for each address. -/
theorem drawings_goes
    (hnodes : nodes ≠ [])
    (h : Answers server client (rendersInquiry file nodes .svg) s reply s')
    (hv : Carries reply v) (himages : IsRendered v images)
    (husable : ∀ node ∈ nodes, Usable (rendering images node)) :
    Goes client.token (drawings server client file nodes) s
      (.ok (shelve (arrivals server images nodes s').1 []))
      (arrivals server images nodes s').2 := by
  rw [drawings, if_neg (by simpa using hnodes)]
  exact (renders_goes h hv himages).bind (downloads_goes husable s' []).withDownloads

theorem parentType_goes_out
    (h : Answers server client (outlineInquiry file) s reply s') (hout : Out reply)
    (node : Json) :
    Goes client.token (parentType server client file node) s (.ok .null) s' := by
  obtain ⟨refusal, hget⟩ := get_goes_out h hout
  have houtline : Goes client.token (outline server client file) s (.ok none) s' :=
    (hget.bind_error _).orElse_refused ((goes_note _).bind (goes_done none))
  exact houtline.bind (goes_done Json.null)

/-- The parent type is that of the page on which the structure has the node. -/
theorem parentType_goes
    (h : Answers server client (outlineInquiry file) s reply s') (hv : Carries reply v)
    {pages : List Page} (hpages : IsStructure v pages) (node : String) :
    Goes client.token (parentType server client file (.str node)) s
      (.ok (textOrNull (typeOfPage? node pages))) s' := by
  have houtline : Goes client.token (outline server client file) s (.ok (some v)) s' :=
    ((get_goes_value h hv).bind (goes_done (some v))).orElse _
  refine houtline.bind ?_
  show Goes _ (access (parentTypeIn (.str node) v)) _ _ _
  rw [parentTypeIn_of_isStructure hpages]
  exact goes_done _

end

end Client
end SceneMarkup
