import SceneMarkup.Proofs.Answers
import SceneMarkup.Proofs.Parents
import SceneMarkup.Service.Snapshot

/-!
# Snapshots in outages

A snapshot is put together from four requests, of which only the first one is indispensable. Each of
the other three gives its own part of the snapshot, or fails and leaves this part empty: the place
of the node (`GivesPlace`), the variables and collections (`GivesLibrary`), the drawings
(`GivesDrawings`). `load_degrades` puts the parts together, so that an outage of one request changes
nothing in the parts of the others.

The server may change its state from one request to the next, and each part is between two states.
-/

namespace SceneMarkup

/-- Whichever parent a node has, its tree has the same identifiers. -/
theorem Node.idsOfTypes_under (types : List String) (parent : Option String) (n : Node) :
    (n.under parent).idsOfTypes types = n.idsOfTypes types := by
  cases n with
  | mk a k cs => simp only [Node.under, Node.idsOfTypes, Attributes.under]

namespace Snapshot

open Exchange Client

variable {σ : Type} {server : Server σ} {client : Client} {file node : String}

/-- The service gives the entry of a node, and in it the document of the node. -/
inductive GivesEntry (server : Server σ) (client : Client) (file node : String) :
    σ → Json.Members → Json → σ → Prop
  | mk {top nodes fields : Json.Members} {document : Json} {reply : WireReply} {s s' : σ} :
      Answers server client (documentsInquiry file [node]) s reply s' →
      Carries reply (.obj top) →
      Json.find? "nodes" top = some (.obj nodes) →
      Json.find? node nodes = some (.obj fields) →
      Json.find? "document" fields = some document → document.isVacant = false →
      GivesEntry server client file node s fields document s'

/-- The service gives the structure of a file, and with it the type of the page that a node sits on,
or it is out. -/
inductive GivesPlace (server : Server σ) (client : Client) (file node : String) :
    σ → Option String → σ → Prop
  | out {reply : WireReply} {s s' : σ} :
      Answers server client (outlineInquiry file) s reply s' → Out reply →
      GivesPlace server client file node s none s'
  | found {reply : WireReply} {v : Json} {pages : List Page} {s s' : σ} :
      Answers server client (outlineInquiry file) s reply s' → Carries reply v →
      IsStructure v pages →
      GivesPlace server client file node s (typeOfPage? node pages) s'

/-- The service gives the variables and the collections of a file, or it is out. It is not asked
when variables are not followed. -/
inductive GivesLibrary (server : Server σ) (client : Client) (file : String) :
    Bool → σ → List (String × Variable) × List (String × VariableCollection) → σ → Prop
  | unfollowed {s : σ} : GivesLibrary server client file false s ([], []) s
  | out {reply : WireReply} {s s' : σ} :
      Answers server client (libraryInquiry file) s reply s' → Out reply →
      GivesLibrary server client file true s ([], []) s'
  | found {reply : WireReply} {v : Json} {s s' : σ}
      {library : List (String × Variable) × List (String × VariableCollection)} :
      Answers server client (libraryInquiry file) s reply s' → Carries reply v →
      Library.read v = .value library →
      GivesLibrary server client file true s library s'

/-- The service renders nodes, of which those are drawn whose downloads succeed, or it is out or
fails to render. It is not asked when there is nothing to draw. -/
inductive GivesDrawings (server : Server σ) (client : Client) (file : String) :
    List String → σ → List (String × String) → σ → Prop
  | none {s : σ} : GivesDrawings server client file [] s [] s
  | out {nodes : List String} {reply : WireReply} {s s' : σ} :
      nodes ≠ [] →
      Answers server client (rendersInquiry file nodes .svg) s reply s' →
      (Out reply ∨ ∃ v, Carries reply v ∧ FailsToRender v) →
      GivesDrawings server client file nodes s [] s'
  | found {nodes : List String} {reply : WireReply} {v : Json} {images : Json.Members} {s s' : σ} :
      nodes ≠ [] →
      Answers server client (rendersInquiry file nodes .svg) s reply s' → Carries reply v →
      IsRendered v images → (∀ node ∈ nodes, Usable (rendering images node)) →
      GivesDrawings server client file nodes s (shelve (arrivals server images nodes s').1 [])
        (arrivals server images nodes s').2

theorem value_of_andThen
    {α β : Type} {r : Reading α} {k : α → Reading β} {b : β} (h : r.andThen k = .value b) :
    ∃ a, r = .value a ∧ k a = .value b := by
  cases r with
  | value a => exact ⟨a, rfl, h⟩
  | invalid issues => cases h
  | defect d => cases h

theorem value_of_onAccess
    {α β : Type} {found : Except Json.Defect α} {read : α → Reading β} {b : β}
    (h : Library.onAccess found read = .value b) :
    ∃ a, found = .ok a ∧ read a = .value b := by
  cases found with
  | ok a => exact ⟨a, rfl, h⟩
  | error d => cases h

/-- Entries that can be listed can be counted. -/
theorem sizeUnder_of_entriesUnder
    {key : String} {v : Json} {ms : Json.Members} (h : Library.entriesUnder key v = .ok ms) :
    sizeUnder key v = .ok ms.length := by
  unfold Library.entriesUnder at h
  unfold sizeUnder
  cases hfound : v.memberD key (.obj []) with
  | error d =>
      rw [hfound] at h
      cases h
  | ok found =>
      rw [hfound] at h
      cases found with
      | obj ms' =>
          cases h
          simp [Bind.bind, Except.bind, Json.size, Json.elements]
      | _ => cases h

/-- What the client counts in an answer is there if the answer is accepted. -/
theorem sizes_of_read
    {v : Json} {library : List (String × Variable) × List (String × VariableCollection)}
    (h : Library.read v = .value library) :
    ∃ about m n, v.memberD "meta" (.obj []) = .ok about ∧ sizeUnder "variables" about = .ok m ∧
      sizeUnder "variableCollections" about = .ok n := by
  obtain ⟨about, habout, hparts⟩ := value_of_onAccess h
  obtain ⟨known, hknown, hrest⟩ := value_of_andThen hparts
  obtain ⟨entries, hentries, -⟩ := value_of_onAccess hknown
  cases hcollections : Library.entriesUnder "variableCollections" about with
  | error d =>
      rw [hcollections] at hrest
      cases hrest
  | ok collections =>
      exact ⟨about, _, _, habout, sizeUnder_of_entriesUnder hentries,
        sizeUnder_of_entriesUnder hcollections⟩

/-- An entry that the service gives is found in its answer. -/
theorem GivesEntry.goes
    {fields : Json.Members} {document : Json} {s s' : σ}
    (h : GivesEntry server client file node s fields document s') :
    ∃ data, Goes client.token (documents server client file [node]) s (.ok data) s' ∧
      entryOf file node data = .ok (document, .obj fields) := by
  cases h with
  | @mk top nodes _ _ reply _ _ hanswers hcarries hnodes hnode hdocument hfull =>
      have hsize : sizeUnder "nodes" (.obj top) = .ok nodes.length := by
        simp [sizeUnder, Json.memberD_obj, hnodes, Bind.bind, Except.bind, Json.size, Json.elements]
      have hnodes' : (Json.obj top).memberOrEmpty "nodes" = .ok (.obj nodes) := by
        cases nodes with
        | nil => cases hnode
        | cons m rest => simp [Json.memberOrEmpty, Json.memberD_obj, hnodes, Json.isVacant]
      have hentry : (Json.obj nodes).memberD node .null = .ok (.obj fields) := by
        rw [Json.memberD_obj, hnode, Option.getD_some]
      have hvacant : (Json.obj fields).isVacant = false := by
        cases fields with
        | nil => cases hdocument
        | cons m rest => rfl
      refine ⟨.obj top, documents_goes hanswers hcarries hsize, ?_⟩
      simp [entryOf, hnodes', hentry, hvacant, Bind.bind, Except.bind, Json.memberD_obj, hdocument,
        hfull]

/-- A place that the service gives, or not, becomes the parent type. -/
theorem GivesPlace.goes
    {place : Option String} {s s' : σ} (h : GivesPlace server client file node s place s') :
    Goes client.token (parentType server client file (.str node)) s
      (.ok (textOrNull place)) s' := by
  cases h with
  | out hanswers hout => exact parentType_goes_out hanswers hout _
  | found hanswers hcarries hpages => exact parentType_goes hanswers hcarries hpages node

/-- A library that the service gives, or not, is read or left empty. -/
theorem GivesLibrary.goes
    {followed : Bool} {s s' : σ}
    {known : List (String × Variable)} {collections : List (String × VariableCollection)}
    (h : GivesLibrary server client file followed s (known, collections) s') :
    Goes client.token
      (if followed = true then Snapshot.library server client file else pure ([], [])) s
      (.ok (known, collections)) s' := by
  cases h with
  | unfollowed => exact goes_done ([], [])
  | out hanswers hout =>
      obtain ⟨refusal, hrefused⟩ := library_goes_out hanswers hout
      refine Goes.bind (a := none) ?_ (goes_done ([], []))
      exact (hrefused.bind_error _).orElse_refused ((goes_note _).bind (goes_done none))
  | found hanswers hcarries hread =>
      obtain ⟨about, m, n, habout, hm, hn⟩ := sizes_of_read hread
      have hlibrary := library_goes hanswers hcarries habout hm hn
      refine ((hlibrary.bind (goes_done (some _))).orElse _).bind ?_
      simp only [hread]
      exact (goes_done (known, collections)).bind ((goes_note _).bind (goes_done _))

/-- Drawings that the service gives, or not, are kept or left out. -/
theorem GivesDrawings.goes
    {nodes : List String} {svgs : List (String × String)} {s s' : σ}
    (h : GivesDrawings server client file nodes s svgs s') :
    Goes client.token
      (if nodes.isEmpty = true then pure [] else Snapshot.drawings server client file nodes) s
      (.ok svgs) s' := by
  cases h with
  | none => exact goes_done []
  | out hnodes hanswers hreply =>
      rw [if_neg (by simpa using hnodes)]
      obtain ⟨refusal, hrefused⟩ := drawings_goes_refused hnodes hanswers hreply
      exact hrefused.orElse_refused ((goes_note _).bind (goes_done []))
  | found hnodes hanswers hcarries hrendered husable =>
      rw [if_neg (by simpa using hnodes)]
      exact (drawings_goes hnodes hanswers hcarries hrendered husable).orElse _

/-- A snapshot is loaded part by part, each with the server that the part before has left. -/
theorem load_goes
    {fields : Json.Members} {document : Json} {scene : Node}
    {components : List (String × MainComponent)} {place : Option String} {followed : Bool}
    {library : List (String × Variable) × List (String × VariableCollection)}
    {svgs : List (String × String)} {s s₁ s₂ s₃ s₄ : σ}
    (hentry : GivesEntry server client file node s fields document s₁)
    (hplace : GivesPlace server client file node s₁ place s₂)
    (hscene : Document.node .null (textOrNull place) document = .value scene)
    (hcomponents : Library.components (.obj fields) = .value components)
    (hlibrary : GivesLibrary server client file followed s₂ library s₃)
    (hdrawings :
      GivesDrawings server client file (scene.idsOfTypes drawnTypes) s₃ svgs s₄) :
    Goes client.token (load server client file node followed) s
      (.ok ⟨scene, ⟨library.1, library.2, components, svgs⟩⟩) s₄ := by
  obtain ⟨data, hdata, hfound⟩ := hentry.goes
  obtain ⟨known, collections⟩ := library
  refine hdata.bind ?_
  simp only [hfound]
  refine hplace.goes.bind ?_
  simp only [hscene]
  refine (goes_done scene).bind ?_
  simp only [hcomponents]
  refine (goes_done components).bind ?_
  refine hlibrary.goes.branch ?_
  refine hdrawings.goes.branch ?_
  exact (goes_note _).bind (goes_done _)

/-- **A snapshot degrades part by part.** If the entry of a node comes, with a document and
components that are accepted, and each of the other requests gives its part of the snapshot or is
out, then the snapshot is loaded from the parts that came. -/
theorem load_degrades
    {σ : Type} {server : Server σ} {client : Client} {file node : String} {followed : Bool}
    {l : Line σ ServiceNotice} {fields : Json.Members} {document : Json} {scene : Node}
    {components : List (String × MainComponent)} {place : Option String}
    {library : List (String × Variable) × List (String × VariableCollection)}
    {svgs : List (String × String)} {s₁ s₂ s₃ s₄ : σ}
    (hready : Ready client.token l)
    (hentry : GivesEntry server client file node l.server fields document s₁)
    (hscene : Document.node .null .null document = .value scene)
    (hcomponents : Library.components (.obj fields) = .value components)
    (hplace : GivesPlace server client file node s₁ place s₂)
    (hlibrary : GivesLibrary server client file followed s₂ library s₃)
    (hdrawings :
      GivesDrawings server client file (scene.idsOfTypes drawnTypes) s₃ svgs s₄) :
    Document.node .null (textOrNull place) document = .value (scene.under place) ∧
    ∃ l', load server client file node followed l =
      (.ok ⟨scene.under place, ⟨library.1, library.2, components, svgs⟩⟩, l') := by
  have hplaced : Document.node .null (textOrNull place) document = .value (scene.under place) := by
    rw [Document.node_under none place, textOrNull, hscene]
    rfl
  rw [← Node.idsOfTypes_under _ place] at hdrawings
  obtain ⟨l', hl', -, -⟩ :=
    load_goes hentry hplace hplaced hcomponents hlibrary hdrawings l hready rfl
  exact ⟨hplaced, l', hl'⟩

/-- The document of a frame with two paths. -/
def pathsDocument : Json :=
  .obj [("type", .str "FRAME"), ("children", .arr [
    .obj [("id", .str "3"), ("type", .str "VECTOR")],
    .obj [("id", .str "4"), ("type", .str "LINE")]])]

/-- The entry of this frame, with a component that belongs to a set. -/
def pathsEntry : Json.Members :=
  [("document", pathsDocument),
    ("components", .obj [("5", .obj [("name", .str "dark"), ("componentSetId", .str "6")])]),
    ("componentSets", .obj [("6", .obj [("name", .str "button")])])]

/-- An answer with this entry. -/
def entryBody : String :=
  "\x7b\"nodes\": \x7b\"2\": \x7b\"document\": \x7b\"type\": \"FRAME\", \"children\": [" ++
    "\x7b\"id\": \"3\", \"type\": \"VECTOR\"\x7d, " ++
    "\x7b\"id\": \"4\", \"type\": \"LINE\"\x7d]\x7d, " ++
    "\"components\": \x7b\"5\": \x7b\"name\": \"dark\", \"componentSetId\": \"6\"\x7d\x7d, " ++
    "\"componentSets\": \x7b\"6\": \x7b\"name\": \"button\"\x7d\x7d\x7d\x7d\x7d"

/-- An answer with one variable. -/
def libraryBody : String :=
  "\x7b\"meta\": \x7b\"variables\": \x7b\"v\": \x7b\"name\": \"gap\"\x7d\x7d\x7d\x7d"

/-- An answer with renderings of both paths. -/
def imagesBody : String :=
  "\x7b\"images\": \x7b\"3\": \"http://a/3\", \"4\": \"http://a/4\"\x7d\x7d"

/-- A service that takes too long for the structure of a file and breaks one of two downloads
off. -/
def faltering : Server Unit := fun r s =>
  (if r.address = "/v1/files/f/nodes" then .ok ⟨200, entryBody⟩
  else if r.address = "/v1/files/f" then .error (.timedOut "slow")
  else if r.address = "/v1/files/f/variables/local" then .ok ⟨200, libraryBody⟩
  else if r.address = "/v1/images/f" then .ok ⟨200, imagesBody⟩
  else if r.address = "http://a/4" then .ok ⟨200, "<svg/>"⟩
  else .error (.readFailed "reset"), s)

theorem entryBody_reads :
    Json.readBody entryBody =
      .ok (.obj [("nodes", .obj [("2", .obj pathsEntry)])]) := by
  cbv

theorem libraryBody_reads :
    Json.readBody libraryBody =
      .ok (.obj [("meta", .obj [("variables", .obj [("v", .obj [("name", .str "gap")])])])]) := by
  cbv

theorem imagesBody_reads :
    Json.readBody imagesBody =
      .ok (.obj [("images", .obj [("3", .str "http://a/3"), ("4", .str "http://a/4")])]) := by
  cbv

/-- The snapshot of the frame has the component under the name of its set, the variable and the one
drawing that arrives, and no place. -/
theorem load_degrades_faltering :
    ∃ scene l', Document.node .null .null pathsDocument = .value scene ∧
      load faltering ⟨"token", .one⟩ "f" "2" true (Line.fresh ()) =
        (.ok ⟨scene.under none, ⟨[("v", ⟨"v", "gap", ""⟩)], [],
          [("5", ⟨"5", "dark", some "button"⟩)], [("4", "<svg/>")]⟩⟩, l') := by
  have hentry :
      GivesEntry faltering ⟨"token", .one⟩ "f" "2" () pathsEntry pathsDocument () :=
    .mk ⟨_, rfl, rfl⟩ (.mk entryBody_reads) rfl rfl rfl rfl
  obtain ⟨scene, hscene, hids⟩ : ∃ scene, Document.node .null .null pathsDocument = .value scene ∧
      scene.idsOfTypes drawnTypes = ["3", "4"] := by
    simp only [pathsDocument, Document.node, Document.read, Document.readChildren,
      Document.readElements, Document.readAll]
    exact ⟨_, rfl, rfl⟩
  have hplace : GivesPlace faltering ⟨"token", .one⟩ "f" "2" () none () :=
    .out ⟨_, rfl, rfl⟩ .timedOut
  have hlibrary :
      GivesLibrary faltering ⟨"token", .one⟩ "f" true () ([("v", ⟨"v", "gap", ""⟩)], []) () :=
    .found ⟨_, rfl, rfl⟩ (.mk libraryBody_reads) rfl
  have hdrawings :
      GivesDrawings faltering ⟨"token", .one⟩ "f" ["3", "4"] () [("4", "<svg/>")] () := by
    refine .found (List.cons_ne_nil _ _) ⟨_, rfl, rfl⟩ (.mk imagesBody_reads) (.mk rfl rfl) ?_
    intro node hnode
    simp only [List.mem_cons, List.not_mem_nil, or_false] at hnode
    rcases hnode with rfl | rfl
    · exact .address rfl rfl
    · exact .address rfl rfl
  obtain ⟨-, l', hl'⟩ :=
    load_degrades (l := Line.fresh ()) (.inr (by decide)) hentry hscene rfl hplace hlibrary
      (hids ▸ hdrawings)
  exact ⟨scene, l', hscene, hl'⟩

end Snapshot
end SceneMarkup
