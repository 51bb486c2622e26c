import Mathlib.Data.Bool.AllAny
import SceneMarkup.Proofs.Destinations
import SceneMarkup.Proofs.Downloads
import SceneMarkup.Proofs.TagSearch

/-!
# What is asked for a snapshot

Everything that is asked of the service for a snapshot concerns its one file: the entry of the node,
the structure of the file, renderings, and the variables if they are followed. The service cannot
lead the client to ask for anything else with its token, whatever it replies. Downloads are another
matter: they go wherever the service has put a drawing, but without the token, and only to where it
has said so before.

* `Client.Grounded`: rows of requests that are sent for a reason. Each request is an inquiry of some
  kind or the download of something that an earlier reply has told of.
* `Snapshot.load_grounded`: the requests for a snapshot are such a row, with the inquiries of
  `Snapshot.Concerns`.
* `Link.file_of_read`: the key of a file is made of letters and digits, so the paths of these
  requests are plain, and each request goes to the path of its inquiry.
* `Snapshot.no_library`: without following variables, no request with the token goes to the
  variables of any file.
-/

namespace SceneMarkup

open Text

/-- The state of a server after a row of requests. -/
def Server.after {σ : Type} (server : Server σ) (s : σ) (sent : List Request) : σ :=
  sent.foldl (fun s q => (server q s).2) s

theorem Server.after_snoc {σ : Type} (server : Server σ) (s : σ) (sent : List Request)
    (q : Request) :
    server.after s (sent ++ [q]) = (server q (server.after s sent)).2 := by
  simp [Server.after]

namespace Client

open Exchange

variable {σ : Type} {server : Server σ} {client : Client} {s : σ} {file : String}

/-- What counts as a result is carried by a response of success. -/
theorem carries_of_outcome {path : String} {reply : WireReply} {v : Json}
    (h : outcome path reply = .ok v) : Carries reply v := by
  cases reply with
  | error f => cases f <;> cases h
  | ok r =>
      obtain ⟨status, body⟩ := r
      simp only [outcome, content] at h
      split at h
      · cases h
      · split at h
        · cases h
        · split at h
          · cases h
          · split at h
            · cases h
            next hstatus =>
              obtain rfl := not_not.1 hstatus
              cases hbody : Json.readBody body with
              | error f =>
                  rw [hbody] at h
                  cases h
              | ok w =>
                  rw [hbody] at h
                  cases h
                  exact .mk hbody

/-- One of the requests in a row is for renderings, and its reply has been this table. The state of
the server is that after the requests before it. -/
inductive Gave (server : Server σ) (client : Client) (file : String) (s : σ)
    (images : Json.Members) :
    List Request → Prop
  | mk {before after : List Request} {nodes : List String} {d : Destination} {v : Json} :
      Destination.ofPath (rendersInquiry file nodes .svg).path
        (rendersInquiry file nodes .svg).parameters = .ok d →
      Carries (server (client.asking d) (server.after s before)).1 v →
      renderMembers v = .ok images →
      Gave server client file s images (before ++ client.asking d :: after)

/-- What has been replied stays so, whatever is sent after it. -/
theorem Gave.append {images : Json.Members} {sent : List Request}
    (h : Gave server client file s images sent) (more : List Request) :
    Gave server client file s images (sent ++ more) := by
  cases h with
  | mk hd hv himages =>
      rw [List.append_assoc, List.cons_append]
      exact .mk hd hv himages

/-- The service has told of a destination: it is where an entry of a table of renderings leads. -/
inductive Told (server : Server σ) (client : Client) (file : String) (s : σ) (sent : List Request) :
    Destination → Prop
  | mk {images : Json.Members} {node address : String} {d : Destination} :
      Gave server client file s images sent →
      rendering images node = .str address →
      Destination.ofAddress address = .ok d →
      Told server client file s sent d

/-- A row of requests that are sent for a reason: each is an inquiry of some kind, or the download
of something that the service has told of before. -/
inductive Grounded
    (server : Server σ) (client : Client) (file : String) (s : σ) (kind : Inquiry → Prop) :
    List Request → Prop
  | start : Grounded server client file s kind []
  | asked {sent : List Request} {i : Inquiry} {d : Destination} :
      Grounded server client file s kind sent →
      kind i →
      Destination.ofPath i.path i.parameters = .ok d →
      Grounded server client file s kind (sent ++ [client.asking d])
  | told {sent : List Request} {d : Destination} :
      Grounded server client file s kind sent →
      Told server client file s sent d →
      Grounded server client file s kind (sent ++ [d.download])

variable {kind : Inquiry → Prop} {sent : List Request} {q : Request}

/-- A request that carries the token is an inquiry of the kind. -/
theorem Grounded.asking_of_token
    (h : Grounded server client file s kind sent) (hq : q ∈ sent) (htoken : q.token ≠ none) :
    ∃ i d, kind i ∧ Destination.ofPath i.path i.parameters = .ok d ∧ q = client.asking d := by
  induction h with
  | start => cases hq
  | @asked sent i d _ hi hd ih =>
      rcases List.mem_append.1 hq with hbefore | hnew
      · exact ih hbefore
      · exact ⟨i, d, hi, hd, List.mem_singleton.1 hnew⟩
  | told _ _ ih =>
      rcases List.mem_append.1 hq with hbefore | hnew
      · exact ih hbefore
      · rw [List.mem_singleton.1 hnew] at htoken
        exact absurd rfl htoken

/-- A request without the token is the download of something that the requests before it have
brought. -/
theorem Grounded.download_of_no_token
    (h : Grounded server client file s kind sent) (hq : q ∈ sent) (htoken : q.token = none) :
    ∃ before after d, sent = before ++ q :: after ∧ Told server client file s before d ∧
      q = d.download := by
  induction h with
  | start => cases hq
  | @asked sent i d _ _ _ ih =>
      rcases List.mem_append.1 hq with hbefore | hnew
      · obtain ⟨before, after, d', rfl, htold, hdownload⟩ := ih hbefore
        exact ⟨before, after ++ [client.asking d], d', by simp, htold, hdownload⟩
      · rw [List.mem_singleton.1 hnew] at htoken
        cases htoken
  | @told sent d _ htold ih =>
      rcases List.mem_append.1 hq with hbefore | hnew
      · obtain ⟨before, after, d', rfl, htold', hdownload⟩ := ih hbefore
        exact ⟨before, after ++ [d.download], d', by simp, htold', hdownload⟩
      · obtain rfl := List.mem_singleton.1 hnew
        exact ⟨sent, [], d, rfl, htold, rfl⟩

/-- The requests on a line are sent for a reason, and the server is where they have brought it. -/
def Reached (server : Server σ) (client : Client) (file : String) (s : σ) (kind : Inquiry → Prop)
    (sent : List Request) (state : σ) : Prop :=
  state = server.after s sent ∧ Grounded server client file s kind sent

/-- Making an inquiry of the kind. -/
theorem get_reached {i : Inquiry} (hi : kind i) :
    Preserves (Reached server client file s kind) (get server client i.path i.parameters) := by
  refine get_preserves server client ?_
  rintro d hd sent state ⟨rfl, hsent⟩
  exact ⟨(server.after_snoc s sent _).symm, hsent.asked hi hd⟩

theorem documents_reached {nodes : List String} (h : kind (documentsInquiry file nodes)) :
    Preserves (Reached server client file s kind) (documents server client file nodes) :=
  (get_reached h).bind fun data => (preserves_access (sizeUnder "nodes" data)).bind fun _ =>
    (preserves_note _).bind fun _ => preserves_done data

theorem library_reached (h : kind (libraryInquiry file)) :
    Preserves (Reached server client file s kind) (library server client file) :=
  (get_reached h).bind fun data => (preserves_access (data.memberD "meta" (.obj []))).bind
    fun about => (preserves_access (sizeUnder "variables" about)).bind fun _ =>
      (preserves_access (sizeUnder "variableCollections" about)).bind fun _ =>
        (preserves_note _).bind fun _ => preserves_done data

theorem parentType_reached (node : Json) (h : kind (outlineInquiry file)) :
    Preserves (Reached server client file s kind) (parentType server client file node) := by
  have houtline : Preserves (Reached server client file s kind) (outline server client file) := by
    refine Preserves.orElse ?_ ?_
    · exact (get_reached h).bind fun data => preserves_done (some data)
    · intro r
      exact (preserves_note _).bind fun _ => preserves_done none
  refine houtline.bind ?_
  intro found
  cases found with
  | some data => exact preserves_access _
  | none => exact preserves_done _

theorem renders_reached {nodes : List String} (h : kind (rendersInquiry file nodes .svg)) :
    Preserves (Reached server client file s kind) (renders server client file nodes .svg) := by
  refine (get_reached h).bind ?_
  intro data
  split
  · exact preserves_fail _
  · exact (preserves_note _).bind fun _ => preserves_done _

/-- A table of renderings that comes out of a call is one that a reply has given. -/
theorem renders_gave
    {nodes : List String} {l m : Line σ ServiceNotice} {images : Json.Members}
    (hl : l.server = server.after s l.requests)
    (h : renders server client file nodes .svg l = (.ok images, m)) :
    Gave server client file s images m.requests := by
  rcases hget : get server client ("/v1/images/" ++ file)
    (("ids", ",".intercalate nodes) :: Rendering.svg.parameters) l with ⟨f | v, l'⟩
  · rw [renders, bind_error hget] at h
    cases h
  · obtain ⟨d, hd, hrequests, houtcome⟩ := get_ok server client hget
    rw [hl] at houtcome
    rw [renders, bind_ok hget] at h
    dsimp only at h
    cases himages : renderMembers v with
    | error f =>
        rw [himages] at h
        cases h
    | ok ms =>
        rw [himages] at h
        cases h
        rw [Line.requests_noted, hrequests]
        exact .mk hd (carries_of_outcome houtcome) himages

/-- A download sends one request at most. -/
theorem download_preserves
    {J : List Request → σ → Prop} (node : String) {address : String}
    (hsend : ∀ d, Destination.ofAddress address = .ok d → ∀ sent state, J sent state →
      J (sent ++ [d.download]) (server d.download state).2) :
    Preserves J (download server node address) := by
  unfold download
  split
  · exact preserves_fail _
  next d hd =>
    refine (preserves_send (hsend d hd)).bind ?_
    intro reply
    split
    · exact (preserves_note _).bind fun _ => preserves_done none
    · unfold drawingIn
      split
      · split
        · exact preserves_done _
        · exact (preserves_note _).bind fun _ => preserves_done none
      · exact preserves_fail _

/-- While a table of renderings is at hand, a download is of one of its entries. -/
theorem drawing?_reached (images : Json.Members) (node : String) :
    Preserves (fun sent state => Reached server client file s kind sent state ∧
      Gave server client file s images sent) (drawing? server images node) := by
  unfold drawing?
  split
  next address hentry =>
    split
    · exact (preserves_note _).bind fun _ => preserves_done none
    · refine download_preserves node ?_
      rintro d hd sent state ⟨⟨rfl, hsent⟩, hgave⟩
      exact ⟨⟨(server.after_snoc s sent _).symm, hsent.told (.mk hgave hentry hd)⟩, hgave.append _⟩
  · split
    · exact (preserves_note _).bind fun _ => preserves_done none
    · exact preserves_fail _

theorem downloads_reached (images : Json.Members) (nodes : List String)
    (found : List (String × String)) :
    Preserves (fun sent state => Reached server client file s kind sent state ∧
      Gave server client file s images sent) (downloads server images nodes found) := by
  induction nodes generalizing found with
  | nil => exact preserves_done found
  | cons node rest ih =>
      refine (drawing?_reached images node).bind ?_
      intro svg
      cases svg with
      | some svg => exact ih (Tables.put node svg found)
      | none => exact ih found

theorem drawings_reached {nodes : List String} (h : kind (rendersInquiry file nodes .svg)) :
    Preserves (Reached server client file s kind) (drawings server client file nodes) := by
  unfold drawings
  split
  · exact preserves_done []
  · intro l hl
    have hm := renders_reached h l hl
    rcases hrun : renders server client file nodes .svg l with ⟨f | images, m⟩
    · rw [hrun] at hm
      rw [bind_error hrun]
      exact hm
    · rw [hrun] at hm
      rw [bind_ok hrun]
      exact ((downloads_reached images nodes []).withDownloads m
        ⟨hm, renders_gave hl.1 hrun⟩).1

end Client

namespace Snapshot

open Exchange Client

/-- What is asked for the snapshot of a node. -/
inductive Concerns (file node : String) (followed : Bool) : Inquiry → Prop
  | entry : Concerns file node followed (documentsInquiry file [node])
  | place : Concerns file node followed (outlineInquiry file)
  | library : followed = true → Concerns file node followed (libraryInquiry file)
  | renderings (nodes : List String) :
      Concerns file node followed (rendersInquiry file nodes .svg)

variable {σ : Type} {server : Server σ} {client : Client} {s : σ} {file node : String}

theorem library_reached {followed : Bool} (hfollowed : followed = true) :
    Preserves (Reached server client file s (Concerns file node followed))
      (library server client file) := by
  refine Preserves.bind ?_ ?_
  · refine Preserves.orElse ?_ ?_
    · exact (Client.library_reached (.library hfollowed)).bind
        fun data => preserves_done (some data)
    · intro r
      exact (preserves_note _).bind fun _ => preserves_done none
  · intro answer
    cases answer with
    | none => exact preserves_done _
    | some data =>
        exact (preserves_reading _).bind fun found =>
          (preserves_note _).bind fun _ => preserves_done found

theorem load_reached (followed : Bool) :
    Preserves (Reached server client file s (Concerns file node followed))
      (load server client file node followed) := by
  refine (documents_reached .entry).bind ?_
  intro data
  dsimp only
  split
  · exact preserves_fail _
  · refine (parentType_reached _ .place).bind ?_
    intro parentType
    refine (preserves_reading _).bind ?_
    intro scene
    refine (preserves_reading _).bind ?_
    intro components
    refine Preserves.branch library_reached (preserves_done _) ?_
    intro found
    refine Preserves.branch (fun _ => preserves_done _) ?_ ?_
    · refine (drawings_reached (.renderings _)).orElse ?_
      intro r
      exact (preserves_note _).bind fun _ => preserves_done []
    · intro svgs
      exact (preserves_note _).bind fun _ => preserves_done _

/-- All requests for a snapshot are sent for a reason. -/
theorem load_grounded
    {followed : Bool} {r : Except Failure Snapshot} {l : Line σ ServiceNotice}
    (h : load server client file node followed (Line.fresh s) = (r, l)) :
    Grounded server client file s (Concerns file node followed) l.requests := by
  have hload : Preserves (Reached server client file s (Concerns file node followed))
      (load server client file node followed) :=
    load_reached followed
  have hreached := hload (Line.fresh s) ⟨rfl, .start⟩
  rw [h] at hreached
  exact hreached.2

end Snapshot

namespace Link

theorem leading?_eq_some {p : Char → Bool} {cs found : List Char} (h : leading? p cs = some found) :
    found ≠ [] ∧ ∀ c ∈ found, p c = true := by
  unfold leading? at h
  split at h
  · cases h
  next hne =>
    cases h
    exact ⟨hne, fun c hc => List.mem_takeWhile_imp hc⟩

theorem keyHere?_eq_some {cs key : List Char} (h : keyHere? cs = some key) :
    key ≠ [] ∧ ∀ c ∈ key, isAsciiAlphanum c = true := by
  obtain ⟨behind, -, hkey⟩ := Option.bind_eq_some_iff.1 h
  exact leading?_eq_some hkey

/-- The key of a file is a row of letters and digits. -/
theorem file_of_read {text : String} {link : Link} (h : read text = .ok link) :
    ∀ c ∈ link.file.toList, isAsciiAlphanum c = true := by
  unfold read at h
  split at h
  · cases h
  next key hkey =>
    obtain ⟨before, behind, -, hhere⟩ := search_eq_some hkey
    split at h
    · cases h
    · cases h
      rw [String.toList_ofList]
      exact (keyHere?_eq_some hhere).2

end Link

/-- A text of letters, digits and slashes, each found to be one. -/
theorem forall_plain {text : String}
    (h : (text.toList.all fun c => decide (isAsciiAlphanum c = true ∨ c = '/')) = true) :
    ∀ c ∈ text.toList, isAsciiAlphanum c = true ∨ c = '/' :=
  List.all_iff_forall_prop.1 h

theorem IsPlainPath.append {cs ds : List Char} (h : IsPlainPath cs)
    (hds : ∀ d ∈ ds, isAsciiAlphanum d = true ∨ d = '/') :
    IsPlainPath (cs ++ ds) := by
  obtain ⟨c, rest, rfl, hc, hrest⟩ := h
  exact ⟨c, rest ++ ds, rfl, hc, List.forall_mem_append.2 ⟨hrest, hds⟩⟩

namespace Snapshot

open Client

variable {file node : String} {client : Client} {q : Request}

theorem Concerns.isPlainPath {followed : Bool} {i : Inquiry} (h : Concerns file node followed i)
    (hfile : ∀ c ∈ file.toList, isAsciiAlphanum c = true) :
    IsPlainPath i.path.toList := by
  have hkey : ∀ c ∈ file.toList, isAsciiAlphanum c = true ∨ c = '/' := fun c hc => .inl (hfile c hc)
  have hfiles : IsPlainPath ("/v1/files/" ++ file).toList := by
    rw [String.toList_append]
    exact IsPlainPath.append ⟨'v', "1/files/".toList, rfl, by decide, forall_plain (by decide)⟩ hkey
  cases h with
  | entry =>
      show IsPlainPath ("/v1/files/" ++ file ++ "/nodes").toList
      rw [String.toList_append]
      exact hfiles.append (forall_plain (by decide))
  | place => exact hfiles
  | library =>
      show IsPlainPath ("/v1/files/" ++ file ++ "/variables/local").toList
      rw [String.toList_append]
      exact hfiles.append (forall_plain (by decide))
  | renderings nodes =>
      show IsPlainPath ("/v1/images/" ++ file).toList
      rw [String.toList_append]
      exact IsPlainPath.append
        ⟨'v', "1/images/".toList, rfl, by decide, forall_plain (by decide)⟩ hkey

/-- No path of another inquiry is the path of the variables of a file. -/
theorem Concerns.path_ne {i : Inquiry} (h : Concerns file node false i)
    (hfile : ∀ c ∈ file.toList, isAsciiAlphanum c = true) (other : String) :
    i.path ≠ (libraryInquiry other).path := by
  intro heq
  have hlist := congrArg String.toList heq
  cases h with
  | entry =>
      have hend := congrArg List.getLast? hlist
      simp [documentsInquiry, libraryInquiry, List.getLast?_cons, List.getLast?_append] at hend
  | place =>
      simp only [outlineInquiry, libraryInquiry, String.toList_append, List.append_assoc,
        List.append_cancel_left_eq] at hlist
      have hslash : '/' ∈ file.toList := by
        rw [hlist]
        simp
      exact absurd (hfile _ hslash) (by decide)
  | library h => cases h
  | renderings nodes =>
      have hstart := congrArg (List.take 5) hlist
      simp [rendersInquiry, libraryInquiry] at hstart

/-- Without following variables, the token goes with no request for the variables of any file. -/
theorem no_library
    {σ : Type} {server : Server σ} {s : σ} {sent : List Request}
    (h : Grounded server client file s (Concerns file node false) sent)
    (hfile : ∀ c ∈ file.toList, isAsciiAlphanum c = true) (hq : q ∈ sent) (htoken : q.token ≠ none)
    (other : String) :
    q.address ≠ (libraryInquiry other).path := by
  obtain ⟨i, d, hi, hd, rfl⟩ := h.asking_of_token hq htoken
  rw [asking, Destination.address_of_plain (hi.isPlainPath hfile) hd]
  exact hi.path_ne hfile other

end Snapshot
end SceneMarkup
