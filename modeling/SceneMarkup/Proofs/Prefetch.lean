import Mathlib.Logic.Relation
import SceneMarkup.Proofs.Conversion
import SceneMarkup.Proofs.Drawings
import SceneMarkup.Proofs.Outages

/-!
# Drawings that are fetched in advance

A snapshot fetches drawings before anything is generated from it. It selects the nodes by their
types, in the whole tree. Generation asks for drawings by the classes of the nodes, and only of
those that it shows. `Snapshot.load_covers` says that the two agree.

* `Depicts.typed`: in a scene that is read from data, the class of a node is that of its type.
* `Node.shownPaths_sublist`, `Node.shownPaths_eq`: the paths that are shown are among those that are
  drawn, and are all of them unless an instance hides some.
* `Snippet.block_tells_missing`: the lines of each path tell whether there is a drawing of it.
* `Snapshot.load_eq_ok`: what a server must have done for a snapshot to be loaded.

A drawing without commands is quoted below a remark, and then it may read like the remark on a
missing drawing (`Snapshot.echo_reads_missing`).
-/

namespace SceneMarkup

open Relation (ReflTransGen TransGen)

namespace Node

/-- A node stands directly under another one. -/
def Holds (n c : Node) : Prop := c ∈ n.children

/-- Each node of a tree belongs to the class of its type. -/
def Typed (n : Node) : Prop :=
  ∀ m, ReflTransGen Holds n m → m.kind.nodeClass = NodeClass.ofType m.type

/-- No instance in a tree has nodes of certain types below it. -/
def NoneHidden (types : List String) (n : Node) : Prop :=
  ∀ m, ReflTransGen Holds n m → ∀ c, m.kind = .instanceOf c →
    ∀ d, TransGen Holds m d → d.type ∉ types

variable {types : List String} {n : Node}

theorem Typed.child (h : Typed n) {c : Node} (hc : c ∈ n.children) : Typed c :=
  fun m hm => h m (.head hc hm)

theorem NoneHidden.child (h : NoneHidden types n) {c : Node} (hc : c ∈ n.children) :
    NoneHidden types c :=
  fun m hm => h m (.head hc hm)

end Node

mutual

/-- What is read from data belongs to the classes of its types. -/
theorem Depicts.typed {rule : Option String → Json.Members → Attributes → Prop} :
    ∀ {n : Node} {P : Option String} {v : Json}, Depicts rule P v n → n.Typed
  | .mk a k cs, _, _, h => by
      cases h with
      | node _ hclass _ _ _ hall =>
          intro m hm
          rcases hm.cases_head with rfl | ⟨c, hc, hm⟩
          · exact hclass
          · exact hall.typed c hc m hm

theorem DepictsAll.typed {rule : Option String → Json.Members → Attributes → Prop} :
    ∀ {ns : List Node} {P : Option String} {vs : List Json}, DepictsAll rule P vs ns →
      ∀ n ∈ ns, n.Typed
  | [], _, _, _ => nofun
  | n :: rest, _, _, h => by
      cases h with
      | cons hhead hrest => exact List.forall_mem_cons.2 ⟨hhead.typed, hrest.typed⟩

end

namespace Node

mutual

/-- A tree without nodes of some types has no identifiers of them. -/
theorem idsOfTypes_eq_nil
    {types : List String} :
    ∀ {n : Node}, (∀ d, ReflTransGen Holds n d → d.type ∉ types) → n.idsOfTypes types = []
  | .mk a k cs, h => by
      have hself : k.type ∉ types := h _ .refl
      have hrest : idsOfTypesAll types cs = [] :=
        idsOfTypesAll_eq_nil fun c hc d hd => h d (.head hc hd)
      rw [idsOfTypes, if_neg (by simpa using hself), hrest]
      rfl

theorem idsOfTypesAll_eq_nil
    {types : List String} :
    ∀ {ns : List Node}, (∀ c ∈ ns, ∀ d, ReflTransGen Holds c d → d.type ∉ types) →
      idsOfTypesAll types ns = []
  | [], _ => rfl
  | n :: rest, h => by
      obtain ⟨hhead, hrest⟩ := List.forall_mem_cons.1 h
      rw [idsOfTypesAll, idsOfTypes_eq_nil hhead, idsOfTypesAll_eq_nil hrest]
      rfl

end

open Snapshot (drawnTypes)

theorem path_type_mem (form : Stroke) (paints : Paints) :
    (Kind.path form paints).type ∈ drawnTypes := by
  cases form
  · exact List.mem_cons_self
  · exact List.mem_cons_of_mem _ List.mem_cons_self

/-- In a tree with the classes of its types, the types of paths are those that are drawn. -/
theorem type_mem_drawnTypes_iff {k : Kind} (hk : k.nodeClass = NodeClass.ofType k.type) :
    k.type ∈ drawnTypes ↔ ∃ form paints, k = .path form paints := by
  constructor
  · intro htype
    have hpath : ∃ form, NodeClass.ofType k.type = .path form := by
      rcases List.mem_pair.1 htype with htype | htype
      · exact ⟨.line, by rw [htype]; decide⟩
      · exact ⟨.vector, by rw [htype]; decide⟩
    obtain ⟨form, hform⟩ := hpath
    rw [hform] at hk
    cases k with
    | path form paints => exact ⟨form, paints, rfl⟩
    | _ => cases hk
  · rintro ⟨form, paints, rfl⟩
    exact path_type_mem form paints

mutual

/-- The paths that are shown are among those that are drawn, in the same order. -/
theorem shownPaths_sublist :
    ∀ n : Node, n.shownPaths.Sublist (n.idsOfTypes drawnTypes)
  | .mk a k cs => by
      have hrest := shownPathsAll_sublist cs
      rw [idsOfTypes]
      cases k with
      | instanceOf c => exact List.nil_sublist _
      | path form paints =>
          have htype := List.contains_iff_mem.2 (path_type_mem form paints)
          rw [shownPaths, if_pos htype]
          exact hrest.cons_cons a.id
      | frame | shape | text | other => exact hrest.trans (List.sublist_append_right _ _)

theorem shownPathsAll_sublist :
    ∀ ns : List Node, (shownPathsAll ns).Sublist (idsOfTypesAll drawnTypes ns)
  | [] => List.Sublist.refl []
  | n :: rest => (shownPaths_sublist n).append (shownPathsAll_sublist rest)

end

mutual

/-- Without paths below instances, all paths that are drawn are shown. -/
theorem shownPaths_eq :
    ∀ {n : Node}, n.Typed → n.NoneHidden drawnTypes → n.shownPaths = n.idsOfTypes drawnTypes
  | .mk a k cs, htyped, hshown => by
      have hrest : shownPathsAll cs = idsOfTypesAll drawnTypes cs :=
        shownPathsAll_eq (fun c hc => htyped.child hc) fun c hc => hshown.child hc
      have hiff := type_mem_drawnTypes_iff (htyped _ .refl)
      rw [idsOfTypes]
      cases k with
      | instanceOf c =>
          -- Here the two selections differ, unless there is nothing to select.
          have hnone : idsOfTypesAll drawnTypes cs = [] :=
            idsOfTypesAll_eq_nil fun c hc d hd => hshown _ .refl _ rfl d (.head' hc hd)
          rw [hnone]
          rfl
      | path form paints =>
          have htype := List.contains_iff_mem.2 (path_type_mem form paints)
          rw [shownPaths, if_pos htype, hrest]
          rfl
      | frame | shape | text | other =>
          rw [if_neg ?_]
          · exact hrest
          · intro htype
            obtain ⟨form, paints, hpath⟩ := hiff.1 (List.contains_iff_mem.1 htype)
            cases hpath

theorem shownPathsAll_eq :
    ∀ {ns : List Node}, (∀ c ∈ ns, c.Typed) → (∀ c ∈ ns, c.NoneHidden drawnTypes) →
      shownPathsAll ns = idsOfTypesAll drawnTypes ns
  | [], _, _ => rfl
  | n :: rest, htyped, hshown => by
      obtain ⟨htn, htr⟩ := List.forall_mem_cons.1 htyped
      obtain ⟨hsn, hsr⟩ := List.forall_mem_cons.1 hshown
      rw [shownPathsAll, idsOfTypesAll, shownPaths_eq htn hsn, shownPathsAll_eq htr hsr]

end

end Node

namespace Snippet

mutual

theorem Throughout.imp
    {P P' : Node → List String → Prop} {n : Node} {b : Block} (h : Throughout P n b)
    (himp : ∀ m, ReflTransGen Node.Holds n m → ∀ lines, P m lines → P' m lines) :
    Throughout P' n b :=
  match h with
  | .ofInstance => .ofInstance
  | .element hk hlines hall =>
      .element hk (himp _ .refl _ hlines) (hall.imp fun _ hc m hm => himp m (.head hc hm))

theorem ThroughoutAll.imp
    {P P' : Node → List String → Prop} {ns : List Node} {bs : List Block}
    (h : ThroughoutAll P ns bs)
    (himp : ∀ c ∈ ns, ∀ m, ReflTransGen Node.Holds c m → ∀ lines, P m lines → P' m lines) :
    ThroughoutAll P' ns bs :=
  match h with
  | .nil => .nil
  | .cons hhead hrest =>
      .cons (hhead.imp (himp _ List.mem_cons_self))
        (hrest.imp fun c hc => himp c (List.mem_cons_of_mem _ hc))

end

/-- The lines of a path have the remark on a missing drawing exactly if there is none, or if the
drawing that there is reads like this remark. -/
def TellsMissing (t : Tables) (n : Node) (lines : List String) : Prop :=
  n.type ∈ Snapshot.drawnTypes →
    (missingRemark n.id ∈ lines ↔
      Tables.lookup? n.id t.drawings = none ∨
        ∃ svg, Tables.lookup? n.id t.drawings = some svg ∧ Property.ReadsMissing n svg)

/-- Throughout a block, the remark on a missing drawing stands where it has to. -/
theorem block_tells_missing (t : Tables) (followed : Bool) {n : Node} (hn : n.Typed) :
    ∃ b, ((block followed n).run t.host ()).outcome = .ok b ∧ Throughout (TellsMissing t) n b := by
  obtain ⟨b, hb, hall⟩ := block_throughout t.reply followed n
  refine ⟨b, hb, hall.imp ?_⟩
  rintro m hm lines rfl htype
  obtain ⟨a, k, children⟩ := m
  obtain ⟨form, paints, rfl⟩ := (Node.type_mem_drawnTypes_iff (hn _ hm)).1 htype
  exact Property.missingRemark_mem_iff t followed a form paints children

end Snippet

namespace Exchange

variable {σ ν α β : Type} {l l' : Line σ ν} {b : β}

/-- An exchange that succeeds has parts that do. -/
theorem bind_eq_ok
    {x : Exchange σ ν α} {k : α → Exchange σ ν β} (h : (x >>= k) l = (.ok b, l')) :
    ∃ a m, x l = (.ok a, m) ∧ k a m = (.ok b, l') := by
  change Exchange.bind x k l = _ at h
  unfold Exchange.bind at h
  split at h
  next a m hx => exact ⟨a, m, hx, h⟩
  next => cases h

theorem branch_eq_ok
    {c : Prop} [Decidable c] {x y : Exchange σ ν α} {k : α → Exchange σ ν β}
    (h : (if c then x >>= k else y >>= k) l = (.ok b, l')) :
    ∃ a m, (if c then x else y) l = (.ok a, m) ∧ k a m = (.ok b, l') := by
  by_cases hc : c
  · rw [if_pos hc] at h ⊢
    exact bind_eq_ok h
  · rw [if_neg hc] at h ⊢
    exact bind_eq_ok h

/-- A reading that succeeds is a value. -/
theorem reading_eq_ok {r : Reading α} {a : α} {m : Line σ ν} (h : reading r l = (.ok a, m)) :
    r = .value a := by
  cases r with
  | value a' =>
      cases h
      rfl
  | invalid issues => cases h
  | defect d => cases h

end Exchange

namespace Snapshot

open Exchange

variable {σ : Type} {server : Server σ} {client : Client} {file node : String} {fetched : Bool}

/-- What a snapshot has of the drawings of some nodes: nothing if there are no such nodes, and
otherwise what the client returns for all of them, or nothing if the client is refused. -/
inductive Prefetched (server : Server σ) (client : Client) (file : String) (nodes : List String) :
    Line σ ServiceNotice → List (String × String) → Line σ ServiceNotice → Prop
  | nothing {l : Line σ ServiceNotice} :
      nodes = [] → Prefetched server client file nodes l [] l
  | returned {l l' : Line σ ServiceNotice} {svgs : List (String × String)} :
      nodes ≠ [] → client.drawings server file nodes l = (.ok svgs, l') →
      Prefetched server client file nodes l svgs l'
  | refused {l l' : Line σ ServiceNotice} {r : Refusal} :
      nodes ≠ [] → client.drawings server file nodes l = (.error (.refused r), l') →
      Prefetched server client file nodes l [] (l'.log (.noted (.noDrawings r)))

/-- The drawings of a snapshot are those that were asked for. -/
theorem prefetched_of_drawings
    {nodes : List String} {l l' : Line σ ServiceNotice} {svgs : List (String × String)}
    (h : (if nodes.isEmpty = true then pure [] else drawings server client file nodes) l =
      (.ok svgs, l')) :
    Prefetched server client file nodes l svgs l' := by
  cases nodes with
  | nil =>
      cases h
      exact .nothing rfl
  | cons id rest =>
      rw [if_neg nofun, drawings, Exchange.orElse] at h
      split at h
      next r m hdrawings =>
        cases h
        exact .refused (List.cons_ne_nil _ _) hdrawings
      next => exact .returned (List.cons_ne_nil _ _) h

/-- A snapshot has a scene whose nodes belong to the classes of their types, and the drawings of
those of them that are drawn. -/
theorem load_eq_ok
    {l l' : Line σ ServiceNotice} {snapshot : Snapshot}
    (h : load server client file node fetched l = (.ok snapshot, l')) :
    snapshot.node.Typed ∧
      ∃ m m' notice,
        Prefetched server client file (snapshot.node.idsOfTypes drawnTypes) m
          snapshot.tables.drawings m' ∧
        l' = m'.log (.noted notice) := by
  obtain ⟨data, l₁, -, h⟩ := bind_eq_ok h
  cases hentry : entryOf file node data with
  | error f =>
      simp only [hentry] at h
      cases h
  | ok found =>
      obtain ⟨document, entry⟩ := found
      simp only [hentry] at h
      obtain ⟨place, l₂, -, h⟩ := bind_eq_ok h
      obtain ⟨scene, l₃, hscene, h⟩ := bind_eq_ok h
      obtain ⟨components, l₄, -, h⟩ := bind_eq_ok h
      obtain ⟨⟨known, collections⟩, l₅, -, h⟩ := branch_eq_ok h
      obtain ⟨svgs, l₆, hsvgs, h⟩ := branch_eq_ok h
      obtain ⟨P, -, hdepicts⟩ :=
        Document.read_depicts_document document _ _ _ (reading_eq_ok hscene)
      cases h
      exact ⟨hdepicts.typed, l₅, l₆, _, prefetched_of_drawings hsvgs, rfl⟩

/-- What generation from a snapshot asks to be drawn is covered by what the snapshot has fetched,
and the lines of the paths tell which drawings have not come. -/
structure Covers (snapshot : Snapshot) (followed : Bool) (b : Block) : Prop where
  generated :
    ((Snippet.block followed snapshot.node).run snapshot.tables.host ()).outcome = .ok b
  asked :
    (((Snippet.block followed snapshot.node).run snapshot.tables.host ()).calls.filterMap
      Query.drawingId?).Sublist (snapshot.node.idsOfTypes drawnTypes)
  complete :
    snapshot.node.NoneHidden drawnTypes →
      ((Snippet.block followed snapshot.node).run snapshot.tables.host ()).calls.filterMap
        Query.drawingId? = snapshot.node.idsOfTypes drawnTypes
  told : Snippet.Throughout (Snippet.TellsMissing snapshot.tables) snapshot.node b

/-- **A snapshot covers what generation asks for.** Whatever the server does, when a snapshot is
loaded it has asked for the drawings of all paths in the scene; generation from it, with or without
variables, asks for no others and tells which of them have not come. -/
theorem load_covers
    {l l' : Line σ ServiceNotice} {snapshot : Snapshot}
    (h : load server client file node fetched l = (.ok snapshot, l')) :
    (∃ m m' notice,
      Prefetched server client file (snapshot.node.idsOfTypes drawnTypes) m
        snapshot.tables.drawings m' ∧
      l' = m'.log (.noted notice)) ∧
    ∀ followed, ∃ b, Covers snapshot followed b := by
  obtain ⟨htyped, hfetched⟩ := load_eq_ok h
  refine ⟨hfetched, ?_⟩
  intro followed
  obtain ⟨b, hb, htold⟩ := Snippet.block_tells_missing snapshot.tables followed htyped
  obtain ⟨-, hasked⟩ := (Snippet.block_draws followed snapshot.node).run snapshot.tables.host ()
  refine ⟨b, hb, ?_, ?_, htold⟩
  · rw [hasked]
    exact Node.shownPaths_sublist snapshot.node
  · intro hhidden
    rw [hasked]
    exact Node.shownPaths_eq htyped hhidden

/-- A drawing that has no commands and reads like a remark. -/
def echo : String := "Error exporting SVG: No SVG export available for node 3"

/-- A service with this drawing for one of two paths, and with none for the other one. -/
def echoing : Server Unit := fun r s =>
  (if r.address = "/v1/files/f/nodes" then .ok ⟨200, entryBody⟩
  else if r.address = "/v1/images/f" then .ok ⟨200, imagesBody⟩
  else if r.address = "http://a/3" then .ok ⟨200, echo⟩
  else .ok ⟨404, ""⟩, s)

theorem echoing_loads :
    ∃ (a a₃ a₄ : Attributes) (mode : String) (p₃ p₄ : Paints) (l' : Line Unit ServiceNotice),
      a₃.id = "3" ∧
      load echoing ⟨"token", .one⟩ "f" "2" false (Line.fresh ()) =
        (.ok ⟨.mk a (.frame mode) [.mk a₃ (.path .vector p₃) [], .mk a₄ (.path .line p₄) []],
          ⟨[], [], [("5", ⟨"5", "dark", some "button"⟩)], [("3", echo)]⟩⟩, l') := by
  have hentry :
      GivesEntry echoing ⟨"token", .one⟩ "f" "2" () pathsEntry pathsDocument () :=
    .mk ⟨_, rfl, rfl⟩ (.mk entryBody_reads) rfl rfl rfl rfl
  obtain ⟨a, a₃, a₄, mode, p₃, p₄, hscene, h₃, h₄⟩ :
      ∃ (a a₃ a₄ : Attributes) (mode : String) (p₃ p₄ : Paints),
        Document.node .null .null pathsDocument = .value
          (.mk a (.frame mode) [.mk a₃ (.path .vector p₃) [], .mk a₄ (.path .line p₄) []]) ∧
        a₃.id = "3" ∧ a₄.id = "4" := by
    simp only [pathsDocument, Document.node, Document.read, Document.readChildren,
      Document.readElements, Document.readAll]
    exact ⟨_, _, _, _, _, _, rfl, rfl, rfl⟩
  have hplace : GivesPlace echoing ⟨"token", .one⟩ "f" "2" () none () :=
    .out ⟨_, rfl, rfl⟩ (.refused (by decide))
  have hdrawings :
      GivesDrawings echoing ⟨"token", .one⟩ "f" ["3", "4"] () [("3", echo)] () := by
    refine .found (List.cons_ne_nil _ _) ⟨_, rfl, rfl⟩ (.mk imagesBody_reads) (.mk rfl rfl) ?_
    intro node hnode
    simp only [List.mem_cons, List.not_mem_nil, or_false] at hnode
    rcases hnode with rfl | rfl
    · exact .address rfl rfl
    · exact .address rfl rfl
  have hids : (Node.mk a (.frame mode)
      [.mk a₃ (.path .vector p₃) [], .mk a₄ (.path .line p₄) []]).idsOfTypes drawnTypes =
        ["3", "4"] := by
    rw [← h₃, ← h₄]
    rfl
  obtain ⟨l', hl', -, -⟩ :=
    load_goes hentry hplace hscene rfl .unfollowed (hids ▸ hdrawings) (Line.fresh ())
      (.inr (by decide)) rfl
  exact ⟨a, a₃, a₄, mode, p₃, p₄, l', h₃, hl'⟩

/-- Also this snapshot covers what generation asks for. -/
theorem load_covers_echoing :
    ∃ snapshot l', load echoing ⟨"token", .one⟩ "f" "2" false (Line.fresh ()) =
        (.ok snapshot, l') ∧
      snapshot.tables.drawings = [("3", echo)] ∧ ∀ followed, ∃ b, Covers snapshot followed b := by
  obtain ⟨a, a₃, a₄, mode, p₃, p₄, l', -, hload⟩ := echoing_loads
  exact ⟨_, l', hload, rfl, (load_covers hload).2⟩

/-- A path whose drawing reads like the remark on a missing one has this line, and is not without a
drawing. -/
theorem echo_reads_missing :
    ∃ snapshot l' b, load echoing ⟨"token", .one⟩ "f" "2" false (Line.fresh ()) =
        (.ok snapshot, l') ∧
      ((Snippet.block true snapshot.node).run snapshot.tables.host ()).outcome = .ok b ∧
      ¬ Snippet.Throughout (fun n lines => n.type ∈ drawnTypes →
        (missingRemark n.id ∈ lines ↔ Tables.lookup? n.id snapshot.tables.drawings = none))
        snapshot.node b := by
  obtain ⟨a, a₃, a₄, mode, p₃, p₄, l', h₃, hload⟩ := echoing_loads
  obtain ⟨b, hb, htold⟩ := Snippet.block_tells_missing _ true (load_eq_ok hload).1
  refine ⟨_, l', b, hload, hb, ?_⟩
  intro halways
  have hfound : Tables.lookup? a₃.id [("3", echo)] = some echo := by
    rw [h₃]
    rfl
  have hcommands : Property.commandsIn .vector echo = none := by decide +kernel
  have hsays : "// " ++ Text.singleLine echo = missingRemark "3" := by decide +kernel
  have hdrawn := Node.path_type_mem .vector p₃
  -- Both relations say something of the lines of the first path.
  rcases htold with _ | ⟨-, -, _ | ⟨_ | ⟨-, htold, -⟩, -⟩⟩
  rcases halways with _ | ⟨-, -, _ | ⟨_ | ⟨-, halways, -⟩, -⟩⟩
  have hremark := (htold hdrawn).2 (.inr ⟨echo, hfound, hcommands, hsays.trans (h₃ ▸ rfl)⟩)
  have hnone := (halways hdrawn).1 hremark
  cases hfound.symm.trans hnone

end Snapshot

end SceneMarkup
