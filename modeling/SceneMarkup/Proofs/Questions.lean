import SceneMarkup.Proofs.Drawings

/-!
# The questions of a run

A run of the script of a scene asks what its nodes ask, one node after the other and parents first,
down to instances (`Snippet.block_in_turn`). What one node asks does not depend on what became of
the nodes before it, beyond the state in which they left the host.

* `Script.rounds`: the conversations of scripts that are played one after the other. While none of
  them faults, they make up the conversation of the whole row (`turns_inTurn`).
* `Script.Grounded`: no collection is asked for but that of a variable which the host has just
  given.
* `Snippet.questions_in_preorder`: the questions of a run, in the order of the scene.
-/

namespace SceneMarkup

open Script (Turn)

namespace Script

variable {α β σ : Type}

/-- A script without its result. -/
def only (s : Script α) : Script Unit := s.bind fun _ => done ()

/-- Scripts that are played one after the other. -/
def inTurn : List (Script Unit) → Script Unit
  | [] => done ()
  | s :: rest => s.bind fun _ => inTurn rest

/-- The conversations of scripts that are played one after the other, each from the state in which
the one before has left the host. -/
def rounds (host : Host σ) : List (Script Unit) → σ → List (List Turn)
  | [], _ => []
  | s :: rest, state => s.turns host state :: rounds host rest (s.run host state).state

theorem only_bind (s : Script α) (next : Script β) :
    (s.only.bind fun _ => next) = s.bind fun _ => next := by
  simp [only, bind_assoc]

theorem bind_only (s : Script α) (k : α → Script β) :
    (s.bind k).only = s.bind fun a => (k a).only :=
  bind_assoc s k _

theorem inTurn_append (front back : List (Script Unit)) :
    inTurn (front ++ back) = (inTurn front).bind fun _ => inTurn back := by
  induction front with
  | nil => rfl
  | cons s rest ih =>
      simp only [List.cons_append, inTurn, bind_assoc, ih]

theorem inTurn_singleton (s : Script Unit) :
    inTurn [s] = s := by
  show s.bind done = s
  exact bind_done s

/-- What is collected does not matter to what is asked. -/
theorem collect_only (f : α → Script (List β)) (l : List α) :
    (collect f l).only = inTurn (l.map fun a => (f a).only) := by
  induction l with
  | nil => rfl
  | cons a rest ih =>
      simp only [List.map_cons, inTurn, only_bind]
      rw [← ih, collect, bind_only]
      congr 1
      funext bs
      exact bind_only (collect f rest) _

/-- The turns of a resumed script follow those of its first part. -/
theorem turns_resume
    (host : Host σ) (s : Script α) (next : Except Fault α → Script β) (state : σ) :
    (s.resume next).turns host state =
      s.turns host state ++
        (next (s.run host state).outcome).turns host (s.run host state).state := by
  induction s generalizing state with
  | done a => rfl
  | fail f => rfl
  | note x rest ih => exact ih state
  | ask q k ih =>
      simp only [resume, turns, run, ih, List.cons_append]

/-- A script of which only the questions count asks the same. -/
theorem turns_only (host : Host σ) (s : Script α) (state : σ) :
    s.only.turns host state = s.turns host state := by
  rw [only, bind_eq_resume, turns_resume]
  cases (s.run host state).outcome with
  | ok a => exact List.append_nil _
  | error f => exact List.append_nil _

/-- Scripts that settle are all played, whatever the host replies. -/
theorem turns_inTurn
    {f : α → Script Unit} (hf : ∀ a, (f a).Always fun _ r => r = .ok ())
    (host : Host σ) (l : List α) (state : σ) :
    (inTurn (l.map f)).turns host state = (rounds host (l.map f) state).flatten := by
  induction l generalizing state with
  | nil => rfl
  | cons a rest ih =>
      have hresult : ((f a).run host state).outcome = .ok () := (hf a).run host state
      simp only [List.map_cons, inTurn, rounds, List.flatten_cons]
      rw [bind_eq_resume, turns_resume, hresult]
      exact congrArg _ (ih _)

/-- What holds of every conversation of a script holds of the rounds of a row of them. -/
theorem rounds_forall₂
    {rel : α → List Turn → Prop} {f : α → Script Unit}
    (hf : ∀ a, (f a).Always fun log _ => rel a log)
    (host : Host σ) (l : List α) (state : σ) :
    List.Forall₂ rel l (rounds host (l.map f) state) := by
  induction l generalizing state with
  | nil => exact .nil
  | cons a rest ih => exact .cons ((hf a).run host state) (ih _)

/-- Before each question for a collection there is a question for a variable, and the variable that
the host has given is in this collection. -/
def Grounded (log : List Turn) : Prop :=
  ∀ before t after, log = before ++ t :: after →
    ∀ collection, t.query = .collectionById collection →
      ∃ front id, ∃ v : Variable,
        before = front ++ [⟨.variableById id, .ok (some v)⟩] ∧ v.collectionId = collection

theorem grounded_nil : Grounded [] := by
  intro before t after hsplit
  simp at hsplit

theorem Grounded.append
    {log rest : List Turn} (hlog : Grounded log) (hrest : Grounded rest) :
    Grounded (log ++ rest) := by
  intro before t after hsplit collection hquery
  rcases List.append_eq_append_iff.1 hsplit with ⟨middle, rfl, hback⟩ | ⟨middle, rfl, hback⟩
  · obtain ⟨front, id, v, rfl, hv⟩ := hrest middle t after hback collection hquery
    exact ⟨log ++ front, id, v, (List.append_assoc ..).symm, hv⟩
  · cases middle with
    | nil =>
        -- The turn is the first one of the second conversation, so nothing would stand before it.
        obtain ⟨front, id, v, hfront, -⟩ := hrest [] t after hback.symm collection hquery
        simp at hfront
    | cons u middle =>
        obtain ⟨rfl, -⟩ := List.cons.inj hback
        exact hlog before t middle rfl collection hquery

/-- A turn that is not about a collection needs no ground. -/
theorem grounded_singleton {t : Turn} (ht : ∀ collection, t.query ≠ .collectionById collection) :
    Grounded [t] := by
  intro before u after hsplit collection hquery
  cases before with
  | nil =>
      obtain ⟨rfl, -⟩ := List.cons.inj hsplit
      exact absurd hquery (ht collection)
  | cons _ before => simp at hsplit

theorem grounded_variable (id : String) (r : (Query.variableById id).Reply) :
    Grounded [⟨.variableById id, r⟩] :=
  grounded_singleton nofun

theorem grounded_drawing (n : Node) (r : (Query.drawingOf n).Reply) :
    Grounded [⟨.drawingOf n, r⟩] :=
  grounded_singleton nofun

theorem grounded_component (n : Node) (r : (Query.componentOf n).Reply) :
    Grounded [⟨.componentOf n, r⟩] :=
  grounded_singleton nofun

/-- A question for the collection of a variable, right after the variable was given. -/
theorem grounded_pair
    (id : String) (v : Variable) (reply : (Query.collectionById v.collectionId).Reply) :
    Grounded [⟨.variableById id, .ok (some v)⟩, ⟨.collectionById v.collectionId, reply⟩] := by
  intro before t after hsplit collection hquery
  rcases before with _ | ⟨u, _ | ⟨u', before⟩⟩
  · obtain ⟨rfl, -⟩ := List.cons.inj hsplit
    cases hquery
  · obtain ⟨rfl, hback⟩ := List.cons.inj hsplit
    obtain ⟨rfl, -⟩ := List.cons.inj hback
    cases hquery
    exact ⟨[], id, v, rfl, rfl⟩
  · simp at hsplit

/-- Whatever the replies, a script asks for no other collections. -/
def Grounds (s : Script α) : Prop := s.Always fun log _ => Grounded log

theorem grounds_resume
    {s : Script α} {next : Except Fault α → Script β}
    (hs : s.Grounds) (hnext : ∀ o, (next o).Grounds) :
    (s.resume next).Grounds := by
  refine (always_resume s next _).2 (hs.imp ?_)
  intro log o hlog
  refine (hnext o).imp ?_
  intro rest _ hrest
  exact hlog.append hrest

theorem Grounds.bind
    {s : Script α} {k : α → Script β} (hs : s.Grounds) (hk : ∀ a, (k a).Grounds) :
    (s.bind k).Grounds := by
  rw [bind_eq_resume]
  refine grounds_resume hs ?_
  rintro (f | a)
  · exact grounded_nil
  · exact hk a

theorem Grounds.recover
    {s : Script α} {handler : Fault → Script α}
    (hs : s.Grounds) (hh : ∀ f, (handler f).Grounds) :
    (s.recover handler).Grounds := by
  rw [recover_eq_resume]
  refine grounds_resume hs ?_
  rintro (f | a)
  · exact hh f
  · exact grounded_nil

theorem Grounds.collect
    {f : α → Script (List β)} (hf : ∀ a, (f a).Grounds) :
    ∀ l : List α, (collect f l).Grounds
  | [] => grounded_nil
  | a :: rest => (hf a).bind fun _ => (Grounds.collect hf rest).bind fun _ => grounded_nil

/-- A script that describes a node asks for collections with grounds only. -/
theorem Describes.grounds
    {followed : Bool} {n : Node} {s : Script α} (hs : s.Describes followed n) :
    s.Grounds := by
  induction hs with
  | done a => exact grounded_nil
  | fail f => exact grounded_nil
  | note x _ ih => exact ih
  | resolve id _ _ ih =>
      rw [Reference.resolve_bind]
      rintro (f | _ | v)
      · exact grounded_variable id (.error f)
      · exact (ih none).imp fun log _ hlog => (grounded_variable id (.ok none)).append hlog
      · rintro (f | _ | c)
        · exact grounded_pair id v (.error f)
        · exact (ih none).imp fun log _ hlog => (grounded_pair id v (.ok none)).append hlog
        · exact (ih _).imp fun log _ hlog => (grounded_pair id v (.ok (some c))).append hlog
  | @drawing next _ ih =>
      intro r
      exact (ih r).imp fun log _ hlog => (grounded_drawing n r).append hlog

end Script

/-- Whether a question is about a node. -/
def Query.isOfNode : Query → Bool
  | variableById _ => false
  | collectionById _ => false
  | componentOf _ => true
  | drawingOf _ => true

namespace Node

/-- The question about itself that a node needs: an instance its component, a path its drawing. -/
def question? (n : Node) : Option Query :=
  match n.kind with
  | .instanceOf _ => some (.componentOf n)
  | .path .. => some (.drawingOf n)
  | _ => none

mutual

/-- The nodes that are not inside an instance, parents first. -/
def shown : Node → List Node
  | .mk a (.instanceOf c) children => [.mk a (.instanceOf c) children]
  | .mk a k children => .mk a k children :: shownAll children

/-- The nodes of a row that are not inside an instance. -/
def shownAll : List Node → List Node
  | [] => []
  | n :: rest => shown n ++ shownAll rest

end

theorem shown_element
    (a : Attributes) {k : Kind} (children : List Node) (hk : ∀ c, k ≠ .instanceOf c) :
    shown (.mk a k children) = .mk a k children :: shownAll children := by
  cases k with
  | instanceOf c => exact absurd rfl (hk c)
  | frame | shape | text | path | other => simp [shown]

end Node

namespace Snippet

/-- What is asked for the sake of a node and not of the nodes below it. -/
def own (followed : Bool) (n : Node) : Script Unit :=
  match n.kind with
  | .instanceOf _ => (component n).only
  | k => (Property.allLines followed n (properties k.nodeClass)).only

theorem own_element
    (followed : Bool) (a : Attributes) {k : Kind} (children : List Node)
    (hk : ∀ c, k ≠ .instanceOf c) :
    own followed (.mk a k children) =
      (Property.allLines followed (.mk a k children) (properties k.nodeClass)).only := by
  cases k with
  | instanceOf c => exact absurd rfl (hk c)
  | frame | shape | text | path | other => rfl

/-- Every property of a node is asked for in its turn, whatever became of the ones before. -/
theorem own_in_turn
    (followed : Bool) (a : Attributes) {k : Kind} (children : List Node)
    (hk : ∀ c, k ≠ .instanceOf c) :
    own followed (.mk a k children) =
      Script.inTurn ((properties k.nodeClass).map fun p =>
        (p.contained followed (.mk a k children)).only) := by
  rw [own_element followed a children hk]
  exact Script.collect_only _ _

theorem component_eq (n : Node) :
    (component n).only = .ask (.componentOf n) fun
      | .ok _ => .done ()
      | .error f => .note (.componentFailed n.name n.id f) (.done ()) := by
  show Script.ask _ _ = Script.ask _ _
  congr 1
  funext r
  cases r with
  | ok found => rfl
  | error f => rfl

/-- What the conversation about one node is like. -/
structure Asked (n : Node) (log : List Turn) : Prop where
  grounded : Script.Grounded log
  ofNode : (log.map (·.query)).filter Query.isOfNode = n.question?.toList

/-- While a conversation concerns a node, its questions about nodes are those for the drawing. -/
theorem ofNode_eq_drawn
    {followed : Bool} {n : Node} {log : List Turn}
    (h : ∀ t ∈ log, t.query.Concerns followed n) :
    (log.map (·.query)).filter Query.isOfNode =
      (Script.drawn log).map fun _ => .drawingOf n := by
  induction log with
  | nil => rfl
  | cons t log ih =>
      obtain ⟨ht, hlog⟩ := List.forall_mem_cons.1 h
      obtain ⟨q, r⟩ := t
      cases q with
      | variableById id => exact ih hlog
      | collectionById id => exact ih hlog
      | componentOf m => exact absurd ht id
      | drawingOf m =>
          obtain rfl : m = n := ht
          exact congrArg (Query.drawingOf m :: ·) (ih hlog)

/-- The properties of a node ask what the node needs, and end with their lines. -/
theorem properties_asked
    (followed : Bool) (a : Attributes) {k : Kind} (children : List Node)
    (hk : ∀ c, k ≠ .instanceOf c) :
    (Property.allLines followed (.mk a k children) (properties k.nodeClass)).Always fun log r =>
      (∃ lines, r = .ok lines) ∧ Asked (.mk a k children) log := by
  have hsettles := Property.allLines_settles followed (.mk a k children) (properties k.nodeClass)
  have hdraws := properties_draw followed (.mk a k children) k.nodeClass
  have hgrounds :
      (Property.allLines followed (.mk a k children) (properties k.nodeClass)).Grounds := by
    refine Script.Grounds.collect ?_ _
    intro p
    exact (Property.lines_describes p).grounds.recover fun _ => Script.grounded_nil
  refine ((hsettles.and hdraws).and hgrounds).imp ?_
  rintro log r ⟨⟨⟨hr, hlog⟩, -, hdrawn⟩, hgrounded⟩
  refine ⟨hr, hgrounded, ?_⟩
  rw [ofNode_eq_drawn hlog, hdrawn]
  cases k with
  | instanceOf c => exact absurd rfl (hk c)
  | frame | shape | text | path | other => rfl

/-- A node asks for itself what it needs. -/
theorem own_asked (followed : Bool) (n : Node) :
    (own followed n).Always fun log r => r = .ok () ∧ Asked n log := by
  cases n with
  | mk a k children =>
      rcases instance_or_element k with ⟨c, rfl⟩ | hk
      · show (component _).only.Always _
        rw [component_eq]
        rintro (f | found)
        · exact ⟨rfl, Script.grounded_component _ _, rfl⟩
        · exact ⟨rfl, Script.grounded_component _ _, rfl⟩
      · rw [own_element followed a children hk]
        refine (Script.always_bind _ _ _).2 ((properties_asked followed a children hk).imp ?_)
        rintro log _ ⟨⟨lines, rfl⟩, hasked⟩
        exact ⟨rfl, (List.append_nil log).symm ▸ hasked⟩

theorem instanceBlock_only (n : Node) :
    (instanceBlock n).only = (component n).only := by
  show Script.ask _ _ = Script.ask _ _
  congr 1
  funext r
  rcases r with f | _ | found <;> rfl

mutual

/-- **Apart from the block that it ends in, the script of a node is the scripts of the nodes that
are shown**, one after the other and parents first. -/
theorem block_in_turn (followed : Bool) :
    ∀ n : Node, (block followed n).only = Script.inTurn (n.shown.map (own followed))
  | .mk a k children => by
      rcases instance_or_element k with ⟨c, rfl⟩ | hk
      · rw [Node.shown, List.map_singleton, Script.inTurn_singleton]
        exact instanceBlock_only _
      · rw [block_element followed a children hk, Node.shown_element a children hk, List.map_cons,
          Script.inTurn, own_element followed a children hk, Script.only_bind, Script.bind_only]
        congr 1
        funext lines
        rw [Script.bind_only]
        exact blocks_in_turn followed children

/-- A row of nodes asks node by node, in pre-order. -/
theorem blocks_in_turn (followed : Bool) :
    ∀ ns : List Node,
      (blocks followed ns).only = Script.inTurn ((Node.shownAll ns).map (own followed))
  | [] => rfl
  | n :: rest => by
      rw [Node.shownAll, List.map_append, Script.inTurn_append, ← block_in_turn followed n,
        ← blocks_in_turn followed rest, Script.only_bind, blocks_cons, Script.bind_only]
      congr 1
      funext b
      exact Script.bind_only _ _

end

/-- The text of a block asks nothing that the block does not ask. -/
theorem text_turns
    {σ : Type} (host : Host σ) (state : σ) (followed : Bool) (n : Node) :
    (text followed n).turns host state = (block followed n).turns host state := by
  have honly : (text followed n).only = (block followed n).only := Script.bind_only _ _
  rw [← Script.turns_only, honly, Script.turns_only]

/-- What is asked about each node of a row is asked in the order of the row. -/
theorem asked_flatten
    {ns : List Node} {logs : List (List Turn)} (h : List.Forall₂ Asked ns logs) :
    Script.Grounded logs.flatten ∧
      (logs.flatten.map (·.query)).filter Query.isOfNode = ns.filterMap Node.question? := by
  induction h with
  | nil => exact ⟨Script.grounded_nil, rfl⟩
  | @cons n log ns logs hlog _ ih =>
      refine ⟨hlog.grounded.append ih.1, ?_⟩
      rw [List.flatten_cons, List.map_append, List.filter_append, hlog.ofNode, ih.2,
        List.filterMap_cons]
      cases n.question? with
      | none => rfl
      | some q => rfl

/-- **The questions of a run follow the scene.** What a run asks is what the nodes that are shown
ask, one node after the other and parents first. Among these questions, each instance has one for
its component and each path one for its drawing, and there are no others about nodes. A collection
is asked for only right after the host has given a variable of it. -/
theorem questions_in_preorder
    {σ : Type} (host : Host σ) (state : σ) (followed : Bool) (n : Node) :
    let run := (block followed n).run host state
    let log := (block followed n).turns host state
    run.calls = log.map (·.query) ∧
      log = (Script.rounds host (n.shown.map (own followed)) state).flatten ∧
      run.calls.filter Query.isOfNode = n.shown.filterMap Node.question? ∧
      Script.Grounded log := by
  have hcalls := Script.calls_eq_map_turns host (block followed n) state
  have hlog : (block followed n).turns host state =
      (Script.rounds host (n.shown.map (own followed)) state).flatten := by
    rw [← Script.turns_only, block_in_turn]
    exact Script.turns_inTurn (fun m => (own_asked followed m).imp fun _ _ h => h.1) host _ state
  have hrounds : List.Forall₂ Asked n.shown
      (Script.rounds host (n.shown.map (own followed)) state) :=
    Script.rounds_forall₂ (fun m => (own_asked followed m).imp fun _ _ h => h.2) host _ state
  obtain ⟨hgrounded, hquestions⟩ := asked_flatten hrounds
  refine ⟨hcalls, hlog, ?_, ?_⟩
  · rw [hcalls, hlog]
    exact hquestions
  · rw [hlog]
    exact hgrounded

end Snippet

end SceneMarkup
