import SceneMarkup.Lookup.Tables
import SceneMarkup.Proofs.Mirroring

/-!
# Variables that are not followed

When variables are not followed, nothing that a scene or a design says about variables may show in
the markup. The argument compares a scene with the same scene without bindings.

* `Script.Alike` relates two scripts that take the same steps and ask nothing but components and
  drawings, of nodes that agree in their identifiers. Alike scripts have one outcome against hosts
  that go by these identifiers (`Alike.run`).
* `block_alike`: without variables, the script of a node is alike to that of the unbound node.
* `unfollowed_blocks_agree`: scenes that differ in their bindings, in designs that differ in their
  variables, become one block, and no variable is ever asked for.
-/

namespace SceneMarkup

/-- The paint without its binding. -/
def Paint.unbound (p : Paint) : Paint := { p with colorBinding := none }

/-- The paints without their bindings. -/
def Paints.unbound (p : Paints) : Paints :=
  { p with fills := p.fills.map Paint.unbound, strokes := p.strokes.map Paint.unbound }

/-- The kind without the bindings of its paints. -/
def Kind.unbound : Kind → Kind
  | frame mode => frame mode
  | shape form paints radii => shape form paints.unbound radii
  | instanceOf c => instanceOf c
  | text content => text { content with fills := content.fills.map Paint.unbound }
  | path form paints => path form paints.unbound
  | other type => other type

namespace Node

mutual

/-- The scene without bindings of its nodes and paints. -/
def unbound : Node → Node
  | mk a k children => mk { a with bindings := .empty } k.unbound (unboundAll children)

/-- The scenes of a row without bindings. -/
def unboundAll : List Node → List Node
  | [] => []
  | n :: ns => unbound n :: unboundAll ns

end

@[simp] theorem unbound_attributes (n : Node) :
    n.unbound.attributes = { n.attributes with bindings := .empty } := by
  cases n
  rfl

@[simp] theorem unbound_kind (n : Node) : n.unbound.kind = n.kind.unbound := by
  cases n
  rfl

theorem unbound_componentId? (n : Node) : n.unbound.componentId? = n.componentId? := by
  cases n with
  | mk a k children => cases k <;> rfl

end Node

namespace Kind

@[simp] theorem unbound_nodeClass (k : Kind) : k.unbound.nodeClass = k.nodeClass := by
  cases k <;> rfl

@[simp] theorem unbound_radii? (k : Kind) : k.unbound.radii? = k.radii? := by
  cases k <;> rfl

@[simp] theorem unbound_hasFills (k : Kind) : k.unbound.hasFills = k.hasFills := by
  cases k <;> rfl

@[simp] theorem unbound_hasStrokes (k : Kind) : k.unbound.hasStrokes = k.hasStrokes := by
  cases k <;> rfl

@[simp] theorem unbound_strokeWeight (k : Kind) : k.unbound.strokeWeight = k.strokeWeight := by
  cases k <;> rfl

@[simp] theorem unbound_fills (k : Kind) : k.unbound.fills = k.fills.map Paint.unbound := by
  cases k <;> rfl

@[simp] theorem unbound_strokes (k : Kind) : k.unbound.strokes = k.strokes.map Paint.unbound := by
  cases k <;> rfl

end Kind

/-- A question for a variable or for a collection. -/
def Query.IsLookup : Query → Prop
  | variableById _ => True
  | collectionById _ => True
  | componentOf _ => False
  | drawingOf _ => False

/-- A host that replies about components and drawings by identifiers. What it replies about
variables is left open. -/
structure Host.AnswersByIds
    {σ : Type} (host : Host σ)
    (component : Option String → String → Except HostFault (Option MainComponent))
    (drawing : Option String → String → Except HostFault String) : Prop where
  component_eq : ∀ n state, (host (.componentOf n) state).1 = component n.componentId? n.id
  drawing_eq : ∀ n state, (host (.drawingOf n) state).1 = drawing n.componentId? n.id

namespace Script

variable {α β : Type}

/-- Two scripts take the same steps and ask about nodes with the same identifiers, never for a
variable or a collection. -/
inductive Alike : Script α → Script α → Prop
  | done (a : α) : Alike (done a) (done a)
  | fail (f : Fault) : Alike (fail f) (fail f)
  | note (x : Notice) {s s' : Script α} : Alike s s' → Alike (note x s) (note x s')
  | component
      {n n' : Node}
      {next : (Query.componentOf n).Reply → Script α}
      {next' : (Query.componentOf n').Reply → Script α} :
      n.componentId? = n'.componentId? →
      n.id = n'.id →
      (∀ r, Alike (next r) (next' r)) →
      Alike (ask (.componentOf n) next) (ask (.componentOf n') next')
  | drawing
      {n n' : Node}
      {next : (Query.drawingOf n).Reply → Script α}
      {next' : (Query.drawingOf n').Reply → Script α} :
      n.componentId? = n'.componentId? →
      n.id = n'.id →
      (∀ r, Alike (next r) (next' r)) →
      Alike (ask (.drawingOf n) next) (ask (.drawingOf n') next')

namespace Alike

/-- Scripts that are alike may be resumed alike. -/
theorem resume
    {s s' : Script α} {next next' : Except Fault α → Script β}
    (hs : s.Alike s') (hnext : ∀ o, (next o).Alike (next' o)) :
    (s.resume next).Alike (s'.resume next') := by
  induction hs with
  | done a => exact hnext (.ok a)
  | fail f => exact hnext (.error f)
  | note x _ ih => exact .note x ih
  | component hcomponent hid _ ih => exact .component hcomponent hid ih
  | drawing hcomponent hid _ ih => exact .drawing hcomponent hid ih

theorem bind
    {s s' : Script α} {k k' : α → Script β}
    (hs : s.Alike s') (hk : ∀ a, (k a).Alike (k' a)) :
    (s.bind k).Alike (s'.bind k') := by
  rw [bind_eq_resume, bind_eq_resume]
  refine hs.resume ?_
  rintro (f | a)
  · exact .fail f
  · exact hk a

theorem recover
    {s s' : Script α} {handler handler' : Fault → Script α}
    (hs : s.Alike s') (hh : ∀ f, (handler f).Alike (handler' f)) :
    (s.recover handler).Alike (s'.recover handler') := by
  rw [recover_eq_resume, recover_eq_resume]
  refine hs.resume ?_
  rintro (f | a)
  · exact hh f
  · exact .done a

theorem collect
    {f f' : α → Script (List β)} (hf : ∀ a, (f a).Alike (f' a)) :
    ∀ l : List α, (Script.collect f l).Alike (Script.collect f' l)
  | [] => .done []
  | a :: rest => (hf a).bind fun _ => (collect hf rest).bind fun _ => .done _

/-- Alike scripts come to the same against hosts that go by identifiers, and neither of them asks
for a variable or a collection. -/
theorem run
    {σ τ : Type} {host : Host σ} {host' : Host τ}
    {component : Option String → String → Except HostFault (Option MainComponent)}
    {drawing : Option String → String → Except HostFault String}
    {s s' : Script α} (hs : s.Alike s')
    (hhost : host.AnswersByIds component drawing)
    (hhost' : host'.AnswersByIds component drawing)
    (state : σ) (state' : τ) :
    (s.run host state).outcome = (s'.run host' state').outcome ∧
      ∀ q ∈ (s.run host state).calls, ¬ q.IsLookup := by
  induction hs generalizing state state' with
  | done a => exact ⟨rfl, nofun⟩
  | fail f => exact ⟨rfl, nofun⟩
  | note x _ ih => exact ih state state'
  | @component n n' next next' hcomponent hid _ ih =>
      have hreply :
          (host (.componentOf n) state).1 = (host' (.componentOf n') state').1 := by
        rw [hhost.component_eq, hhost'.component_eq, hcomponent, hid]
      obtain ⟨houtcome, hcalls⟩ :=
        ih (host (.componentOf n) state).1
          (host (.componentOf n) state).2 (host' (.componentOf n') state').2
      constructor
      · simp only [Script.run]
        rw [houtcome, hreply]
      · exact List.forall_mem_cons.2 ⟨id, hcalls⟩
  | @drawing n n' next next' hcomponent hid _ ih =>
      have hreply :
          (host (.drawingOf n) state).1 = (host' (.drawingOf n') state').1 := by
        rw [hhost.drawing_eq, hhost'.drawing_eq, hcomponent, hid]
      obtain ⟨houtcome, hcalls⟩ :=
        ih (host (.drawingOf n) state).1
          (host (.drawingOf n) state).2 (host' (.drawingOf n') state').2
      constructor
      · simp only [Script.run]
        rw [houtcome, hreply]
      · exact List.forall_mem_cons.2 ⟨id, hcalls⟩

end Alike

/-- A description that resolves no variables is alike to itself. -/
theorem Describes.alike
    {n : Node} {s : Script α} (hs : s.Describes false n) :
    s.Alike s := by
  induction hs with
  | done a => exact .done a
  | fail f => exact .fail f
  | note x _ ih => exact .note x ih
  | resolve id hfollowed _ _ => cases hfollowed
  | drawing _ ih => exact .drawing rfl rfl ih

end Script

namespace Property

/-- A binding that is not followed leaves the literal. -/
theorem bound_unbound
    (p : Property) {binding binding' : Option VariableRef} {s s' : Script (Option String)}
    (h : s' = s) :
    p.bound false binding' s' = p.bound false binding s := by
  rw [h]
  rfl

/-- A brush that is not looked up is read from the paint, its binding aside. -/
theorem brush_unbound (p : Paint) :
    brush false p.unbound = brush false p :=
  rfl

theorem fillValue_unbound (fills : List Paint) :
    fillValue false (fills.map Paint.unbound) = fillValue false fills := by
  have hfirst :
      Paint.firstVisible? (fills.map Paint.unbound) =
        (Paint.firstVisible? fills).map Paint.unbound := by
    rw [Paint.firstVisible?, List.find?_map]
    rfl
  unfold fillValue
  rw [hfirst]
  cases Paint.firstVisible? fills with
  | none => rfl
  | some p => exact brush_unbound p

theorem lacking_unbound {α : Type} (n : Node) (field : String) :
    (lacking n.unbound field : Script α) = lacking n field := by
  simp [lacking]

theorem fillLines_unbound (p : Property) (n : Node) :
    p.fillLines false n.unbound = p.fillLines false n := by
  simp only [fillLines, brushOf, Node.unbound_kind, Kind.unbound_hasFills, Kind.unbound_fills,
    fillValue_unbound, lacking_unbound]

theorem onStrokes_unbound
    {s s' : Script (List String)} (n : Node) (h : s' = s) :
    onStrokes n.unbound s' = onStrokes n s := by
  simp only [onStrokes, Node.unbound_kind, Kind.unbound_hasStrokes, lacking_unbound, h]

theorem borderWidthLines_unbound (n : Node) :
    borderWidthLines false n.unbound = borderWidthLines false n := by
  refine onStrokes_unbound n ?_
  simp only [Node.unbound_kind, Kind.unbound_strokes, Kind.unbound_strokeWeight,
    List.isEmpty_map]
  rfl

theorem borderColorLines_unbound (n : Node) :
    borderColorLines false n.unbound = borderColorLines false n := by
  refine onStrokes_unbound n ?_
  rw [Node.unbound_kind, Kind.unbound_strokes]
  cases n.kind.strokes with
  | nil => rfl
  | cons s rest => rfl

theorem strokeLines_unbound (n : Node) :
    strokeLines false n.unbound = strokeLines false n := by
  refine onStrokes_unbound n ?_
  rw [Node.unbound_kind, Kind.unbound_strokes]
  cases n.kind.strokes with
  | nil => rfl
  | cons s rest => rfl

theorem strokeWidthLines_unbound (n : Node) :
    strokeWidthLines false n.unbound = strokeWidthLines false n := by
  have hvisible :
      (n.kind.strokes.map Paint.unbound).any (·.visible) = n.kind.strokes.any (·.visible) := by
    rw [List.any_map]
    rfl
  refine onStrokes_unbound n ?_
  simp only [Node.unbound_kind, Kind.unbound_strokes, Kind.unbound_strokeWeight, hvisible]
  rfl

/-- A radius that is not followed has no use for bindings. -/
theorem radiusLines_unbound (n : Node) :
    radiusLines false n.unbound = radiusLines false n := by
  have hliteral : literalRadius n.unbound = literalRadius n := by
    simp only [literalRadius, Node.unbound_kind, Kind.unbound_radii?, lacking_unbound]
  cases n with
  | mk a k children =>
      cases k with
      | shape form paints radii =>
          cases form with
          | ellipse => rfl
          | rectangle | group | component => exact hliteral
      | frame | instanceOf | text | path | other => exact hliteral

theorem ofContent_unbound
    {α : Type} {f : TextContent → Script α} (field : String) (n : Node)
    (hf : ∀ content fills, f { content with fills := fills } = f content) :
    ofContent n.unbound field f = ofContent n field f := by
  cases n with
  | mk a k children =>
      cases k with
      | text content => exact hf content _
      | frame | shape | instanceOf | path | other => exact lacking_unbound _ field

/-- Without variables, a property other than the path of a drawing has the same script for a
node and for the unbound node. -/
theorem lines_unbound (n : Node) {p : Property} (hp : p ≠ .commands) :
    p.lines false n.unbound = p.lines false n := by
  cases p with
  | commands => exact absurd rfl hp
  | borderRadius => exact radiusLines_unbound n
  | borderWidth => exact borderWidthLines_unbound n
  | borderColor => exact borderColorLines_unbound n
  | background | color | fill => exact fillLines_unbound _ n
  | stroke => exact strokeLines_unbound n
  | strokeWidth => exact strokeWidthLines_unbound n
  | text | fontSize => exact bound_unbound _ (ofContent_unbound _ n fun _ _ => rfl)
  | fontFamily | fontWeight | horizontalAlignment => exact ofContent_unbound _ n fun _ _ => rfl
  | x | y | width | height | maxWidth | maxHeight | minWidth | minHeight | spacing | alignment
  | paddingLeft | paddingRight | paddingTop | paddingBottom | opacity =>
      cases n with
      | mk a k children => rfl

/-- The path of a drawing asks for the drawing of a node with the same identifier. -/
theorem commandLines_alike (n : Node) :
    (commandLines n).Alike (commandLines n.unbound) := by
  have hform : drawnForm n.unbound.kind = drawnForm n.kind := by
    cases n with
    | mk a k children =>
        cases k with
        | path form paints => cases form <;> rfl
        | frame | shape | instanceOf | text | other => rfl
  have hid : n.id = n.unbound.id := by
    simp [Node.id]
  have hname : n.unbound.name = n.name := by
    simp [Node.name]
  rw [commandLines_eq, commandLines_eq]
  refine .drawing n.unbound_componentId?.symm hid ?_
  intro r
  cases r with
  | error f =>
      simp only [afterDrawing, ← hid, hname]
      exact .note _ (.done _)
  | ok svg =>
      simp only [afterDrawing, ← hid, hname, hform]
      split
      · exact .done _
      · exact .note _ (.done _)

/-- A property that is not followed has no use for bindings, whatever it is. -/
theorem lines_alike (n : Node) (p : Property) :
    (p.lines false n).Alike (p.lines false n.unbound) := by
  by_cases hp : p = .commands
  · subst hp
    exact commandLines_alike n
  · rw [lines_unbound n hp]
    exact (lines_describes (n := n) p).alike

theorem contained_alike (n : Node) (p : Property) :
    (p.contained false n).Alike (p.contained false n.unbound) := by
  refine (lines_alike n p).recover ?_
  intro f
  have hid : n.unbound.id = n.id := by
    simp [Node.id]
  have hname : n.unbound.name = n.name := by
    simp [Node.name]
  rw [hid, hname]
  exact .note _ (.done _)

theorem allLines_alike (n : Node) (ps : List Property) :
    (allLines false n ps).Alike (allLines false n.unbound ps) :=
  Script.Alike.collect (contained_alike n) ps

end Property

namespace Snippet

theorem keyword_unbound (k : Kind) : keyword k.unbound = keyword k := by
  cases k <;> rfl

theorem remark_unbound (k : Kind) : remark k.unbound = remark k := by
  cases k <;> rfl

theorem unbound_ne_instance
    {k : Kind} (hk : ∀ c, k ≠ .instanceOf c) (c : Option String) :
    k.unbound ≠ .instanceOf c := by
  cases k with
  | instanceOf d => exact absurd rfl (hk d)
  | frame | shape | text | path | other => nofun

/-- An instance asks for its component alike with bindings and without. -/
theorem instance_alike (a : Attributes) (c : Option String) (children : List Node) :
    (block false (.mk a (.instanceOf c) children)).Alike
      (block false (Node.mk a (.instanceOf c) children).unbound) := by
  show Script.Alike _ (block false (.mk _ (.instanceOf c) _))
  rw [block_instance, block_instance]
  refine .component rfl rfl ?_
  rintro (f | _ | found)
  · exact .note _ (.done _)
  · exact .done _
  · exact .done _

mutual

/-- Without variables, the script of a node is alike to that of the unbound node. -/
theorem block_alike :
    ∀ n : Node, (block false n).Alike (block false n.unbound)
  | .mk a k children => by
      rcases instance_or_element k with ⟨c, rfl⟩ | hk
      · exact instance_alike a c children
      · show Script.Alike _ (block false (.mk { a with bindings := .empty } k.unbound _))
        rw [block_element false a children hk]
        rw [block_element false _ _ (unbound_ne_instance hk)]
        rw [Kind.unbound_nodeClass, keyword_unbound, remark_unbound]
        refine (Property.allLines_alike (.mk a k children) _).bind ?_
        intro lines
        exact (blocks_alike children).bind fun inner => .done _

/-- Without variables, the script of a row is alike to that of the unbound row. -/
theorem blocks_alike :
    ∀ ns : List Node, (blocks false ns).Alike (blocks false (Node.unboundAll ns))
  | [] => .done []
  | n :: rest => by
      rw [Node.unboundAll, blocks_cons, blocks_cons]
      refine (block_alike n).bind ?_
      intro b
      exact (blocks_alike rest).bind fun bs => .done (b :: bs)

end

/-- **What a scene and its design say about variables does not show when variables are not
followed**, and nobody asks for it. -/
theorem unfollowed_blocks_agree
    {σ τ : Type} {host : Host σ} {host' : Host τ}
    {component : Option String → String → Except HostFault (Option MainComponent)}
    {drawing : Option String → String → Except HostFault String}
    (hhost : host.AnswersByIds component drawing)
    (hhost' : host'.AnswersByIds component drawing)
    {n n' : Node} (hn : n.unbound = n'.unbound) (state : σ) (state' : τ) :
    (∃ b,
      ((block false n).run host state).outcome = .ok b ∧
      ((block false n').run host' state').outcome = .ok b) ∧
    (∀ q ∈ ((block false n).run host state).calls, ¬ q.IsLookup) ∧
    (∀ q ∈ ((block false n').run host' state').calls, ¬ q.IsLookup) := by
  -- Each scene is compared with its unbound form, against the second host as a common ground.
  obtain ⟨houtcome, hcalls⟩ := (block_alike n).run hhost hhost' state state'
  obtain ⟨houtcome', hcalls'⟩ := (block_alike n').run hhost' hhost' state' state'
  refine ⟨?_, hcalls, hcalls'⟩
  obtain ⟨b, hb, -⟩ := (block_always_mirrors false n').run host' state'
  refine ⟨b, ?_, hb⟩
  rw [houtcome, hn, ← houtcome', hb]

/-- What tables reply about the component of an instance that names one or none. -/
def componentIn (t : Tables) (component : Option String) (_ : String) :
    Except HostFault (Option MainComponent) :=
  match component with
  | some id => .ok (if id = "" then none else Tables.lookup? id t.components)
  | none => .ok none

/-- What tables reply about the drawing of a node. -/
def drawingIn (t : Tables) (_ : Option String) (id : String) : Except HostFault String :=
  match Tables.lookup? id t.drawings with
  | some svg => .ok svg
  | none => .error (.refused ("No SVG export available for node " ++ id))

/-- Tables answer by identifiers. -/
theorem tables_answerByIds (t : Tables) :
    t.host.AnswersByIds (componentIn t) (drawingIn t) := by
  constructor
  · intro n state
    show (Except.ok (t.component? n) : Except HostFault (Option MainComponent)) = _
    unfold Tables.component? componentIn
    cases n.componentId? with
    | none => rfl
    | some id => rfl
  · intro n state
    rfl

/-- A host over tables that has lost all variables and counts its calls. -/
def offline (t : Tables) : Host Nat
  | .variableById _, calls => (.error (.failed "offline"), calls + 1)
  | .collectionById _, calls => (.error (.failed "offline"), calls + 1)
  | .componentOf n, calls => (t.reply (.componentOf n), calls + 1)
  | .drawingOf n, calls => (t.reply (.drawingOf n), calls + 1)

theorem offline_answersByIds (t : Tables) :
    (offline t).AnswersByIds (componentIn t) (drawingIn t) where
  component_eq n _ := (tables_answerByIds t).component_eq n ()
  drawing_eq n _ := (tables_answerByIds t).drawing_eq n ()

/-- A stroked vector with bindings of its own and of its stroke. -/
def arrow (bindings : Bindings) (color : Option VariableRef) : Node :=
  .mk (.bare "3:1" "Arrow" bindings)
    (.path .vector
      { fills := []
        strokes := [⟨"SOLID", true, .one, some ⟨.one, .one, .one, .one⟩, none, none, color⟩]
        strokeWeight := some .one }) []

/-- The vector with a bound stroke. -/
def boundArrow : Node :=
  arrow ⟨[(.strokeWeight, ⟨"thin", "VARIABLE_ALIAS"⟩)]⟩ (some ⟨"ink", "VARIABLE_ALIAS"⟩)

/-- The vector without bindings. -/
def plainArrow : Node := arrow .empty none

/-- A design with the drawing of the vector. -/
def drawnArrow : Tables :=
  { Tables.empty with drawings := [("3:1", "<svg><path d='M0 0'/></svg>")] }

/-- The bound vector and the plain one become one block, with the variables and without. -/
theorem unfollowed_arrows_agree :
    boundArrow ≠ plainArrow ∧ boundArrow.unbound = plainArrow.unbound ∧
    drawnArrow.host.AnswersByIds (componentIn drawnArrow) (drawingIn drawnArrow) ∧
    (offline drawnArrow).AnswersByIds (componentIn drawnArrow) (drawingIn drawnArrow) ∧
    (∃ b,
      ((block false boundArrow).run drawnArrow.host ()).outcome = .ok b ∧
      ((block false plainArrow).run (offline drawnArrow) 0).outcome = .ok b) ∧
    (∀ q ∈ ((block false boundArrow).run drawnArrow.host ()).calls, ¬ q.IsLookup) ∧
    (∀ q ∈ ((block false plainArrow).run (offline drawnArrow) 0).calls, ¬ q.IsLookup) := by
  have hne : boundArrow ≠ plainArrow := by
    intro h
    have hentries := congrArg (fun n => n.attributes.bindings.entries) h
    cases hentries
  have hn : boundArrow.unbound = plainArrow.unbound := rfl
  refine ⟨hne, hn, tables_answerByIds _, offline_answersByIds _, ?_⟩
  exact unfollowed_blocks_agree (tables_answerByIds _) (offline_answersByIds _) hn () 0

end Snippet
end SceneMarkup
