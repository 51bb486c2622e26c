import SceneMarkup.Proofs.HiddenLiterals
import SceneMarkup.Proofs.Acceptance

/-!
# Positions of roots

What sits directly on a page is positioned by the page. The type of the parent is stored in each
node and looked at where positions are written, and by no other property: for a host that does not
look at it either, the block of a root on a page is that of the same root under no parent, without
the lines of its position.

* `IgnoresParent`: replies for which a question about a node is the same under any parent.
* `Property.contribution_under`: no property but a coordinate depends on the type of the parent.
* `Snippet.block_under_page`: a page takes the position out of a block, and changes nothing else.
* `Document.canvas_drops_position`: the same of documents that are converted with and without the
  type.
* `Document.canvas_drops_drawing`: with a host that looks at the type of the parent the page may
  take more out of a block.
-/

namespace SceneMarkup

namespace Node

variable (P : Option String) (n : Node)

@[simp] theorem under_attributes : (n.under P).attributes = n.attributes.under P := by
  cases n
  rfl

@[simp] theorem under_kind : (n.under P).kind = n.kind := by
  cases n
  rfl

@[simp] theorem under_id : (n.under P).id = n.id := by
  cases n
  rfl

theorem under_componentId? : (n.under P).componentId? = n.componentId? := by
  cases n
  rfl

end Node

/-- Replies for which a question about a node is the same question whatever the type of its parent
is. -/
structure IgnoresParent (reply : (q : Query) → q.Reply) : Prop where
  component : ∀ P n, reply (.componentOf (n.under P)) = reply (.componentOf n)
  drawing : ∀ P n, reply (.drawingOf (n.under P)) = reply (.drawingOf n)

/-- Hosts that go by identifiers do not look at parents. -/
theorem IgnoresParent.of_answersByIds
    {reply : (q : Query) → q.Reply}
    {component : Option String → String → Except HostFault (Option MainComponent)}
    {drawing : Option String → String → Except HostFault String}
    (h : (Host.constant reply).AnswersByIds component drawing) : IgnoresParent reply where
  component P n := by
    have hunder := h.component_eq (n.under P) ()
    rw [Node.under_componentId?, Node.under_id] at hunder
    exact hunder.trans (h.component_eq n ()).symm
  drawing P n := by
    have hunder := h.drawing_eq (n.under P) ()
    rw [Node.under_componentId?, Node.under_id] at hunder
    exact hunder.trans (h.drawing_eq n ()).symm

variable {reply : (q : Query) → q.Reply} {P : Option String}

namespace Property

/-- The properties of a position. -/
def coordinates : List Property := [.x, .y]

/-- A property that is neither a coordinate nor a drawing has the same script under any parent. -/
theorem lines_under (followed : Bool) (n : Node) {p : Property} (hp : p ∉ coordinates)
    (hdrawing : p ≠ .commands) : p.lines followed (n.under P) = p.lines followed n := by
  cases n with
  | mk a k children =>
      cases p with
      | x | y => exact absurd (by decide) hp
      | commands => exact absurd rfl hdrawing
      | _ => rfl

theorem commands_under (hreply : IgnoresParent reply) (n : Node) :
    (commandLines (n.under P)).answer reply = (commandLines n).answer reply := by
  rw [commandLines_eq, commandLines_eq, Script.answer_ask, Script.answer_ask, hreply.drawing]
  rcases reply (.drawingOf n) with f | svg
  · rfl
  · -- Only the notices name the node, and its name is the same.
    simp only [afterDrawing, Node.under_kind]
    cases commandsIn (drawnForm n.kind) svg with
    | some found => rfl
    | none => rfl

/-- What a property other than a coordinate contributes does not depend on the type of the
parent. -/
theorem contribution_under
    (hreply : IgnoresParent reply) (followed : Bool) (n : Node) {p : Property}
    (hp : p ∉ coordinates) :
    contribution reply followed (n.under P) p = contribution reply followed n p := by
  have hanswer : (p.lines followed (n.under P)).answer reply =
      (p.lines followed n).answer reply := by
    by_cases hdrawing : p = .commands
    · subst hdrawing
      exact commands_under hreply n
    · rw [lines_under followed n hp hdrawing]
  rw [contribution_eq, contribution_eq, hanswer]

/-- On a page a coordinate contributes nothing. -/
theorem contribution_of_isRootChild
    (followed : Bool) {n : Node} (hroot : n.attributes.isRootChild = true) {p : Property}
    (hp : p ∈ coordinates) : contribution reply followed n p = [] := by
  have hlines : p.lines followed n = .done [] := by
    simp only [coordinates, List.mem_cons, List.not_mem_nil, or_false] at hp
    rcases hp with rfl | rfl
    · exact if_pos hroot
    · exact if_pos hroot
  rw [contribution_eq, hlines]
  rfl

end Property

namespace Snippet

open Property (contribution coordinates)

/-- The properties of a class begin with the coordinates, and have them once. -/
theorem properties_eq (c : NodeClass) :
    ∃ rest, properties c = coordinates ++ rest ∧ ∀ p ∈ rest, p ∉ coordinates := by
  refine ⟨(properties c).drop 2, ?_, ?_⟩
  · rfl
  · cases c with
    | shape _ =>
      simp [properties, Property.shared, Property.ofClass, Property.ofRectangle, coordinates]
    | text => decide
    | path _ => simp [properties, Property.shared, Property.ofClass, Property.ofPath, coordinates]
    | frame | instanceOf | other => decide

/-- The lines that the position contributes to the block of a node. That of an instance has no
lines. -/
def positionLines (reply : (q : Query) → q.Reply) (followed : Bool) (n : Node) : List String :=
  match n.kind with
  | .instanceOf _ => []
  | _ => coordinates.flatMap (contribution reply followed n)

theorem blocks_answer (reply : (q : Query) → q.Reply) (followed : Bool) (ns : List Node) :
    ∃ bs, (blocks followed ns).answer reply = .ok bs := by
  obtain ⟨bs, hbs, -⟩ := (blocks_always_mirror followed ns).run (Host.constant reply) ()
  exact ⟨bs, hbs⟩

theorem positionLines_element
    (followed : Bool) {n : Node} (hn : ∀ c, n.kind ≠ .instanceOf c) :
    positionLines reply followed n = coordinates.flatMap (contribution reply followed n) := by
  unfold positionLines
  split
  next c hc => exact absurd hc (hn c)
  next => rfl

/-- The block of an instance has no lines and nothing inside. -/
theorem blockOfComponent_eq (name : String) (found : Option MainComponent) :
    ∃ keyword identifier comment,
      blockOfComponent name found = .mk keyword identifier comment [] [] := by
  cases found with
  | none => exact ⟨_, _, _, rfl⟩
  | some c => exact ⟨_, _, _, rfl⟩

/-- A page takes the lines of the position out of a block and leaves the rest, and the blocks
inside, as they are. -/
theorem block_under_page
    (hreply : IgnoresParent reply) (followed : Bool) (n : Node)
    (hpage : (n.under P).attributes.isRootChild = true) :
    ∃ keyword identifier comment rest inner,
      (block followed n).answer reply =
          .ok (.mk keyword identifier comment (positionLines reply followed n ++ rest) inner) ∧
        (block followed (n.under P)).answer reply =
          .ok (.mk keyword identifier comment rest inner) := by
  obtain ⟨a, k, children⟩ := n
  rcases instance_or_element k with ⟨c, rfl⟩ | hk
  · -- An instance asks one question, and under both parents it is the same.
    have hcomponent := hreply.component P (.mk a (.instanceOf c) children)
    obtain ⟨keyword, identifier, comment, hblock⟩ := blockOfComponent_eq a.name
      (Except.toOption (reply (.componentOf (.mk a (.instanceOf c) children)))).join
    refine ⟨keyword, identifier, comment, [], [], ?_, ?_⟩
    · rw [answer_instance, hblock]
      rfl
    · rw [Node.under] at hcomponent ⊢
      rw [answer_instance, hcomponent]
      exact congrArg Except.ok hblock
  · obtain ⟨bs, hbs⟩ := blocks_answer reply followed children
    obtain ⟨rest, hproperties, hrest⟩ := properties_eq k.nodeClass
    have hnone : coordinates.flatMap
        (contribution reply followed ((Node.mk a k children).under P)) = [] :=
      List.flatMap_eq_nil_iff.2 fun p hp => Property.contribution_of_isRootChild followed hpage hp
    have hkept : rest.flatMap (contribution reply followed ((Node.mk a k children).under P)) =
        rest.flatMap (contribution reply followed (.mk a k children)) :=
      List.flatMap_congr fun p hp => Property.contribution_under hreply followed _ (hrest p hp)
    refine ⟨some (keyword k), some (Text.kebab a.name), remark k,
      rest.flatMap (contribution reply followed (.mk a k children)), bs, ?_, ?_⟩
    · rw [answer_element followed a hk hbs, hproperties, List.flatMap_append,
        positionLines_element (n := .mk a k children) followed hk]
    · rw [← hkept]
      rw [Node.under] at hnone ⊢
      rw [answer_element followed (a.under P) hk hbs, hproperties, List.flatMap_append, hnone,
        List.nil_append]
      rfl

end Snippet

namespace Document

open Snippet (block positionLines)

/-- **The type of the parent takes nothing but the position of the root out of the markup.** A
document is accepted on a page exactly if it is without a parent, as the same node but for the type.
If what the host answers about a node is the same under any parent, the two blocks are the same but
for the lines that the coordinates of the root contribute, be they values, references or remarks,
and so are all the blocks inside. -/
theorem canvas_drops_position
    {reply : (q : Query) → q.Reply} (hreply : IgnoresParent reply) (followed : Bool) (v : Json) :
    node .null (.str "CANVAS") v = (node .null .null v).map (Node.under (some "CANVAS")) ∧
      ∀ n, node .null .null v = .value n →
        ∃ onCanvas, node .null (.str "CANVAS") v = .value onCanvas ∧
          ∃ keyword identifier comment rest inner,
            (block followed n).answer reply =
                .ok (.mk keyword identifier comment
                  (positionLines reply followed n ++ rest) inner) ∧
              (block followed onCanvas).answer reply =
                .ok (.mk keyword identifier comment rest inner) := by
  have hsame : node .null (.str "CANVAS") v =
      (node .null .null v).map (Node.under (some "CANVAS")) :=
    node_under none (some "CANVAS") v
  refine ⟨hsame, fun n hn => ⟨n.under (some "CANVAS"), ?_, ?_⟩⟩
  · rw [hsame, hn]
    rfl
  · refine Snippet.block_under_page hreply followed n ?_
    rw [Node.under_attributes]
    rfl

/-- A vector with a bound coordinate and a literal one, and with a box inside. -/
def pinnedArrow : Json :=
  .obj [("type", .str "VECTOR"), ("id", .str "1:1"), ("name", .str "Arrow"),
    ("x", .int 3), ("y", .int 4),
    ("boundVariables", .obj [("x", .obj [("type", .str "VARIABLE_ALIAS"), ("id", .str "size")])]),
    ("children", .arr [
      .obj [("type", .str "RECTANGLE"), ("id", .str "1:2"), ("name", .str "Tip"), ("x", .int 5)]])]

/-- Of the lines on a reference and on a literal, and of those of the box, the page drops the first
two. -/
theorem canvas_drops_position_pinnedArrow :
    IgnoresParent Snippet.palette.reply ∧
      ∃ n, node .null .null pinnedArrow = .value n ∧
        positionLines Snippet.palette.reply true n = ["x: Theme.space.base;", "y: 4px;"] ∧
        ∃ onCanvas, node .null (.str "CANVAS") pinnedArrow = .value onCanvas ∧
          ∃ keyword identifier comment rest inner,
            (block true n).answer Snippet.palette.reply =
                .ok (.mk keyword identifier comment
                  (positionLines Snippet.palette.reply true n ++ rest) inner) ∧
              (block true onCanvas).answer Snippet.palette.reply =
                .ok (.mk keyword identifier comment rest inner) := by
  have hreply : IgnoresParent Snippet.palette.reply :=
    .of_answersByIds (Snippet.tables_answerByIds Snippet.palette)
  have hlines : (node .null .null pinnedArrow).accepted.map
      (positionLines Snippet.palette.reply true) =
      some ["x: Theme.space.base;", "y: 4px;"] := by
    decide +kernel
  obtain ⟨n, haccepted, hposition⟩ := Option.map_eq_some_iff.1 hlines
  have hn := Reading.accepted_eq_some.1 haccepted
  exact ⟨hreply, n, hn, hposition, (canvas_drops_position hreply true pinnedArrow).2 n hn⟩

/-- A host that draws only what does not sit on a page. -/
def offPage : (q : Query) → q.Reply
  | .drawingOf n => .ok (if n.attributes.isRootChild then "" else "<svg><path d='M0 0'/></svg>")
  | q => Snippet.palette.reply q

/-- A host that is given the node sees the type of its parent. Then the page takes the drawing out
of the block as well, and the two blocks do not differ in the lines of the position alone. -/
theorem canvas_drops_drawing :
    ∃ n onCanvas, node .null .null pinnedArrow = .value n ∧
      node .null (.str "CANVAS") pinnedArrow = .value onCanvas ∧
      ¬ ∃ keyword identifier comment rest inner,
        (block true n).answer offPage =
            .ok (.mk keyword identifier comment (positionLines offPage true n ++ rest) inner) ∧
          (block true onCanvas).answer offPage =
            .ok (.mk keyword identifier comment rest inner) := by
  have hlines :
      (do let n ← (node .null .null pinnedArrow).accepted
          let onCanvas ← (node .null (.str "CANVAS") pinnedArrow).accepted
          let b ← ((block true n).answer offPage).toOption
          let b' ← ((block true onCanvas).answer offPage).toOption
          return decide (b.properties = positionLines offPage true n ++ b'.properties)) =
        some false := by
    decide +kernel
  obtain ⟨n, hn, hlines⟩ := Option.bind_eq_some_iff.1 hlines
  obtain ⟨onCanvas, hcanvas, hlines⟩ := Option.bind_eq_some_iff.1 hlines
  refine ⟨n, onCanvas, Reading.accepted_eq_some.1 hn, Reading.accepted_eq_some.1 hcanvas, ?_⟩
  rintro ⟨keyword, identifier, comment, rest, inner, hblock, hblock'⟩
  rw [hblock, hblock'] at hlines
  simp [Except.toOption, Block.properties] at hlines

end Document
end SceneMarkup
