import SceneMarkup.Lookup.Tables
import SceneMarkup.Proofs.Replies

/-!
# A variable that faults

Two designs agree at every question but one: in the second the host fails on the variable `v`.
Generation is compared in both.

* `Script.Describes.answer_of_fault`: a description that does not ask for `v` comes to the same in
  both designs, and one that asks for it stops with the fault of the host.
* `PropertyIsolated`: so a property either keeps its lines or is replaced as a whole by one remark.
* `fault_isolated`: the same for all nodes of a scene at once, the rest of the blocks being equal.
-/

namespace SceneMarkup

variable
  {reply reply' : (q : Query) → q.Reply} {v : String} {f : HostFault}

/-- A script that does not ask for a variable is not touched by its fault, and one that asks ends
with it. -/
theorem Script.Describes.answer_of_fault
    {α : Type} {followed : Bool} {n : Node} {s : Script α}
    (hs : s.Describes followed n)
    (hagree : ∀ q, q ≠ .variableById v → reply' q = reply q)
    (hfault : reply' (.variableById v) = .error f) :
    (.variableById v ∉ s.asked reply → s.answer reply' = s.answer reply) ∧
      (.variableById v ∈ s.asked reply → s.answer reply' = .error (.host f)) := by
  induction hs with
  | done a => simp
  | fail f => simp
  | note x _ ih => exact ih
  | @resolve id next _ _ ih =>
      rw [Reference.resolve_bind]
      by_cases hid : id = v
      · -- The script asks for `v` here, and nothing follows the fault.
        subst hid
        simp [hfault, Reference.afterVariable]
      · have hne : Query.variableById v ≠ .variableById id := by
          intro h
          cases h
          exact hid rfl
        simp only [asked_ask, answer_ask, hagree _ hne.symm, List.mem_cons, hne, false_or]
        -- The designs agree on this variable, and on its collection if there is one to ask for.
        rcases reply (.variableById id) with g | _ | w
        · simp [Reference.afterVariable]
        · exact ih none
        · have hne' : Query.variableById v ≠ .collectionById w.collectionId := nofun
          simp only [Reference.afterVariable, asked_ask, answer_ask, hagree _ hne'.symm,
            List.mem_cons, hne', false_or]
          rcases reply (.collectionById w.collectionId) with g | _ | c
          · simp [Reference.afterCollection]
          · exact ih none
          · exact ih _
  | drawing _ ih =>
      have hne : Query.variableById v ≠ .drawingOf n := nofun
      simp only [asked_ask, answer_ask, hagree _ hne.symm, List.mem_cons, hne, false_or]
      exact ih _

/-- What the fault of a variable does to a property: nothing if the property does not ask for
the variable, and otherwise the fault takes the place of all its lines. -/
structure PropertyIsolated
    (reply reply' : (q : Query) → q.Reply) (v message : String) (followed : Bool)
    (n : Node) (p : Property) : Prop where
  untouched :
    .variableById v ∉ (p.lines followed n).asked reply →
      p.contribution reply' followed n = p.contribution reply followed n
  replaced :
    .variableById v ∈ (p.lines followed n).asked reply →
      p.contribution reply' followed n =
        ["// Error processing " ++ p.name ++ ": " ++ message]

/-- The fault of a variable touches the properties that ask for it, and no others. -/
theorem property_isolated
    (hagree : ∀ q, q ≠ .variableById v → reply' q = reply q)
    (hfault : reply' (.variableById v) = .error f)
    (followed : Bool) (n : Node) (p : Property) :
    PropertyIsolated reply reply' v f.message followed n p := by
  have hdescribes : (p.lines followed n).Describes followed n :=
    Property.lines_describes p
  obtain ⟨hsame, hstopped⟩ := hdescribes.answer_of_fault hagree hfault
  constructor
  · intro hnot
    rw [Property.contribution_eq, Property.contribution_eq, hsame hnot]
  · intro hasked
    rw [Property.contribution_eq, hstopped hasked]
    rfl

namespace Block

mutual

/-- A block without the lines of its properties. -/
def outline : Block → Block
  | mk keyword identifier remark _ children =>
    mk keyword identifier remark [] (outlines children)

/-- A row of blocks without the lines of their properties. -/
def outlines : List Block → List Block
  | [] => []
  | b :: bs => outline b :: outlines bs

end

end Block

namespace Snippet

mutual

/-- The blocks of a node in two designs, when one of them fails on a variable. -/
inductive Isolated
    (reply reply' : (q : Query) → q.Reply) (v message : String) (followed : Bool) :
    Node → Block → Block → Prop
  /-- What the component of an instance looks like does not depend on variables. -/
  | ofInstance
      {a : Attributes} {c : Option String} {children : List Node} {b : Block} :
      Isolated reply reply' v message followed (.mk a (.instanceOf c) children) b b
  /-- Any other block keeps its head; its properties are isolated one by one. -/
  | element
      {a : Attributes} {k : Kind} {children : List Node}
      {keyword identifier remark : Option String} {bs bs' : List Block} :
      (∀ c, k ≠ .instanceOf c) →
      (∀ p ∈ properties k.nodeClass,
        PropertyIsolated reply reply' v message followed (.mk a k children) p) →
      IsolatedAll reply reply' v message followed children bs bs' →
      Isolated reply reply' v message followed (.mk a k children)
        (.mk keyword identifier remark
          ((properties k.nodeClass).flatMap
            (Property.contribution reply followed (.mk a k children))) bs)
        (.mk keyword identifier remark
          ((properties k.nodeClass).flatMap
            (Property.contribution reply' followed (.mk a k children))) bs')

/-- The same for rows of nodes and blocks of equal length. -/
inductive IsolatedAll
    (reply reply' : (q : Query) → q.Reply) (v message : String) (followed : Bool) :
    List Node → List Block → List Block → Prop
  | nil : IsolatedAll reply reply' v message followed [] [] []
  | cons
      {n : Node} {rest : List Node} {b b' : Block} {bs bs' : List Block} :
      Isolated reply reply' v message followed n b b' →
      IsolatedAll reply reply' v message followed rest bs bs' →
      IsolatedAll reply reply' v message followed (n :: rest) (b :: bs) (b' :: bs')

end

mutual

/-- Blocks that are isolated have one outline. -/
theorem Isolated.outline_eq
    {message : String} {followed : Bool} {n : Node} {b b' : Block} :
    Isolated reply reply' v message followed n b b' → b.outline = b'.outline
  | .ofInstance => rfl
  | .element _ _ hall => by
      simp only [Block.outline, hall.outlines_eq]

theorem IsolatedAll.outlines_eq
    {message : String} {followed : Bool} {ns : List Node} {bs bs' : List Block} :
    IsolatedAll reply reply' v message followed ns bs bs' →
      Block.outlines bs = Block.outlines bs'
  | .nil => rfl
  | .cons hhead hrest => by
      simp only [Block.outlines, hhead.outline_eq, hrest.outlines_eq]

end

mutual

/-- The fault of a variable is isolated in the block of a tree. -/
theorem block_isolated
    (hagree : ∀ q, q ≠ .variableById v → reply' q = reply q)
    (hfault : reply' (.variableById v) = .error f)
    (followed : Bool) :
    ∀ n : Node, ∃ b b',
      (block followed n).answer reply = .ok b ∧
      (block followed n).answer reply' = .ok b' ∧
      Isolated reply reply' v f.message followed n b b'
  | .mk a k children => by
      rcases instance_or_element k with ⟨c, rfl⟩ | hk
      · have hsame := hagree (.componentOf (.mk a (.instanceOf c) children)) nofun
        refine ⟨_, _, answer_instance reply followed a c children, ?_, .ofInstance⟩
        rw [answer_instance, hsame]
      · obtain ⟨bs, bs', hbs, hbs', hall⟩ := blocks_isolated hagree hfault followed children
        refine
          ⟨_, _, answer_element followed a hk hbs, answer_element followed a hk hbs', ?_⟩
        refine .element hk ?_ hall
        intro p _
        exact property_isolated hagree hfault followed (.mk a k children) p

theorem blocks_isolated
    (hagree : ∀ q, q ≠ .variableById v → reply' q = reply q)
    (hfault : reply' (.variableById v) = .error f)
    (followed : Bool) :
    ∀ ns : List Node, ∃ bs bs',
      (blocks followed ns).answer reply = .ok bs ∧
      (blocks followed ns).answer reply' = .ok bs' ∧
      IsolatedAll reply reply' v f.message followed ns bs bs'
  | [] => ⟨[], [], rfl, rfl, .nil⟩
  | n :: rest => by
      obtain ⟨b, b', hb, hb', hhead⟩ := block_isolated hagree hfault followed n
      obtain ⟨bs, bs', hbs, hbs', hrest⟩ := blocks_isolated hagree hfault followed rest
      exact
        ⟨b :: bs, b' :: bs', answer_cons hb hbs, answer_cons hb' hbs', .cons hhead hrest⟩

end

/-- **The fault of a variable stays within the properties that ask for it**, in every node of
the scene at once. -/
theorem fault_isolated
    (hagree : ∀ q, q ≠ .variableById v → reply' q = reply q)
    (hfault : reply' (.variableById v) = .error f)
    (followed : Bool) (n : Node) :
    ∃ b b',
      (block followed n).answer reply = .ok b ∧
      (block followed n).answer reply' = .ok b' ∧
      b.outline = b'.outline ∧
      Isolated reply reply' v f.message followed n b b' := by
  obtain ⟨b, b', hb, hb', hisolated⟩ := block_isolated hagree hfault followed n
  exact ⟨b, b', hb, hb', hisolated.outline_eq, hisolated⟩

/-- The host of a design after it has lost a variable. -/
def failingAt
    (reply : (q : Query) → q.Reply) (v : String) (f : HostFault) : (q : Query) → q.Reply
  | .variableById id => if id = v then .error f else reply (.variableById id)
  | .collectionById id => reply (.collectionById id)
  | .componentOf n => reply (.componentOf n)
  | .drawingOf n => reply (.drawingOf n)

theorem failingAt_of_ne
    (reply : (q : Query) → q.Reply) (v : String) (f : HostFault) (q : Query)
    (hq : q ≠ .variableById v) :
    failingAt reply v f q = reply q := by
  cases q with
  | variableById id =>
      have hid : id ≠ v := by
        rintro rfl
        exact hq rfl
      simp [failingAt, hid]
  | collectionById | componentOf | drawingOf => rfl

theorem failingAt_self
    (reply : (q : Query) → q.Reply) (v : String) (f : HostFault) :
    failingAt reply v f (.variableById v) = .error f := by
  simp [failingAt]

/-- A design with two variables. -/
def twoSizes : Tables :=
  { Tables.empty with
    known := [("wide", ⟨"wide", "size/wide", "sizes"⟩), ("high", ⟨"high", "size/high", "sizes"⟩)]
    collections := [("sizes", ⟨"sizes", "Sizes", []⟩)] }

/-- A box whose width and height are bound to them. -/
def boundBox : Node :=
  .mk
    (.bare "1:1" "Box"
      ⟨[(.width, ⟨"wide", "VARIABLE_ALIAS"⟩), (.height, ⟨"high", "VARIABLE_ALIAS"⟩)]⟩)
    (.shape .rectangle ⟨[], [], none⟩ ⟨none, none, none, none, none⟩) []

/-- The width of the box is lost with its variable, and nothing else. -/
theorem fault_isolated_boundBox :
    (∀ q, q ≠ .variableById "wide" →
      failingAt twoSizes.reply "wide" (.failed "offline") q = twoSizes.reply q) ∧
    failingAt twoSizes.reply "wide" (.failed "offline") (.variableById "wide") =
      .error (.failed "offline") ∧
    .variableById "wide" ∈ (Property.width.lines true boundBox).asked twoSizes.reply ∧
    ∃ b b',
      (block true boundBox).answer twoSizes.reply = .ok b ∧
      (block true boundBox).answer
        (failingAt twoSizes.reply "wide" (.failed "offline")) = .ok b' ∧
      b.outline = b'.outline ∧
      Isolated twoSizes.reply (failingAt twoSizes.reply "wide" (.failed "offline"))
        "wide" "offline" true boundBox b b' := by
  refine ⟨failingAt_of_ne _ _ _, failingAt_self _ _ _, List.mem_cons_self, ?_⟩
  exact fault_isolated (failingAt_of_ne _ _ _) (failingAt_self _ _ _) true boundBox

end Snippet
end SceneMarkup
