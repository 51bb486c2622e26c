import SceneMarkup.Markup.Snippet
import SceneMarkup.Proofs.Description

/-!
# Blocks mirror nodes

Generation gives one block for each node that is not inside an instance, nested as the nodes are.
The relation `Mirrors` says so beside the program: it compares a node, the turns of the
conversation in which its block was made, and the block. The turns matter because the block of an
instance depends on one reply, and a host may answer the same question differently each time.

* `block_always_mirrors`: whatever the replies, the script of a node ends in a block that mirrors
  the node.
* `scene_mirrored`: the same of every run against every host, with a state or without.
-/

namespace SceneMarkup.Snippet

open Script (Turn)

/-- The block of an instance of which the component is known or not. -/
def blockOfComponent (name : String) : Option MainComponent → Block
  | some c => .mk (some (Text.pascal c.declaredName)) (some (Text.kebab name)) none [] []
  | none =>
    .mk none none (some ("Main component not found for instance: " ++ Text.kebab name)) [] []

/-- What follows the reply to the question for the component of a node. -/
def afterComponent (n : Node) : (Query.componentOf n).Reply → Script Block
  | .ok found => .done (blockOfComponent n.name found)
  | .error f => .note (.componentFailed n.name n.id f) (.done (blockOfComponent n.name none))

/-- An instance asks for its component and for nothing else. -/
theorem block_instance
    (followed : Bool) (a : Attributes) (c : Option String) (children : List Node) :
    block followed (.mk a (.instanceOf c) children) =
      .ask (.componentOf (.mk a (.instanceOf c) children))
        (afterComponent (.mk a (.instanceOf c) children)) := by
  unfold block
  show Script.ask _ _ = Script.ask _ _
  congr 1
  funext r
  rcases r with f | _ | found <;> rfl

theorem instance_or_element (k : Kind) :
    (∃ c, k = .instanceOf c) ∨ ∀ c, k ≠ .instanceOf c := by
  cases k with
  | instanceOf c => exact .inl ⟨c, rfl⟩
  | frame | shape | text | path | other =>
      right
      intro c h
      cases h

/-- Any other node writes its properties and then its children. -/
theorem block_element
    (followed : Bool) (a : Attributes) {k : Kind} (children : List Node)
    (hk : ∀ c, k ≠ .instanceOf c) :
    block followed (.mk a k children) =
      (Property.allLines followed (.mk a k children) (properties k.nodeClass)).bind
        fun lines => (blocks followed children).bind
          fun inner =>
            .done (.mk (some (keyword k)) (some (Text.kebab a.name)) (remark k) lines inner) := by
  cases k with
  | instanceOf c => exact absurd rfl (hk c)
  | frame | shape | text | path | other => rfl

theorem blocks_cons (followed : Bool) (n : Node) (rest : List Node) :
    blocks followed (n :: rest) =
      (block followed n).bind fun b =>
        (blocks followed rest).bind fun bs => .done (b :: bs) :=
  rfl

/-- The element that a kind of node becomes, and the remark above it. -/
inductive Element : Kind → String → Option String → Prop
  | horizontal : Element (.frame "HORIZONTAL") "HorizontalLayout" none
  | vertical : Element (.frame "VERTICAL") "VerticalLayout" none
  | frame {mode : String} :
      mode ≠ "HORIZONTAL" → mode ≠ "VERTICAL" → Element (.frame mode) "Rectangle" none
  | shape {form : Shape} {paints : Paints} {radii : Radii} :
      Element (.shape form paints radii) "Rectangle" none
  | text {content : TextContent} : Element (.text content) "Text" none
  | path {form : Stroke} {paints : Paints} : Element (.path form paints) "Path" none
  | other {type : String} :
      Element (.other type) "Rectangle" (some ("Unsupported type: " ++ type))

theorem element_of_kind {k : Kind} (hk : ∀ c, k ≠ .instanceOf c) :
    Element k (keyword k) (remark k) := by
  cases k with
  | frame mode =>
      by_cases hh : mode = "HORIZONTAL"
      · subst hh
        exact .horizontal
      · by_cases hv : mode = "VERTICAL"
        · subst hv
          exact .vertical
        · have hkeyword : frameKeyword mode = "Rectangle" := by
            simp [frameKeyword, hh, hv]
          show Element (.frame mode) (frameKeyword mode) none
          rw [hkeyword]
          exact .frame hh hv
  | shape => exact .shape
  | instanceOf c => exact absurd rfl (hk c)
  | text => exact .text
  | path => exact .path
  | other => exact .other

/-- A question for the component of some node. -/
def IsOfComponent : Query → Prop
  | .componentOf _ => True
  | _ => False

mutual

/-- A block mirrors a node, when it was made in a conversation of these turns. -/
inductive Mirrors : Node → List Turn → Block → Prop
  /-- An instance of a component that the host knows. -/
  | component
      {a : Attributes} {c : Option String} {children : List Node} {found : MainComponent} :
      Mirrors (.mk a (.instanceOf c) children)
        [⟨.componentOf (.mk a (.instanceOf c) children), .ok (some found)⟩]
        (.mk (some (Text.pascal found.declaredName)) (some (Text.kebab a.name)) none [] [])
  /-- An instance of which the component is missing or the host has failed. -/
  | missing
      {a : Attributes} {c : Option String} {children : List Node}
      {reply : Except HostFault (Option MainComponent)} :
      (∀ found, reply ≠ .ok (some found)) →
      Mirrors (.mk a (.instanceOf c) children)
        [⟨.componentOf (.mk a (.instanceOf c) children), reply⟩]
        (.mk none none
          (some ("Main component not found for instance: " ++ Text.kebab a.name)) [] [])
  /-- Any other node: the turns of its properties come first, then those of its children. -/
  | element
      {a : Attributes} {k : Kind} {children : List Node} {own inner : List Turn}
      {keyword : String} {remark : Option String} {lines : List String} {bs : List Block} :
      Element k keyword remark →
      (∀ t ∈ own, ¬ IsOfComponent t.query) →
      MirrorsAll children inner bs →
      Mirrors (.mk a k children) (own ++ inner)
        (.mk (some keyword) (some (Text.kebab a.name)) remark lines bs)

/-- A row of blocks mirrors a row of nodes, one block for each node in order. -/
inductive MirrorsAll : List Node → List Turn → List Block → Prop
  | nil : MirrorsAll [] [] []
  | cons
      {n : Node} {rest : List Node} {log logs : List Turn} {b : Block} {bs : List Block} :
      Mirrors n log b →
      MirrorsAll rest logs bs →
      MirrorsAll (n :: rest) (log ++ logs) (b :: bs)

end

theorem instance_mirrors
    (followed : Bool) (a : Attributes) (c : Option String) (children : List Node) :
    (block followed (.mk a (.instanceOf c) children)).Always fun log r =>
      ∃ b, r = .ok b ∧ Mirrors (.mk a (.instanceOf c) children) log b := by
  rw [block_instance]
  rintro (f | _ | found)
  · refine ⟨_, rfl, .missing ?_⟩
    intro found h
    cases h
  · refine ⟨_, rfl, .missing ?_⟩
    intro found h
    cases h
  · exact ⟨_, rfl, .component⟩

mutual

/-- Whatever the replies, a node becomes a block that mirrors it. -/
theorem block_always_mirrors (followed : Bool) :
    ∀ n : Node, (block followed n).Always fun log r =>
      ∃ b, r = .ok b ∧ Mirrors n log b
  | .mk a k children => by
      rcases instance_or_element k with ⟨c, rfl⟩ | hk
      · exact instance_mirrors followed a c children
      · rw [block_element followed a children hk, Script.always_bind]
        refine (Property.allLines_settles followed _ _).imp ?_
        rintro own _ ⟨⟨lines, rfl⟩, hown⟩
        refine (Script.always_bind _ _ _).2 ((blocks_always_mirror followed children).imp ?_)
        rintro inner _ ⟨bs, rfl, hbs⟩
        refine ⟨_, rfl, ?_⟩
        rw [List.append_nil]
        refine .element (element_of_kind hk) ?_ hbs
        -- Properties ask for variables and drawings only.
        intro t ht hcomponent
        have hconcerns := hown t ht
        cases hq : t.query with
        | componentOf m => simp [hq, Query.Concerns] at hconcerns
        | variableById | collectionById | drawingOf => simp [hq, IsOfComponent] at hcomponent

/-- Whatever the replies, a row of nodes becomes a row of blocks that mirrors it. -/
theorem blocks_always_mirror (followed : Bool) :
    ∀ ns : List Node, (blocks followed ns).Always fun log r =>
      ∃ bs, r = .ok bs ∧ MirrorsAll ns log bs
  | [] => ⟨[], rfl, .nil⟩
  | n :: rest => by
      rw [blocks_cons, Script.always_bind]
      refine (block_always_mirrors followed n).imp ?_
      rintro log _ ⟨b, rfl, hb⟩
      refine (Script.always_bind _ _ _).2 ((blocks_always_mirror followed rest).imp ?_)
      rintro logs _ ⟨bs, rfl, hbs⟩
      refine ⟨b :: bs, rfl, ?_⟩
      rw [List.append_nil]
      exact .cons hb hbs

end

/-- **Generation never fails, and its block mirrors the scene**, against every host. -/
theorem scene_mirrored
    {σ : Type} (host : Host σ) (state : σ) (followed : Bool) (n : Node) :
    ∃ b, ((block followed n).run host state).outcome = .ok b ∧
      Mirrors n ((block followed n).turns host state) b :=
  (block_always_mirrors followed n).run host state

end SceneMarkup.Snippet
