import SceneMarkup.Proofs.Acceptance

/-!
# Scenes depict their data

A scene is read from nested objects, each of which lists its children. The relation `Depicts` says
beside the reader what the scene has of them: one node for each object, in the order of the lists
and nested as they are, of the class that the type belongs to, with the identifier, the name and the
type of the object. Where the type of the parent comes from is left open, since there are two ways
to read a scene which differ in this.

* `Node.members_depict`: the head of an accepted node, from its members.
* `Node.read_depicts`: plain data. An object may name the type of its parent itself and otherwise
  has the one of the object that holds it (`Placed`).
-/

namespace SceneMarkup

namespace Json

/-- The text under a key, the empty one if there is none. -/
def textAt (key : String) (ms : Members) : String :=
  match find? key ms with
  | some (.str s) => s
  | _ => ""

/-- The items of a list. Other values have none. -/
def items : Json → List Json
  | .arr vs => vs
  | _ => []

/-- The children among the members of an object: the items of the list that is there. -/
def childItems (ms : Members) : List Json :=
  match find? "children" ms with
  | some v => v.items
  | none => []

theorem childItems_cons (key : String) (v : Json) (ms : Members) :
    childItems ((key, v) :: ms) = if key = "children" then v.items else childItems ms := by
  by_cases hkey : key = "children" <;> simp [childItems, find?, hkey]

end Json

mutual

/-- A node depicts a value that stands under a parent of a type, if there is one. -/
inductive Depicts
    (rule : Option String → Json.Members → Attributes → Prop) :
    Option String → Json → Node → Prop
  | node
      {parent : Option String} {ms : Json.Members} {a : Attributes} {k : Kind}
      {children : List Node} :
      Json.find? "type" ms = some (.str k.type) →
      k.nodeClass = NodeClass.ofType k.type →
      a.id = Json.textAt "id" ms →
      a.name = Json.textAt "name" ms →
      rule parent ms a →
      DepictsAll rule (some k.type) (Json.childItems ms) children →
      Depicts rule parent (.obj ms) (.mk a k children)

/-- A row of nodes depicts a list of values, one node for each value in order. -/
inductive DepictsAll
    (rule : Option String → Json.Members → Attributes → Prop) :
    Option String → List Json → List Node → Prop
  | nil {parent : Option String} : DepictsAll rule parent [] []
  | cons
      {parent : Option String} {v : Json} {vs : List Json} {n : Node} {ns : List Node} :
      Depicts rule parent v n →
      DepictsAll rule parent vs ns →
      DepictsAll rule parent (v :: vs) (n :: ns)

end

/-- A text with an empty default is the text that stands under its name, if any. -/
theorem textAt_of_withDefault
    {name s : String} (hname : FieldName.camel name = name) {ms : Json.Members}
    (h : Reading.withDefault name "" Reading.text ms = .value s) :
    s = Json.textAt name ms := by
  have haccepted := Reading.accepted_eq_some.2 h
  rw [Reading.accepted_withDefault, FieldName.value?_of_camel hname] at haccepted
  unfold Json.textAt
  cases hfound : Json.find? name ms with
  | none => simpa [hfound, eq_comm] using haccepted
  | some v =>
      rw [hfound] at haccepted
      obtain rfl := Reading.text_eq_value.1 (Reading.accepted_eq_some.1 haccepted)
      rfl

namespace Node

/-- What an accepted node has of its members, before its children are looked at. -/
structure Heads (inherited : Option String) (ms : Json.Members) (a : Attributes) (k : Kind) :
    Prop where
  type : Json.find? "type" ms = some (.str k.type)
  nodeClass : k.nodeClass = NodeClass.ofType k.type
  id : a.id = Json.textAt "id" ms
  name : a.name = Json.textAt "name" ms
  parentType :
    Reading.withDefault "parent_type" inherited (Reading.nullable Reading.text) ms =
      .value a.parentType

/-- A node that is assembled has the heading that its members give. -/
theorem members_depict
    {c : NodeClass} {inherited : Option String} {ms : Json.Members}
    {children : Reading (List Node)} {n : Node}
    (hc : NodeClass.ofMembers ms = .ok c)
    (h : Node.assemble c inherited ms children = .value n) :
    ∃ a k cs, n = .mk a k cs ∧ Heads inherited ms a k ∧ children = .value cs := by
  obtain ⟨lifted, type, a, cs, kind, hlift, htype, hattributes, hcs, hkind, rfl⟩ :=
    assemble_eq_value h
  -- None of the fields of the head is lifted from a style.
  have hkept : ∀ key ∉ TextContent.liftedKeys, Json.find? key lifted = Json.find? key ms :=
    fun key hkey => NodeClass.find?_lift hlift hkey
  have hfound : Json.find? "type" lifted = Json.find? "type" ms := hkept _ (by decide)
  have hclass : NodeClass.ofMembers lifted = .ok c := by
    rw [← hc, NodeClass.ofMembers, NodeClass.ofMembers, hfound]
  obtain ⟨hgiven, rfl⟩ := NodeClass.readType_eq_value hclass htype
  obtain ⟨hkindType, hkindClass⟩ := NodeClass.readKind_eq_value hkind rfl
  obtain ⟨hid, hname, hparent, -⟩ := Attributes.ofMembers_eq_value hattributes
  refine ⟨a, kind type, cs, rfl, ?_, hcs⟩
  have hidKept : Json.textAt "id" lifted = Json.textAt "id" ms := by
    rw [Json.textAt, Json.textAt, hkept _ (by decide)]
  have hnameKept : Json.textAt "name" lifted = Json.textAt "name" ms := by
    rw [Json.textAt, Json.textAt, hkept _ (by decide)]
  have hparentKept : FieldName.find? "parent_type" lifted = FieldName.find? "parent_type" ms := by
    rw [FieldName.find?, FieldName.find?, hkept _ (by decide), hkept _ (by decide)]
  constructor
  · rw [hkindType, ← hfound, hgiven]
  · rw [hkindClass, hkindType]
  · rw [← hidKept, textAt_of_withDefault (by decide) hid]
  · rw [← hnameKept, textAt_of_withDefault (by decide) hname]
  · rw [← hparent, Reading.withDefault, Reading.withDefault, hparentKept]

end Node

/-- The type of a parent that an object gives itself, in camel case before the other spelling,
with null for none; without such a key, the type of the object that holds it. -/
inductive ParentType (inherited : Option String) (ms : Json.Members) : Option String → Prop
  | camel {P : Option String} :
      Json.find? "parentType" ms = some (Client.textOrNull P) → ParentType inherited ms P
  | snake {P : Option String} :
      Json.find? "parentType" ms = none →
      Json.find? "parent_type" ms = some (Client.textOrNull P) → ParentType inherited ms P
  | inherited :
      Json.find? "parentType" ms = none → Json.find? "parent_type" ms = none →
      ParentType inherited ms inherited

/-- A node has the type of parent that its object gives or inherits, and sits on a page exactly if
that is the type of a page. -/
structure Placed (inherited : Option String) (ms : Json.Members) (a : Attributes) : Prop where
  parentType : ParentType inherited ms a.parentType
  isRootChild :
    a.isRootChild = true ↔ a.parentType = some "PAGE" ∨ a.parentType = some "CANVAS"

/-- The children of a page or a canvas are at the root. -/
theorem Attributes.isRootChild_iff (a : Attributes) :
    a.isRootChild = true ↔ a.parentType = some "PAGE" ∨ a.parentType = some "CANVAS" := by
  unfold isRootChild
  cases a.parentType <;> simp

/-- The parent type that is read is its own or the inherited one. -/
theorem parentType_of_withDefault
    {inherited P : Option String} {ms : Json.Members}
    (h : Reading.withDefault "parent_type" inherited (Reading.nullable Reading.text) ms =
      .value P) :
    ParentType inherited ms P := by
  have hcamel : FieldName.camel "parent_type" = "parentType" := by decide
  have haccepted := Reading.accepted_eq_some.2 h
  rw [Reading.accepted_withDefault, FieldName.value?_eq, hcamel] at haccepted
  cases hfirst : Json.find? "parentType" ms with
  | some v =>
      rw [hfirst] at haccepted
      obtain rfl := Reading.nullableText_eq_value.1 (Reading.accepted_eq_some.1 haccepted)
      exact .camel hfirst
  | none =>
      cases hsecond : Json.find? "parent_type" ms with
      | some v =>
          rw [hfirst, hsecond] at haccepted
          obtain rfl := Reading.nullableText_eq_value.1 (Reading.accepted_eq_some.1 haccepted)
          exact .snake hfirst hsecond
      | none =>
          rw [hfirst, hsecond] at haccepted
          obtain rfl : inherited = P := by simpa using haccepted
          exact .inherited hfirst hsecond

namespace Node

/-- What heads a node also places it. -/
theorem Heads.placed
    {inherited : Option String} {ms : Json.Members} {a : Attributes} {k : Kind}
    (h : Heads inherited ms a k) : Placed inherited ms a :=
  ⟨parentType_of_withDefault h.parentType, a.isRootChild_iff⟩

/-- What children inherit is the type of an accepted node. -/
theorem inherited_eq
    {c : NodeClass} {inherited : Option String} {ms : Json.Members} {a : Attributes} {k : Kind}
    (hc : NodeClass.ofMembers ms = .ok c) (h : Heads inherited ms a k) :
    c.inherited ms = some k.type := by
  have hclass : c = NodeClass.ofType k.type := by
    rw [NodeClass.ofMembers, h.type] at hc
    simpa using hc.symm
  have haccepted : (c.readType ms).accepted = some k.type := by
    have hvalue : FieldName.value? "type" ms = some (.str k.type) := by
      rw [FieldName.value?_of_camel (by decide), h.type]
    unfold NodeClass.readType
    split
    next t ht =>
      obtain rfl : t = k.type := NodeClass.type?_ofType (hclass ▸ ht)
      simp [Reading.accepted_withDefault, hvalue, Reading.literal]
    next => simp [Reading.accepted_required, hvalue, Reading.text]
  rw [NodeClass.inherited_eq, haccepted]

/-- Items that are no objects are never sound. -/
theorem sound_eq_value
    {found : List (Option Node)} {position : Nat} {ns : List Node}
    (h : sound position found = .value ns) :
    found = ns.map some := by
  induction found generalizing position ns with
  | nil =>
      cases h
      rfl
  | cons item rest ih =>
      have haccepted := Reading.accepted_eq_some.2 h
      cases item with
      | none => simp [sound] at haccepted
      | some n =>
          simp only [sound, Reading.accepted_map, Option.map_eq_some_iff,
            Reading.accepted_eq_some] at haccepted
          obtain ⟨ns, hns, rfl⟩ := haccepted
          rw [ih hns, List.map_cons]

mutual

/-- A tree that is read depicts the object, under whatever type it inherits. -/
theorem read_depicts_under :
    ∀ (v : Json) (inherited : Option String) (n : Node),
      read inherited v = .value n → Depicts Placed inherited v n
  | .obj ms, inherited, n, h => by
      unfold read at h
      cases hc : NodeClass.ofMembers ms with
      | error d =>
          rw [hc] at h
          cases h
      | ok c =>
          rw [hc] at h
          obtain ⟨a, k, cs, rfl, hheads, hcs⟩ := members_depict hc h
          rw [inherited_eq hc hheads] at hcs
          exact .node hheads.type hheads.nodeClass hheads.id hheads.name hheads.placed
            (childrenIn_depict ms _ cs hcs)
  | .null, _, _, h | .bool _, _, _, h | .int _, _, _, h | .float _, _, _, h | .str _, _, _, h
  | .arr _, _, _, h => by
      unfold read at h
      cases h

theorem childrenIn_depict :
    ∀ (ms : List (String × Json)) (parent : Option String) (ns : List Node),
      childrenIn parent ms = .value ns → DepictsAll Placed parent (Json.childItems ms) ns
  | [], _, _, h => by
      unfold childrenIn at h
      cases h
      exact .nil
  | (key, v) :: rest, parent, ns, h => by
      unfold childrenIn at h
      rw [Json.childItems_cons]
      split at h
      next hkey =>
        rw [if_pos hkey]
        exact childrenOf_depict v parent ns h
      next hkey =>
        rw [if_neg hkey]
        exact childrenIn_depict rest parent ns h

theorem childrenOf_depict :
    ∀ (v : Json) (parent : Option String) (ns : List Node),
      childrenOf parent v = .value ns → DepictsAll Placed parent v.items ns
  | .arr items, parent, ns, h => by
      unfold childrenOf at h
      have haccepted := Reading.accepted_eq_some.2 h
      simp only [Reading.accepted_andThen, Option.bind_eq_some_iff,
        Reading.accepted_eq_some] at haccepted
      obtain ⟨found, hfound, hsound⟩ := haccepted
      rw [sound_eq_value hsound] at hfound
      exact readItems_depict items parent ns hfound
  | .null, _, _, h => by
      unfold childrenOf at h
      cases h
      exact .nil
  | .str s, _, ns, h => by
      -- The characters of a text are no objects, and so there are none.
      unfold childrenOf at h
      have hnone := sound_eq_value h
      cases hs : s.toList with
      | nil =>
          rw [hs] at hnone
          obtain rfl : ns = [] := by simpa using hnone.symm
          exact .nil
      | cons c cs => cases ns <;> simp [hs] at hnone
  | .obj ms, _, ns, h => by
      unfold childrenOf at h
      have hnone := sound_eq_value h
      cases ms with
      | nil =>
          obtain rfl : ns = [] := by simpa using hnone.symm
          exact .nil
      | cons m rest => cases ns <;> simp at hnone
  | .bool _, _, _, h | .int _, _, _, h | .float _, _, _, h => by
      unfold childrenOf at h
      cases h

theorem readItems_depict :
    ∀ (vs : List Json) (parent : Option String) (ns : List Node),
      readItems parent vs = .value (ns.map some) → DepictsAll Placed parent vs ns
  | [], _, ns, h => by
      unfold readItems at h
      obtain rfl : ns = [] := by simpa using h.symm
      exact .nil
  | v :: vs, parent, ns, h => by
      unfold readItems at h
      have haccepted := Reading.accepted_eq_some.2 h
      split at haccepted
      next ms =>
        simp only [Reading.accepted_andThen, Reading.accepted_map, Option.bind_eq_some_iff,
          Option.map_eq_some_iff, Reading.accepted_eq_some] at haccepted
        obtain ⟨n, hn, found, hfound, hcons⟩ := haccepted
        cases ns with
        | nil => cases hcons
        | cons n' ns =>
            obtain ⟨rfl, rfl⟩ : n = n' ∧ found = ns.map some := by simpa using hcons
            exact .cons (read_depicts_under _ parent n hn) (readItems_depict vs parent ns hfound)
      next =>
        simp only [Reading.accepted_map, Option.map_eq_some_iff] at haccepted
        obtain ⟨found, -, hcons⟩ := haccepted
        cases ns <;> simp at hcons

end

/-- **A scene depicts the data that it is read from**, with one node of the right class for each
object of the nested lists, in order, and every node knows the type of its parent. -/
theorem read_depicts {v : Json} {n : Node} (h : read none v = .value n) :
    Depicts Placed none v n :=
  read_depicts_under v none n h

end Node

/-- A page with a frame on it, in which one node says that it has no parent. -/
def nestedPage : Json :=
  .obj [("type", .str "CANVAS"), ("children", .arr [
    .obj [("type", .str "FRAME"), ("id", .str "1:1"), ("children", .arr [
      .obj [("type", .str "TEXT"), ("style", .obj [("fontSize", .int 14)]), ("id", .str "1:2")],
      .obj [("type", .str "SLICE"), ("parentType", .null), ("parent_type", .str "PAGE")]])]])]

theorem read_depicts_nestedPage :
    ∃ n, Node.read none nestedPage = .value n ∧
      n.children.map (fun m => m.children.map (·.attributes.parentType)) = [[some "FRAME", none]] ∧
      Depicts Placed none nestedPage n := by
  obtain ⟨n, hn, hparents⟩ : ∃ n, Node.read none nestedPage = .value n ∧
      n.children.map (fun m => m.children.map (·.attributes.parentType)) =
        [[some "FRAME", none]] := ⟨_, rfl, rfl⟩
  exact ⟨n, hn, hparents, Node.read_depicts hn⟩

end SceneMarkup
