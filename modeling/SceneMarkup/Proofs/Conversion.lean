import SceneMarkup.Proofs.Depiction

/-!
# Conversion keeps the tree of a document

A document is recast member by member, and its node is read from the result with the children in
place. Only some keys are written on the way (`Document.writtenKeys`), none of which carries the
type, the identifier, the name or the children, and the type of the parent is written in any case.
So the scene depicts the document, and the types of the parents are those of the documents around,
whatever the documents say themselves (`Document.node_depicts`).

With the tree the order of its nodes is kept: the identifiers of some types, parents first, are
those of the objects of these types in the document (`Depicts.idsOfTypes_eq`).
-/

namespace SceneMarkup

namespace Json

mutual

/-- The objects of a tree of children lists, parents first. -/
def preorder : Json → List Members
  | .obj ms => ms :: preorderIn ms
  | _ => []

/-- The objects among the children of an object with these members, and below them. -/
def preorderIn : List (String × Json) → List Members
  | [] => []
  | (key, v) :: rest => if key = "children" then preorderOf v else preorderIn rest

/-- The objects of a value that stands for children. -/
def preorderOf : Json → List Members
  | .arr vs => preorderAll vs
  | _ => []

/-- The objects of a row of trees. -/
def preorderAll : List Json → List Members
  | [] => []
  | v :: vs => preorder v ++ preorderAll vs

end

theorem preorderOf_eq (v : Json) : preorderOf v = preorderAll v.items := by
  cases v <;> simp [preorderOf, preorderAll, items]

theorem preorderIn_eq (ms : Members) : preorderIn ms = preorderAll (childItems ms) := by
  induction ms with
  | nil => simp [preorderIn, preorderAll, childItems, find?]
  | cons m rest ih =>
      obtain ⟨key, v⟩ := m
      rw [preorderIn, childItems_cons]
      split
      · exact preorderOf_eq v
      · exact ih

/-- The identifiers of the objects that are of some types. -/
def idsOfTypes (types : List String) (objects : List Members) : List String :=
  (objects.filter fun ms => types.contains (textAt "type" ms)).map (textAt "id")

/-- Identifiers are listed in the order of the objects. -/
theorem idsOfTypes_append (types : List String) (objects others : List Members) :
    idsOfTypes types (objects ++ others) = idsOfTypes types objects ++ idsOfTypes types others := by
  simp [idsOfTypes]

end Json

mutual

/-- The identifiers of some types are those of the objects of these types, in the same order. -/
theorem Depicts.idsOfTypes_eq
    {rule : Option String → Json.Members → Attributes → Prop} {P : Option String}
    {v : Json} {n : Node} (types : List String) :
    Depicts rule P v n → n.idsOfTypes types = Json.idsOfTypes types v.preorder
  | @Depicts.node _ _ ms a k children htype _ hid _ _ hall => by
      have hkind : Json.textAt "type" ms = k.type := by rw [Json.textAt, htype]
      rw [Node.idsOfTypes, Json.preorder, Json.preorderIn_eq, hall.idsOfTypes_eq types, hid]
      by_cases hmem : k.type ∈ types
      · simp [Json.idsOfTypes, hkind, hmem]
      · simp [Json.idsOfTypes, hkind, hmem]

/-- Nodes that depict objects have the identifiers of these objects, in their order. -/
theorem DepictsAll.idsOfTypes_eq
    {rule : Option String → Json.Members → Attributes → Prop} {P : Option String}
    {vs : List Json} {ns : List Node} (types : List String) :
    DepictsAll rule P vs ns →
      Node.idsOfTypesAll types ns = Json.idsOfTypes types (Json.preorderAll vs)
  | .nil => by simp [Node.idsOfTypesAll, Json.preorderAll, Json.idsOfTypes]
  | .cons hhead hrest => by
      rw [Node.idsOfTypesAll, Json.preorderAll, Json.idsOfTypes_append, hhead.idsOfTypes_eq types,
        hrest.idsOfTypes_eq types]

end

theorem Json.find?_setDefault
    {key k : String} (hkey : key ≠ k) (v : Json) (ms : Json.Members) :
    find? key (setDefault k v ms) = find? key ms := by
  unfold setDefault
  split
  · rfl
  · rw [find?_insert, if_neg (Ne.symm hkey)]

namespace Document

/-- The keys that are written when a document is recast, apart from that of the parent's type. -/
def writtenKeys : List String :=
  ["x", "y", "width", "height", "topLeftRadius", "topRightRadius", "bottomRightRadius",
    "bottomLeftRadius", "fills", "strokes"]

/-- The keys among them that are written after those of the position. -/
def laterKeys : List String := writtenKeys.drop 2

variable {key : String}

theorem find?_place
    (hx : key ≠ "x") (hy : key ≠ "y") (found : Option (Json × Json)) (ms : Json.Members) :
    Json.find? key (place found ms) = Json.find? key ms := by
  cases found with
  | none => rfl
  | some p => rw [place, Json.find?_setDefault hy, Json.find?_setDefault hx]

theorem find?_spreadRadii (hkey : key ∉ laterKeys) (radii : Option Json) (ms : Json.Members) :
    Json.find? key (spreadRadii radii ms) = Json.find? key ms := by
  have hne : ∀ k ∈ laterKeys, key ≠ k := fun k hk h => hkey (h ▸ hk)
  unfold spreadRadii
  split
  · rw [Json.find?_setDefault (hne _ (by decide)), Json.find?_setDefault (hne _ (by decide)),
      Json.find?_setDefault (hne _ (by decide)), Json.find?_setDefault (hne _ (by decide))]
  · rfl

theorem find?_repaint
    {k : String} (hkey : key ≠ k) {ms painted : Json.Members} (h : repaint k ms = .ok painted) :
    Json.find? key painted = Json.find? key ms := by
  unfold repaint at h
  split at h
  next vs _ =>
    cases hpaints : paints vs with
    | error d =>
        rw [hpaints] at h
        cases h
    | ok ps =>
        rw [hpaints] at h
        cases h
        rw [Json.find?_insert, if_neg (Ne.symm hkey)]
  next =>
    cases h
    rfl

/-- Under all keys that are not written later a recast document has what it has with its
position. -/
theorem find?_members
    {parent : Option Json} {otherwise : Json} {ms data : Json.Members}
    (h : members parent otherwise ms = .ok data) :
    ∃ type found, parentType parent otherwise = .ok type ∧
      position (.obj ms) parent = .ok found ∧
      ∀ key ∉ laterKeys,
        Json.find? key data = Json.find? key (place found (Json.insert parentKey type ms)) := by
  simp only [members, Bind.bind, Except.bind] at h
  cases htype : parentType parent otherwise with
  | error d => simp [htype] at h
  | ok type =>
      rw [htype] at h
      cases hfound : position (.obj ms) parent with
      | error d => simp [hfound] at h
      | ok found =>
          cases hsize : size (.obj ms) with
          | error d => simp [hfound, hsize] at h
          | ok area =>
              simp only [hfound, hsize] at h
              split at h
              next => cases h
              next filled hfilled =>
                refine ⟨type, found, rfl, rfl, ?_⟩
                intro key hkey
                have hne : ∀ k ∈ laterKeys, key ≠ k := fun k hk hkk => hkey (hkk ▸ hk)
                rw [find?_repaint (hne _ (by decide)) h, find?_repaint (hne _ (by decide)) hfilled,
                  find?_spreadRadii hkey, Json.find?_setDefault (hne _ (by decide)),
                  Json.find?_setDefault (hne _ (by decide))]
                rfl

/-- What a node is read from has the parent type put in, and the rest as it was but for the keys
that are written. -/
theorem members_eq_ok
    {parent : Option Json} {otherwise : Json} {ms data : Json.Members}
    (h : members parent otherwise ms = .ok data) :
    ∃ type, parentType parent otherwise = .ok type ∧
      ∀ key ∉ writtenKeys,
        Json.find? key data = Json.find? key (Json.insert parentKey type ms) := by
  obtain ⟨type, found, htype, -, hkept⟩ := find?_members h
  refine ⟨type, htype, ?_⟩
  intro key hkey
  have hne : ∀ k ∈ writtenKeys, key ≠ k := fun k hk hkk => hkey (hkk ▸ hk)
  rw [hkept key fun hlater => hkey (List.mem_of_mem_drop hlater),
    find?_place (hne _ (by decide)) (hne _ (by decide))]

/-- A node has the type of its parent's document, whatever its own document says. -/
def Owned (parentType : Option String) (_ : Json.Members) (a : Attributes) : Prop :=
  a.parentType = parentType

/-- The head of the node that is read from a recast document. -/
theorem heads_of_recast
    {parent : Option Json} {otherwise : Json} {ms data : Json.Members} {a : Attributes} {k : Kind}
    (hdata : members parent otherwise ms = .ok data) (h : Node.Heads none data a k) :
    parentType parent otherwise = .ok (Client.textOrNull a.parentType) ∧
      Json.find? "type" ms = some (.str k.type) ∧
      a.id = Json.textAt "id" ms ∧ a.name = Json.textAt "name" ms := by
  obtain ⟨type, htype, hkept⟩ := members_eq_ok hdata
  have hsame : ∀ key, key ∉ writtenKeys → key ≠ parentKey →
      Json.find? key data = Json.find? key ms := by
    intro key hkey hne
    rw [hkept key hkey, Json.find?_insert, if_neg (Ne.symm hne)]
  have hparent : Json.find? "parentType" data = some type := by
    rw [hkept _ (by decide), Json.find?_insert, if_pos (by decide)]
  refine ⟨?_, ?_, ?_, ?_⟩
  · rw [htype]
    have hgiven := parentType_of_withDefault h.parentType
    generalize a.parentType = P at hgiven ⊢
    -- The key of the parent's type is written, so no other spelling of it counts.
    cases hgiven with
    | camel hcamel =>
        rw [hparent] at hcamel
        rw [Option.some.inj hcamel]
    | snake hnone | inherited hnone =>
        rw [hparent] at hnone
        cases hnone
  · rw [← hsame "type" (by decide) (by decide), h.type]
  · rw [h.id, Json.textAt, Json.textAt, hsame "id" (by decide) (by decide)]
  · rw [h.name, Json.textAt, Json.textAt, hsame "name" (by decide) (by decide)]

/-- A type that may be missing can be told from its value. -/
theorem textOrNull_injective {P Q : Option String}
    (h : Client.textOrNull P = Client.textOrNull Q) : P = Q := by
  cases P <;> cases Q <;> simp_all [Client.textOrNull]

mutual

/-- A document that is read depicts its raw tree, under the parent type that it got. -/
theorem read_depicts_document :
    ∀ (v : Json) (parent : Option Json) (otherwise : Json) (n : Node),
      read parent otherwise v = .value n →
      ∃ P, parentType parent otherwise = .ok (Client.textOrNull P) ∧ Depicts Owned P v n
  | .obj ms, parent, otherwise, n, h => by
      unfold read at h
      split at h
      next => cases h
      next data hdata =>
        have haccepted := Reading.accepted_eq_some.2 h
        simp only [Reading.accepted_andThen, Option.bind_eq_some_iff,
          Reading.accepted_eq_some] at haccepted
        obtain ⟨cs, hcs, hn⟩ := haccepted
        unfold Node.ofMembers at hn
        split at hn
        next => cases hn
        next c hc =>
          obtain ⟨a, k, cs', rfl, hheads, hsame⟩ := Node.members_depict hc hn
          cases hsame
          obtain ⟨hparent, htype, hid, hname⟩ := heads_of_recast hdata hheads
          exact ⟨a.parentType, hparent, .node htype hheads.nodeClass hid hname rfl
            (readChildren_depict ms ms k.type htype cs hcs)⟩
  | .null, _, _, _, h | .bool _, _, _, _, h | .int _, _, _, _, h | .float _, _, _, _, h
  | .str _, _, _, _, h | .arr _, _, _, _, h => by
      unfold read at h
      cases h

/-- The children of a raw object are read under its type. -/
theorem readChildren_depict :
    ∀ (ms self : List (String × Json)) (type : String),
      Json.find? "type" self = some (.str type) →
      ∀ ns : List Node, readChildren (.obj self) ms = .value ns →
        DepictsAll Owned (some type) (Json.childItems ms) ns
  | [], _, _, _, _, h => by
      unfold readChildren at h
      cases h
      exact .nil
  | (key, v) :: rest, self, type, hself, ns, h => by
      unfold readChildren at h
      rw [Json.childItems_cons]
      split at h
      next hkey =>
        rw [if_pos hkey]
        exact readElements_depict v self type hself ns h
      next hkey =>
        rw [if_neg hkey]
        exact readChildren_depict rest self type hself ns h

theorem readElements_depict :
    ∀ (v : Json) (self : List (String × Json)) (type : String),
      Json.find? "type" self = some (.str type) →
      ∀ ns : List Node, readElements (.obj self) v = .value ns →
        DepictsAll Owned (some type) v.items ns
  | .arr items, self, type, hself, ns, h => by
      unfold readElements at h
      exact readAll_depict items self type hself ns h
  | .str _, _, _, _, _, h | .obj _, _, _, _, _, h => by
      unfold readElements at h
      split at h
      · cases h
        exact .nil
      · cases h
  | .null, _, _, _, _, h | .bool _, _, _, _, _, h | .int _, _, _, _, _, h
  | .float _, _, _, _, _, h => by
      unfold readElements at h
      cases h

theorem readAll_depict :
    ∀ (vs : List Json) (self : List (String × Json)) (type : String),
      Json.find? "type" self = some (.str type) →
      ∀ ns : List Node, readAll (.obj self) vs = .value ns →
        DepictsAll Owned (some type) vs ns
  | [], _, _, _, _, h => by
      unfold readAll at h
      cases h
      exact .nil
  | v :: vs, self, type, hself, ns, h => by
      unfold readAll at h
      have haccepted := Reading.accepted_eq_some.2 h
      simp only [Reading.accepted_andThen, Reading.accepted_map, Option.bind_eq_some_iff,
        Option.map_eq_some_iff, Reading.accepted_eq_some] at haccepted
      obtain ⟨n, hn, rest, hrest, rfl⟩ := haccepted
      obtain ⟨P, hP, hdepicts⟩ := read_depicts_document v _ _ n hn
      have hself' : parentType (some (.obj self)) .null = .ok (.str type) := by
        simp [parentType, Json.required, hself]
      obtain rfl : P = some type := by
        rw [hself'] at hP
        exact textOrNull_injective (Except.ok.inj hP).symm
      exact .cons hdepicts (readAll_depict vs self type hself rest hrest)

end

/-- The type of the parent of a converted document: that of the parent if one is given, and
otherwise the one that is given in its place. A parent without content stands for none. -/
inductive RootParent (otherwise : Option String) : Json → Option String → Prop
  | given {ms : Json.Members} {P : Option String} :
      Json.find? "type" ms = some (Client.textOrNull P) → RootParent otherwise (.obj ms) P
  | absent {parent : Json} : parent.isVacant = true → RootParent otherwise parent otherwise

/-- **A converted document keeps its tree**, with identifiers, names and types, and owns the types
of the parents; and the identifiers of some types are those of the documents of these types, parents
first. -/
theorem node_depicts
    {parent v : Json} {otherwise : Option String} {n : Node}
    (h : node parent (Client.textOrNull otherwise) v = .value n) :
    (∃ P, RootParent otherwise parent P ∧ Depicts Owned P v n) ∧
      ∀ types, n.idsOfTypes types = Json.idsOfTypes types v.preorder := by
  obtain ⟨P, hP, hdepicts⟩ := read_depicts_document v _ _ n h
  refine ⟨⟨P, ?_, hdepicts⟩, fun types => hdepicts.idsOfTypes_eq types⟩
  cases hvacant : parent.isVacant with
  | true =>
      rw [hvacant] at hP
      obtain rfl := textOrNull_injective (Except.ok.inj hP)
      exact .absent hvacant
  | false =>
      rw [hvacant] at hP
      cases parent with
      | obj ms =>
          refine .given ?_
          cases htype : Json.find? "type" ms with
          | none => simp [parentType, Json.required, htype] at hP
          | some type => simpa [parentType, Json.required, htype] using hP
      | _ => simp [parentType, Json.required] at hP

/-- A frame of which the document says that it lies on a page, with two paths that say where they
lie as well. -/
def strayFrame : Json :=
  .obj [("type", .str "FRAME"), ("id", .str "1:1"), ("parentType", .str "PAGE"),
    ("children", .arr [
      .obj [("type", .str "VECTOR"), ("id", .str "1:2"), ("parent_type", .str "CANVAS")],
      .obj [("type", .str "LINE"), ("id", .str "1:3"), ("parentType", .null)]])]

/-- A frame in a section, whose children say nothing of their parents, owns them. -/
theorem node_depicts_strayFrame :
    ∃ n, node (.obj [("type", .str "SECTION")]) .null strayFrame = .value n ∧
      n.attributes.parentType = some "SECTION" ∧
      n.children.map (·.attributes.parentType) = [some "FRAME", some "FRAME"] ∧
      (∃ P, RootParent none (.obj [("type", .str "SECTION")]) P ∧ Depicts Owned P strayFrame n) ∧
      ∀ types, n.idsOfTypes types = Json.idsOfTypes types strayFrame.preorder := by
  obtain ⟨n, hn, hroot, hparents⟩ : ∃ n,
      node (.obj [("type", .str "SECTION")]) .null strayFrame = .value n ∧
      n.attributes.parentType = some "SECTION" ∧
      n.children.map (·.attributes.parentType) = [some "FRAME", some "FRAME"] := by
    simp only [strayFrame, node, read, readChildren, readElements, readAll]
    exact ⟨_, rfl, rfl, rfl⟩
  exact ⟨n, hn, hroot, hparents, @node_depicts _ _ none _ hn⟩

end Document
end SceneMarkup
