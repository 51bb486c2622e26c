import SceneMarkup.Proofs.Answers
import SceneMarkup.Service.Document

/-!
# The type of a parent

The type of a node's parent is all that a document does not tell itself. This file shows that it
decides one attribute of the node and nothing else: whether the document is accepted, what is wrong
with it otherwise, and what else the node has are the same for every parent (`Document.node_under`).

No field is read from the keys of the children and of the place on the canvas, and only one is read
from the key of the parent's type. Members that differ under these keys only (`Differs`) still do so
after everything that is done to members on the way, and what is read from them is the same but for
the type of the parent.
-/

namespace SceneMarkup

namespace Json

/-- A key that is put in is found, and other keys are found as before. -/
theorem find?_insert (k key : String) (v : Json) (ms : Members) :
    find? k (insert key v ms) = if key = k then some v else find? k ms := by
  induction ms with
  | nil => rfl
  | cons m rest ih =>
      obtain ⟨key', v'⟩ := m
      by_cases hkey : key' = key
      · subst hkey
        by_cases hk : key' = k
        · simp [insert, find?, hk]
        · simp [insert, find?, hk]
      · by_cases hk : key' = k
        · subst hk
          simp [insert, find?, hkey, Ne.symm hkey]
        · simp [insert, find?, hkey, hk, ih]

/-- A key that is taken out is not found, and other keys are found as before. -/
theorem find?_erase (k key : String) (ms : Members) :
    find? k (erase key ms) = if key = k then none else find? k ms := by
  induction ms with
  | nil => simp [erase, find?]
  | cons m rest ih =>
      obtain ⟨key', v'⟩ := m
      by_cases hkey : key' = key
      · subst hkey
        by_cases hk : key' = k
        · simpa [erase, find?, hk] using ih
        · simpa [erase, find?, hk] using ih
      · by_cases hk : key' = k
        · subst hk
          simp [erase, find?, hkey, Ne.symm hkey]
        · simpa [erase, find?, hkey, hk] using ih

end Json

/-- The key of the parent's type. -/
def parentKey : String := "parentType"

/-- The key of the place on the canvas. -/
def canvasKey : String := "absoluteBoundingBox"

/-- The keys from which no field is read but the type of the parent. -/
def apartKeys : List String := [parentKey, canvasKey, "children"]

/-- Members that have these values under the key of the parent's type, and that are the same but for
the keys apart. -/
structure Differs (v w : Json) (ms ns : Json.Members) : Prop where
  other : ∀ key, key ∉ apartKeys → Json.find? key ms = Json.find? key ns
  left : Json.find? parentKey ms = some v
  right : Json.find? parentKey ns = some w

namespace Differs

variable {v w : Json} {ms ns : Json.Members}

theorem ne_parentKey {key : String} (hkey : key ∉ apartKeys) : key ≠ parentKey :=
  fun h => hkey (h ▸ List.mem_cons_self)

/-- Objects that agree differ in the parent type alone when it is put into both. -/
theorem of_insert (h : ∀ key, key ∉ apartKeys → Json.find? key ms = Json.find? key ns) :
    Differs v w (Json.insert parentKey v ms) (Json.insert parentKey w ns) where
  other key hkey := by
    have hne : parentKey ≠ key := (ne_parentKey hkey).symm
    rw [Json.find?_insert, Json.find?_insert, if_neg hne, if_neg hne, h key hkey]
  left := by simp [Json.find?_insert]
  right := by simp [Json.find?_insert]

/-- The same value under another key changes nothing in how two objects differ. -/
theorem insert (h : Differs v w ms ns) {key : String} (hkey : key ∉ apartKeys) (u : Json) :
    Differs v w (Json.insert key u ms) (Json.insert key u ns) where
  other k hk := by rw [Json.find?_insert, Json.find?_insert, h.other k hk]
  left := by rw [Json.find?_insert, if_neg (ne_parentKey hkey), h.left]
  right := by rw [Json.find?_insert, if_neg (ne_parentKey hkey), h.right]

theorem erase (h : Differs v w ms ns) {key : String} (hkey : key ∉ apartKeys) :
    Differs v w (Json.erase key ms) (Json.erase key ns) where
  other k hk := by rw [Json.find?_erase, Json.find?_erase, h.other k hk]
  left := by rw [Json.find?_erase, if_neg (ne_parentKey hkey), h.left]
  right := by rw [Json.find?_erase, if_neg (ne_parentKey hkey), h.right]

theorem hasKey (h : Differs v w ms ns) {key : String} (hkey : key ∉ apartKeys) :
    Json.hasKey key ms = Json.hasKey key ns := by
  rw [Json.hasKey, Json.hasKey, h.other key hkey]

theorem setDefault (h : Differs v w ms ns) (key : String) (hkey : key ∉ apartKeys) (u : Json) :
    Differs v w (Json.setDefault key u ms) (Json.setDefault key u ns) := by
  rw [Json.setDefault, Json.setDefault, h.hasKey hkey]
  split
  · exact h
  · exact h.insert hkey u

/-- Two ways to come to members have the same defect, or come to members that differ under the keys
apart only. -/
inductive Alike (v w : Json) :
    Except Json.Defect Json.Members → Except Json.Defect Json.Members → Prop
  | defect (d : Json.Defect) : Alike v w (.error d) (.error d)
  | members {ms ns : Json.Members} : Differs v w ms ns → Alike v w (.ok ms) (.ok ns)

/-- Steps that are alike in sequence are alike. -/
theorem Alike.bind
    {x y : Except Json.Defect Json.Members} {k : Json.Members → Except Json.Defect Json.Members}
    (h : Alike v w x y) (hk : ∀ {ms ns}, Differs v w ms ns → Alike v w (k ms) (k ns)) :
    Alike v w (x >>= k) (y >>= k) := by
  cases h with
  | defect d => exact .defect d
  | members hms => exact hk hms

/-- A place is put in under keys that the parent type does not share. -/
theorem place (h : Differs v w ms ns) (found : Option (Json × Json)) :
    Differs v w (Document.place found ms) (Document.place found ns) := by
  cases found with
  | none => exact h
  | some p => exact (h.setDefault "x" (by decide) p.1).setDefault "y" (by decide) p.2

theorem spreadRadii (h : Differs v w ms ns) (radii : Option Json) :
    Differs v w (Document.spreadRadii radii ms) (Document.spreadRadii radii ns) := by
  unfold Document.spreadRadii
  split
  next a b c d =>
    have hleft := h.setDefault "topLeftRadius" (by decide) a
    have hright := hleft.setDefault "topRightRadius" (by decide) b
    have hbottom := hright.setDefault "bottomRightRadius" (by decide) c
    exact hbottom.setDefault "bottomLeftRadius" (by decide) d
  next => exact h

theorem repaint (h : Differs v w ms ns) (key : String) (hkey : key ∉ apartKeys) :
    Alike v w (Document.repaint key ms) (Document.repaint key ns) := by
  unfold Document.repaint
  rw [← h.other key hkey]
  split
  next vs _ =>
    cases Document.paints vs with
    | error d => exact .defect d
    | ok ps => exact .members (h.insert hkey (.arr ps))
  next => exact .members h

/-- Documents are recast alike if they have the same place and the same size. -/
theorem of_members
    {parent parent' : Option Json} {otherwise otherwise' : Json}
    (hv : Document.parentType parent otherwise = .ok v)
    (hw : Document.parentType parent' otherwise' = .ok w)
    (hposition : Document.position (.obj ns) parent' = Document.position (.obj ms) parent)
    (hsize : Document.size (.obj ns) = Document.size (.obj ms))
    (hother : ∀ key, key ∉ apartKeys → Json.find? key ms = Json.find? key ns) :
    Alike v w (Document.members parent otherwise ms) (Document.members parent' otherwise' ns) := by
  simp only [Document.members, hv, hw, hposition, hsize,
    ← hother "rectangleCornerRadii" (by decide), Bind.bind, Except.bind]
  cases Document.position (.obj ms) parent with
  | error d => exact .defect d
  | ok found =>
      cases Document.size (.obj ms) with
      | error d => exact .defect d
      | ok size =>
          have hplaced := (of_insert (v := v) (w := w) hother).place found
          have hwidth := hplaced.setDefault "width" (by decide) size.1
          have hheight := hwidth.setDefault "height" (by decide) size.2
          have hspread := hheight.spreadRadii (Json.find? "rectangleCornerRadii" ms)
          have hfilled := hspread.repaint "fills" (by decide)
          exact hfilled.bind fun h => h.repaint "strokes" (by decide)

theorem liftStyle
    (style : Json) (keys : List String) (hkeys : ∀ key ∈ keys, key ∉ apartKeys)
    (h : Differs v w ms ns) :
    Alike v w (TextContent.liftStyle style keys ms) (TextContent.liftStyle style keys ns) := by
  induction keys generalizing ms ns with
  | nil => exact .members h
  | cons key keys ih =>
      obtain ⟨hkey, hrest⟩ := List.forall_mem_cons.1 hkeys
      unfold TextContent.liftStyle
      rw [h.hasKey hkey]
      split
      · exact .defect _
      · exact ih hrest h
      · split
        · exact ih hrest h
        · split
          · exact .defect _
          next u _ => exact ih hrest (h.insert hkey u)

theorem liftFont (h : Differs v w ms ns) (font : Option Json) :
    Differs v w (TextContent.liftFont font ms) (TextContent.liftFont font ns) := by
  unfold TextContent.liftFont
  split
  · exact h.setDefault "fontFamily" (by decide) _
  · exact h

/-- Lifting the typography of a text looks at neither parent type. -/
theorem textLift (h : Differs v w ms ns) :
    Alike v w (TextContent.lift ms) (TextContent.lift ns) := by
  have hbare : Differs v w (Json.erase "style" ms) (Json.erase "style" ns) :=
    h.erase (by decide)
  simp only [TextContent.lift, ← h.other "style" (by decide), ← h.other "fontName" (by decide)]
  generalize (if ((Json.find? "style" ms).getD .null).isVacant = true then Json.obj []
    else (Json.find? "style" ms).getD .null) = style
  have hlifted := hbare.liftStyle style TextContent.styleKeys (by decide)
  generalize TextContent.liftStyle style TextContent.styleKeys (Json.erase "style" ms) = x
    at hlifted ⊢
  generalize TextContent.liftStyle style TextContent.styleKeys (Json.erase "style" ns) = y
    at hlifted ⊢
  cases hlifted with
  | defect d => exact .defect d
  | members h => exact .members ((h.erase (by decide)).liftFont _)

/-- All lifting that a class of nodes has looks at neither parent type. -/
theorem classLift (h : Differs v w ms ns) (c : NodeClass) :
    Alike v w (c.lift ms) (c.lift ns) := by
  cases c with
  | text => exact h.textLift
  | _ => exact .members h

end Differs

/-- A field is read from other keys than those apart. -/
def Apart (name : String) : Prop := FieldName.camel name ∉ apartKeys ∧ name ∉ apartKeys

instance (name : String) : Decidable (Apart name) := inferInstanceAs (Decidable (_ ∧ _))

namespace Differs

variable {α : Type} {v w : Json} {ms ns : Json.Members}

/-- A required field that is not the parent type is read alike from both. -/
theorem required_eq
    (h : Differs v w ms ns) (name : String) (hname : Apart name) (read : Json → Reading α) :
    Reading.required name read ns = Reading.required name read ms := by
  simp only [Reading.required, FieldName.find?, h.other _ hname.1, h.other _ hname.2]

theorem withDefault_eq
    (h : Differs v w ms ns) (name : String) (hname : Apart name) (default : α)
    (read : Json → Reading α) :
    Reading.withDefault name default read ns = Reading.withDefault name default read ms := by
  simp only [Reading.withDefault, FieldName.find?, h.other _ hname.1, h.other _ hname.2]

theorem optional_eq
    (h : Differs v w ms ns) (name : String) (hname : Apart name) (read : Json → Reading α) :
    Reading.optional name read ns = Reading.optional name read ms :=
  h.withDefault_eq name hname none _

theorem box_eq (h : Differs v w ms ns) : Box.ofMembers ns = Box.ofMembers ms := by
  simp (disch := decide) only [Box.ofMembers, h.withDefault_eq, h.optional_eq]

theorem arrangement_eq (h : Differs v w ms ns) :
    Arrangement.ofMembers ns = Arrangement.ofMembers ms := by
  simp (disch := decide) only [Arrangement.ofMembers, h.optional_eq]

theorem paints_eq (h : Differs v w ms ns) : Paints.ofMembers ns = Paints.ofMembers ms := by
  simp (disch := decide) only [Paints.ofMembers, h.withDefault_eq, h.optional_eq]

theorem radii_eq (h : Differs v w ms ns) : Radii.ofMembers ns = Radii.ofMembers ms := by
  simp (disch := decide) only [Radii.ofMembers, h.optional_eq]

theorem textContent_eq (h : Differs v w ms ns) :
    TextContent.ofMembers ns = TextContent.ofMembers ms := by
  simp (disch := decide) only [TextContent.ofMembers, h.withDefault_eq, h.optional_eq]

theorem nodeClass_eq (h : Differs v w ms ns) :
    NodeClass.ofMembers ns = NodeClass.ofMembers ms := by
  rw [NodeClass.ofMembers, NodeClass.ofMembers, h.other "type" (by decide)]

theorem readType_eq (h : Differs v w ms ns) (c : NodeClass) : c.readType ns = c.readType ms := by
  unfold NodeClass.readType
  split
  · exact h.withDefault_eq _ (by decide) _ _
  · exact h.required_eq _ (by decide) _

/-- What a node is of its kind is read alike from both. -/
theorem readKind_eq (h : Differs v w ms ns) (c : NodeClass) : c.readKind ns = c.readKind ms := by
  cases c with
  | frame => simp (disch := decide) only [NodeClass.readKind, h.withDefault_eq]
  | shape form => simp only [NodeClass.readKind, h.paints_eq, h.radii_eq]
  | instanceOf => simp (disch := decide) only [NodeClass.readKind, h.optional_eq]
  | text => simp only [NodeClass.readKind, h.textContent_eq]
  | path form => simp only [NodeClass.readKind, h.paints_eq]
  | other => rfl

end Differs

namespace Reading

variable {α β γ : Type}

theorem map_map (f : β → γ) (g : α → β) (x : Reading α) : map f (map g x) = map (f ∘ g) x := by
  cases x <;> rfl

theorem map_both (f : β → γ) (g : Reading (α → β)) (x : Reading α) :
    map f (both g x) = both (map (f ∘ ·) g) x := by
  cases g <;> cases x <;> rfl

theorem both_map (g : Reading (β → γ)) (f : α → β) (x : Reading α) :
    both g (map f x) = both (map (· ∘ f) g) x := by
  cases g <;> cases x <;> rfl

theorem both_value (g : Reading (α → β)) (a : α) : both g (value a) = map (fun f => f a) g := by
  cases g <;> rfl

end Reading

/-- The same attributes under another parent. -/
def Attributes.under (parent : Option String) (a : Attributes) : Attributes :=
  { a with parentType := parent }

/-- The same node under another parent. -/
def Node.under (parent : Option String) : Node → Node
  | .mk a kind children => .mk (a.under parent) kind children

/-- The parent type that was put in is the one that is read. -/
theorem parentType_reads
    {ms : Json.Members} {P : Option String}
    (h : Json.find? parentKey ms = some (Client.textOrNull P)) :
    Reading.withDefault "parent_type" none (Reading.nullable Reading.text) ms = .value P := by
  have hcamel : FieldName.camel "parent_type" = parentKey := by decide
  simp only [Reading.withDefault, FieldName.find?, hcamel, h]
  cases P <;> rfl

namespace Differs

variable {P Q : Option String} {ms ns : Json.Members}

/-- The attributes of the two differ in the parent type and in nothing else. -/
theorem attributes_eq (h : Differs (Client.textOrNull P) (Client.textOrNull Q) ms ns) :
    Attributes.ofMembers none ns = (Attributes.ofMembers none ms).map (Attributes.under Q) := by
  simp (disch := decide) only [Attributes.ofMembers, h.withDefault_eq, h.box_eq, h.arrangement_eq,
    parentType_reads h.left, parentType_reads h.right]
  simp only [Functor.map, Seq.seq, Reading.map_both, Reading.both_value, Reading.map_map]
  rfl

/-- The two are assembled to the same node under different parents. -/
theorem assemble_eq
    (h : Differs (Client.textOrNull P) (Client.textOrNull Q) ms ns) (c : NodeClass)
    (children : Reading (List Node)) :
    Node.assemble c none ns children = (Node.assemble c none ms children).map (Node.under Q) := by
  unfold Node.assemble
  have hlift := h.classLift c
  generalize c.lift ms = x at hlift ⊢
  generalize c.lift ns = y at hlift ⊢
  cases hlift with
  | defect d => rfl
  | @members ms ns h =>
    simp only [h.readType_eq, h.readKind_eq, h.attributes_eq]
    simp only [Functor.map, Seq.seq, Reading.map_both, Reading.both_map, Reading.map_map]
    rfl

/-- Objects that differ in the parent type alone are read as the same node under different
parents. -/
theorem ofMembers_eq
    (h : Differs (Client.textOrNull P) (Client.textOrNull Q) ms ns) (children : List Node) :
    Node.ofMembers ns children = (Node.ofMembers ms children).map (Node.under Q) := by
  rw [Node.ofMembers, Node.ofMembers, h.nodeClass_eq]
  cases NodeClass.ofMembers ms with
  | error d => rfl
  | ok c => exact h.assemble_eq c (.value children)

end Differs

namespace Differs

variable {v : Json} {ms ns : Json.Members}

/-- Objects with one parent type agree on it, whatever it is. -/
theorem parentType_same (h : Differs v v ms ns) :
    Reading.withDefault "parent_type" none (Reading.nullable Reading.text) ns =
      Reading.withDefault "parent_type" none (Reading.nullable Reading.text) ms := by
  have hcamel : FieldName.camel "parent_type" = parentKey := by decide
  simp only [Reading.withDefault, FieldName.find?, hcamel, h.left, h.right]

theorem attributes_same (h : Differs v v ms ns) :
    Attributes.ofMembers none ns = Attributes.ofMembers none ms := by
  simp (disch := decide) only [Attributes.ofMembers, h.withDefault_eq, h.box_eq, h.arrangement_eq,
    h.parentType_same]

theorem assemble_same
    (h : Differs v v ms ns) (c : NodeClass) (children : Reading (List Node)) :
    Node.assemble c none ns children = Node.assemble c none ms children := by
  unfold Node.assemble
  have hlift := h.classLift c
  generalize c.lift ms = x at hlift ⊢
  generalize c.lift ns = y at hlift ⊢
  cases hlift with
  | defect d => rfl
  | members h => simp only [h.readType_eq, h.readKind_eq, h.attributes_same]

/-- What differs under the keys apart only, and has the same type of the parent, is the same
node. -/
theorem ofMembers_same (h : Differs v v ms ns) (children : List Node) :
    Node.ofMembers ns children = Node.ofMembers ms children := by
  rw [Node.ofMembers, Node.ofMembers, h.nodeClass_eq]
  cases NodeClass.ofMembers ms with
  | error d => rfl
  | ok c => exact h.assemble_same c (.value children)

end Differs

/-- The document of a node is accepted or not, and its node is what it is, whatever the parent; and
only the type of the parent is taken from there. -/
theorem Document.node_under (P Q : Option String) (v : Json) :
    Document.node .null (Client.textOrNull Q) v =
      (Document.node .null (Client.textOrNull P) v).map (Node.under Q) := by
  show read none _ v = (read none _ v).map _
  cases v with
  | obj ms =>
      have hmembers : Differs.Alike (Client.textOrNull P) (Client.textOrNull Q)
          (members none (Client.textOrNull P) ms) (members none (Client.textOrNull Q) ms) :=
        Differs.of_members rfl rfl rfl rfl fun _ _ => rfl
      unfold read
      generalize members none (Client.textOrNull P) ms = x at hmembers ⊢
      generalize members none (Client.textOrNull Q) ms = y at hmembers ⊢
      cases hmembers with
      | defect d => rfl
      | members h =>
          cases readChildren (.obj ms) ms with
          | value children => exact h.ofMembers_eq children
          | invalid issues => rfl
          | defect d => rfl
  | _ => simp only [read, Reading.map]

end SceneMarkup
