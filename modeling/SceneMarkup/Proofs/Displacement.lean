import SceneMarkup.Markup.Snippet
import SceneMarkup.Proofs.Conversion

/-!
# Documents that are moved on the canvas

The places of documents are those on the canvas, and the positions of nodes are relative to their
parents. So a document that is moved as a whole becomes the same node (`Document.node_moved`): where
a position comes from two places, the displacement cancels, and nothing else looks at a place but
for its size.

What is recast from a moved document differs from what it was before under the keys apart only, and
the rest is `Differs.of_members` and `Differs.ofMembers_same`.
-/

namespace SceneMarkup

namespace Json

/-- The members with a number added to the integer under a key. A missing one counts as zero. -/
def shiftMember (key : String) (d : Int) (ms : Members) : Members :=
  match (find? key ms).getD Document.zero with
  | .int n => insert key (.int (n + d)) ms
  | _ => ms

/-- A place on the canvas, moved. One without content stays. -/
def shiftBox (dx dy : Int) : Json → Json
  | .obj [] => .obj []
  | .obj (m :: ms) => .obj (shiftMember "y" dy (shiftMember "x" dx (m :: ms)))
  | v => v

mutual

/-- A document with the documents below it, moved on the canvas. -/
def moved (dx dy : Int) : Json → Json
  | .obj ms => .obj (movedMembers dx dy ms)
  | v => v

/-- The members of a document that is moved. -/
def movedMembers (dx dy : Int) : List (String × Json) → List (String × Json)
  | [] => []
  | (key, v) :: rest =>
    (key, if key = canvasKey then shiftBox dx dy v
      else if key = "children" then movedChildren dx dy v
      else v) :: movedMembers dx dy rest

/-- The value under the key of the children of a document that is moved. -/
def movedChildren (dx dy : Int) : Json → Json
  | .arr vs => .arr (movedAll dx dy vs)
  | v => v

/-- Documents that are moved together. -/
def movedAll (dx dy : Int) : List Json → List Json
  | [] => []
  | v :: vs => moved dx dy v :: movedAll dx dy vs

end

/-- A place that can be moved: it is without content, or its coordinates are integers. -/
inductive IsPlace : Json → Prop
  | vacant {v : Json} : v.isVacant = true → IsPlace v
  | box {ms : Members} {x y : Int} :
      (find? "x" ms).getD Document.zero = .int x →
      (find? "y" ms).getD Document.zero = .int y →
      IsPlace (.obj ms)

/-- The place of a document can be moved, if it has one. -/
def Movable (ms : Members) : Prop := ∀ v, find? canvasKey ms = some v → IsPlace v

variable {dx dy : Int}

theorem find?_shiftMember_of_ne {key k : String} (h : k ≠ key) (d : Int) (ms : Members) :
    find? k (shiftMember key d ms) = find? k ms := by
  unfold shiftMember
  split
  · rw [find?_insert, if_neg h.symm]
  · rfl

/-- A coordinate that is shifted is the integer that it was plus the shift. -/
theorem find?_shiftMember
    {key : String} {n : Int} {ms : Members} (h : (find? key ms).getD Document.zero = .int n)
    (d : Int) :
    find? key (shiftMember key d ms) = some (.int (n + d)) := by
  rw [shiftMember, h]
  simp [find?_insert]

theorem shiftMember_isEmpty (key : String) (d : Int) (m : String × Json) (ms : Members) :
    (shiftMember key d (m :: ms)).isEmpty = false := by
  unfold shiftMember
  split
  · obtain ⟨k, v⟩ := m
    rw [insert]
    split
    · rfl
    · rfl
  · rfl

theorem shiftBox_isVacant (v : Json) : (shiftBox dx dy v).isVacant = v.isVacant := by
  unfold shiftBox
  split
  · rfl
  · next m ms =>
    obtain ⟨m', ms', hx⟩ := List.exists_cons_of_ne_nil
      (List.isEmpty_eq_false_iff.1 (shiftMember_isEmpty "x" dx m ms))
    rw [hx]
    exact shiftMember_isEmpty "y" dy m' ms'
  · rfl

/-- Only the coordinates of a place are moved. -/
theorem memberD_shiftBox
    {key : String} (hx : key ≠ "x") (hy : key ≠ "y") (v default : Json) :
    (shiftBox dx dy v).memberD key default = v.memberD key default := by
  unfold shiftBox
  split
  · rfl
  · rw [memberD_obj, memberD_obj, find?_shiftMember_of_ne hy, find?_shiftMember_of_ne hx]
  · rfl

/-- In a moved object the box is shifted, the children are moved and the rest is as it was. -/
theorem find?_movedMembers (key : String) (ms : Members) :
    find? key (movedMembers dx dy ms) =
      (find? key ms).map fun v =>
        if key = canvasKey then shiftBox dx dy v
        else if key = "children" then movedChildren dx dy v
        else v := by
  induction ms with
  | nil => simp [movedMembers, find?]
  | cons m rest ih =>
      obtain ⟨k, v⟩ := m
      rw [movedMembers, find?, find?]
      split
      · next h => simp [h]
      · exact ih

/-- Other keys of a moved object are as they were. -/
theorem find?_movedMembers_of_ne
    {key : String} (hcanvas : key ≠ canvasKey) (hchildren : key ≠ "children") (ms : Members) :
    find? key (movedMembers dx dy ms) = find? key ms := by
  rw [find?_movedMembers]
  simp [hcanvas, hchildren]

end Json

namespace Document

open Json

variable (dx dy : Int)

/-- The place of a document, an object without members when there is none. -/
def boxAt (ms : Members) : Json :=
  if ((find? canvasKey ms).getD .null).isVacant then .obj [] else (find? canvasKey ms).getD .null

theorem canvasBox_obj (ms : Members) : canvasBox (.obj ms) = .ok (boxAt ms) := by
  rw [canvasBox, memberOrEmpty, memberD_obj]
  rfl

/-- The box of a moved object is the shifted box. -/
theorem boxAt_moved (ms : Members) :
    boxAt (movedMembers dx dy ms) = shiftBox dx dy (boxAt ms) := by
  rw [boxAt, boxAt, find?_movedMembers]
  cases find? canvasKey ms with
  | none => rfl
  | some v =>
      simp only [Option.map_some, Option.getD_some, if_pos, shiftBox_isVacant]
      split
      · rfl
      · rfl

/-- A movable object has a vacant box or one with integer coordinates. -/
theorem boxAt_movable {ms : Members} (h : Movable ms) (hbox : (boxAt ms).isVacant = false) :
    ∃ m box x y, boxAt ms = .obj (m :: box) ∧
      (find? "x" (m :: box)).getD zero = .int x ∧ (find? "y" (m :: box)).getD zero = .int y := by
  cases hfound : find? canvasKey ms with
  | none =>
      rw [boxAt, hfound] at hbox
      cases hbox
  | some v =>
      cases hv : v.isVacant with
      | true =>
          rw [boxAt, hfound, Option.getD_some, if_pos hv] at hbox
          cases hbox
      | false =>
          have hat : boxAt ms = v := by
            rw [boxAt, hfound, Option.getD_some, if_neg (by simp [hv])]
          rw [hat]
          cases h v hfound with
          | vacant hvacant =>
              rw [hvacant] at hv
              cases hv
          | @box box x y hx hy =>
              cases box with
              | nil => cases hv
              | cons m box => exact ⟨m, box, x, y, rfl, hx, hy⟩

theorem offset_int
    {key : String} {ms ns : Members} {m n : Int}
    (hm : (find? key ms).getD zero = .int m) (hn : (find? key ns).getD zero = .int n) :
    offset key (.obj ms) (.obj ns) = .ok (.int (m - n)) := by
  simp only [offset, memberD_obj, hm, hn, Bind.bind, Except.bind]
  rfl

/-- In the difference of two places the displacement cancels. -/
theorem offset_moved
    {ms ps : Members} (hms : Movable ms) (hps : Movable ps)
    (hbox : (boxAt ms).isVacant = false) (hparent : (boxAt ps).isVacant = false) :
    offset "x" (shiftBox dx dy (boxAt ms)) (shiftBox dx dy (boxAt ps)) =
        offset "x" (boxAt ms) (boxAt ps) ∧
      offset "y" (shiftBox dx dy (boxAt ms)) (shiftBox dx dy (boxAt ps)) =
        offset "y" (boxAt ms) (boxAt ps) := by
  have hshift : ∀ {box : Members} {x y : Int}, (find? "x" box).getD zero = .int x →
      (find? "y" box).getD zero = .int y →
        (find? "x" (shiftMember "y" dy (shiftMember "x" dx box))).getD zero = .int (x + dx) ∧
          (find? "y" (shiftMember "y" dy (shiftMember "x" dx box))).getD zero = .int (y + dy) := by
    intro box x y hx hy
    constructor
    · rw [find?_shiftMember_of_ne (by decide), find?_shiftMember hx, Option.getD_some]
    · rw [find?_shiftMember ?_, Option.getD_some]
      rw [find?_shiftMember_of_ne (by decide), hy]
  obtain ⟨m, box, x, y, hms, hx, hy⟩ := boxAt_movable hms hbox
  obtain ⟨m', box', x', y', hps, hx', hy'⟩ := boxAt_movable hps hparent
  rw [hms, hps, shiftBox, shiftBox, offset_int hx hx', offset_int hy hy',
    offset_int (hshift hx hy).1 (hshift hx' hy').1, offset_int (hshift hx hy).2 (hshift hx' hy').2,
    Int.add_sub_add_right, Int.add_sub_add_right]
  exact ⟨rfl, rfl⟩

/-- A position is relative, so that it stays when an object and its parent are moved alike. -/
theorem position_moved
    {ms : Members} {parent : Option Members} (hms : Movable ms)
    (hparent : ∀ ps ∈ parent, Movable ps) :
    position (.obj (movedMembers dx dy ms)) (parent.map fun ps => .obj (movedMembers dx dy ps)) =
      position (.obj ms) (parent.map .obj) := by
  have htransform :
      find? "relativeTransform" (movedMembers dx dy ms) = find? "relativeTransform" ms :=
    find?_movedMembers_of_ne (by decide) (by decide) ms
  simp only [position, memberD_obj, htransform, canvasBox_obj, Bind.bind, Except.bind]
  split
  · rfl
  · cases parent with
    | none => simp [isVacant, Pure.pure, Except.pure]
    | some ps =>
        simp only [Option.map_some, canvasBox_obj, boxAt_moved, shiftBox_isVacant]
        cases hbox : (boxAt ms).isVacant with
        | true => rfl
        | false =>
            cases hps : (boxAt ps).isVacant with
            | true => rfl
            | false =>
                obtain ⟨hx, hy⟩ := offset_moved dx dy hms
                  (hparent ps rfl) hbox hps
                simp only [hx, hy]

theorem size_moved (ms : Members) :
    size (.obj (movedMembers dx dy ms)) = size (.obj ms) := by
  have hsize : find? "size" (movedMembers dx dy ms) = find? "size" ms :=
    find?_movedMembers_of_ne (by decide) (by decide) ms
  have hbox : ∀ key, key ≠ "x" → key ≠ "y" →
      (shiftBox dx dy (boxAt ms)).memberD key zero = (boxAt ms).memberD key zero :=
    fun key hx hy => memberD_shiftBox hx hy (boxAt ms) zero
  simp only [size, memberD_obj, hsize, canvasBox_obj, boxAt_moved, Bind.bind, Except.bind,
    hbox "width" (by decide) (by decide), hbox "height" (by decide) (by decide)]

theorem parentType_moved (parent : Option Members) (otherwise : Json) :
    parentType (parent.map fun ps => .obj (movedMembers dx dy ps)) otherwise =
      parentType (parent.map .obj) otherwise := by
  cases parent with
  | none => rfl
  | some ps =>
      have htype : find? "type" (movedMembers dx dy ps) = find? "type" ps :=
        find?_movedMembers_of_ne (by decide) (by decide) ps
      simp only [Option.map_some, parentType, Json.required, htype]

theorem refusal_moved (parent : Option Members) (v : Json) :
    refusal (parent.map fun ps => .obj (movedMembers dx dy ps)) v =
      refusal (parent.map .obj) v := by
  rw [refusal, refusal, parentType_moved]

/-- A moved document is recast as before but for what no field is read from. -/
theorem members_moved
    {ms : Members} {parent : Option Members} (hms : Movable ms)
    (hparent : ∀ ps ∈ parent, Movable ps)
    (otherwise : Json) :
    ∃ type, Differs.Alike type type (members (parent.map .obj) otherwise ms)
      (members (parent.map fun ps => .obj (movedMembers dx dy ps)) otherwise
        (movedMembers dx dy ms)) := by
  have hmoved := parentType_moved dx dy parent otherwise
  cases htype : parentType (parent.map .obj) otherwise with
  | error d =>
      refine ⟨.null, ?_⟩
      simp only [members, hmoved, htype, Bind.bind, Except.bind]
      exact .defect d
  | ok type =>
      refine ⟨type, Differs.of_members htype (hmoved.trans htype) (position_moved dx dy hms hparent)
        (size_moved dx dy ms) ?_⟩
      intro key hkey
      have hcanvas : key ≠ canvasKey := by
        rintro rfl
        exact hkey (by decide)
      have hchildren : key ≠ "children" := by
        rintro rfl
        exact hkey (by decide)
      exact (find?_movedMembers_of_ne hcanvas hchildren ms).symm

mutual

/-- A document that is moved with its parent is read as before. -/
theorem read_moved (parent : Option Members) (otherwise : Json)
    (hparent : ∀ ps ∈ parent, Movable ps) :
    ∀ v : Json, (∀ ms ∈ v.preorder, Movable ms) →
      read (parent.map fun ps => .obj (movedMembers dx dy ps)) otherwise (moved dx dy v) =
        read (parent.map .obj) otherwise v
  | .obj ms, h => by
      rw [preorder] at h
      obtain ⟨hms, hbelow⟩ := List.forall_mem_cons.1 h
      obtain ⟨type, halike⟩ := members_moved dx dy hms hparent otherwise
      rw [moved, read, read, readChildren_moved ms hms ms hbelow]
      generalize members (parent.map .obj) otherwise ms = x at halike ⊢
      generalize members (parent.map fun ps => .obj (movedMembers dx dy ps)) otherwise
        (movedMembers dx dy ms) = y at halike ⊢
      cases halike with
      | defect d => rfl
      | members hdiffers =>
          cases readChildren (.obj ms) ms with
          | value children => exact hdiffers.ofMembers_same children
          | invalid issues => rfl
          | defect d => rfl
  | .null, _ | .bool _, _ | .int _, _ | .float _, _ | .str _, _ | .arr _, _ => by
      simp only [moved, read, refusal_moved]

/-- Moved children of a moved object are read as before. -/
theorem readChildren_moved (self : Members) (hself : Movable self) :
    ∀ ms : List (String × Json), (∀ os ∈ preorderIn ms, Movable os) →
      readChildren (.obj (movedMembers dx dy self)) (movedMembers dx dy ms) =
        readChildren (.obj self) ms
  | [], _ => by simp only [movedMembers, readChildren]
  | (key, v) :: rest, h => by
      rw [preorderIn] at h
      rw [movedMembers, readChildren, readChildren]
      by_cases hkey : key = "children"
      · rw [if_pos hkey] at h
        have hcanvas : key ≠ canvasKey := hkey ▸ by decide
        rw [if_pos hkey, if_pos hkey, if_neg hcanvas, if_pos hkey]
        exact readElements_moved self hself v h
      · rw [if_neg hkey] at h
        rw [if_neg hkey, if_neg hkey]
        exact readChildren_moved self hself rest h

theorem readElements_moved (self : Members) (hself : Movable self) :
    ∀ v : Json, (∀ os ∈ preorderOf v, Movable os) →
      readElements (.obj (movedMembers dx dy self)) (movedChildren dx dy v) =
        readElements (.obj self) v
  | .arr vs, h => by
      rw [preorderOf] at h
      simp only [movedChildren, readElements]
      exact readAll_moved self hself vs h
  | .str s, _ => by
      have hrefusal := refusal_moved dx dy (some self)
      simp only [Option.map_some] at hrefusal
      simp only [movedChildren, readElements, hrefusal]
  | .obj [], _ => by simp only [movedChildren, readElements]
  | .obj (m :: ms), _ => by
      have hrefusal := refusal_moved dx dy (some self)
      simp only [Option.map_some] at hrefusal
      simp only [movedChildren, readElements, hrefusal]
  | .null, _ | .bool _, _ | .int _, _ | .float _, _ => by
      simp only [movedChildren, readElements]

theorem readAll_moved (self : Members) (hself : Movable self) :
    ∀ vs : List Json, (∀ os ∈ preorderAll vs, Movable os) →
      readAll (.obj (movedMembers dx dy self)) (movedAll dx dy vs) = readAll (.obj self) vs
  | [], _ => by simp only [movedAll, readAll]
  | v :: vs, h => by
      rw [preorderAll] at h
      obtain ⟨hv, hvs⟩ := List.forall_mem_append.1 h
      have hparent : ∀ ps ∈ some self, Movable ps := by
        rintro ps ⟨⟩
        exact hself
      have hhead := read_moved (some self) .null hparent v hv
      simp only [Option.map_some] at hhead
      rw [movedAll, readAll, readAll, hhead, readAll_moved self hself vs hvs]

end

/-- **A document that is moved on the canvas becomes the same node**, and so the same text for every
host, if all its places have whole coordinates. What is not accepted before is not accepted after,
for the same reasons. -/
theorem node_moved
    (dx dy : Int) (parentType : Json) (v : Json) (h : ∀ ms ∈ v.preorder, Movable ms) :
    node .null parentType (moved dx dy v) = node .null parentType v ∧
      ∀ {σ : Type} (host : Host σ) (state : σ) (followed : Bool),
        (node .null parentType (moved dx dy v)).map
            (fun n => (Snippet.text followed n).run host state) =
          (node .null parentType v).map fun n => (Snippet.text followed n).run host state := by
  have hnode : node .null parentType (moved dx dy v) = node .null parentType v :=
    read_moved dx dy none parentType nofun v h
  refine ⟨hnode, ?_⟩
  intro σ host state followed
  rw [hnode]

/-- A place with a size of its own. -/
def square (x y : Int) : String × Json :=
  (canvasKey, .obj [("x", .int x), ("y", .int y), ("width", .int 8), ("height", .int 8)])

example : movedMembers 100 (-40) [square 10 20] = [square 110 (-20)] := rfl

/-- A frame with a rectangle, a text with a matrix instead of a place, and a group without a place,
in which there is a vector. -/
def board : Json :=
  .obj [("type", .str "FRAME"), square 10 20, ("children", .arr [
    .obj [("type", .str "RECTANGLE"), square 30 50],
    .obj [("type", .str "TEXT"), (canvasKey, .null), ("relativeTransform", .arr [
      .arr [.int 1, .int 0, .int 4], .arr [.int 0, .int 1, .int 6]])],
    .obj [("type", .str "GROUP"), ("children", .arr [
      .obj [("type", .str "VECTOR"), square (-7) 0]])]])]

/-- The board moved to the right and up. -/
theorem node_moved_board :
    (∀ ms ∈ board.preorder, Movable ms) ∧
      node .null (.str "CANVAS") (moved 100 (-40) board) = node .null (.str "CANVAS") board := by
  have hsquare : ∀ {x y : Int} {v : Json}, some (square x y).2 = some v → IsPlace v := by
    rintro x y _ ⟨⟩
    exact .box rfl rfl
  have hall : ∀ ms ∈ board.preorder, Movable ms := by
    rintro _ (_ | ⟨_, _ | ⟨_, _ | ⟨_, _ | ⟨_, _ | ⟨_, ⟨⟩⟩⟩⟩⟩⟩) v hv
    · exact hsquare hv
    · exact hsquare hv
    · cases hv
      exact .vacant rfl
    · cases hv
    · exact hsquare hv
  exact ⟨hall, (node_moved 100 (-40) (.str "CANVAS") board hall).1⟩

end Document

end SceneMarkup
