import SceneMarkup.Proofs.Displacement
import SceneMarkup.Proofs.WholeNumbers

/-!
# Sums of positions

The position of a node is the difference of two places on the canvas: that of its document and that
of the document around. So on a path down from the root of a document each place but the first one
and the last one is added once and subtracted once.

* `Json.descend`, `Node.along`: the document at the end of a path, and the nodes on a path.
* `Document.OnCanvas`: a document with whole coordinates on the canvas and no other position.
* `Document.axis_of_root`, `Document.axis_of_child`: where a path starts, and one step of it.
* `Document.leads_along`: the positions on a path lead from the place of the first document to that
  of the last one.
* `Document.positions_telescope`: their sum is the difference of these places, and it is exact.
-/

namespace SceneMarkup

/-- A coordinate of the canvas. -/
inductive Axis
  | x | y
  deriving DecidableEq

namespace Axis

/-- The key of a coordinate, in places as well as in nodes. -/
def key : Axis → String
  | x => "x"
  | y => "y"

/-- The coordinate of a pair. -/
def pick : Axis → Json × Json → Json
  | x, p => p.1
  | y, p => p.2

/-- The coordinate of a node. -/
def ofBox : Axis → Box → Option Binary64
  | x, b => b.x
  | y, b => b.y

end Axis

/-- The document at the end of a path. Each step of a path is an index among the children. -/
def Json.descend : List ℕ → Members → Option Members
  | [], ms => some ms
  | i :: path, ms => (childItems ms)[i]?.bind fun v => v.members?.bind (descend path)

/-- The nodes on a path, without the one at which it starts. -/
def Node.along : List ℕ → Node → Option (List Node)
  | [], _ => some []
  | i :: path, n => n.children[i]?.bind fun c => (along path c).map (c :: ·)

theorem Json.mem_preorderAll {v : Json} {vs : List Json} (hv : v ∈ vs) :
    ∀ os ∈ v.preorder, os ∈ preorderAll vs := by
  induction vs with
  | nil => cases hv
  | cons w vs ih =>
      intro os hos
      rw [preorderAll, List.mem_append]
      rcases List.mem_cons.1 hv with rfl | hrest
      · exact .inl hos
      · exact .inr (ih hrest os hos)

namespace Document

open Json

variable {ms ps data : Members} {p q : Axis → ℤ}

/-- A document stands at a place of the canvas with these whole coordinates. -/
structure Stands (ms : Members) (p : Axis → ℤ) : Prop where
  box : ∃ box, find? canvasKey ms = some (.obj box) ∧
    ∀ axis : Axis, ∃ v, find? axis.key box = some v ∧ v.IsWhole (p axis)
  near : ∀ axis, |p axis| < 2 ^ 51

/-- A document that has a place on the canvas and no other position. -/
structure OnCanvas (ms : Members) : Prop where
  stands : ∃ p, Stands ms p
  noMatrix : find? "relativeTransform" ms = none
  noPosition : ∀ axis : Axis, find? axis.key ms = none

/-- An object stands at one place. -/
theorem Stands.unique (hp : Stands ms p) (hq : Stands ms q) : p = q := by
  obtain ⟨box, hbox, hcoordinates⟩ := hp.box
  obtain ⟨box', hbox', hcoordinates'⟩ := hq.box
  obtain rfl : box = box' := by simpa [hbox] using hbox'
  funext axis
  obtain ⟨v, hv, hwhole⟩ := hcoordinates axis
  obtain ⟨v', hv', hwhole'⟩ := hcoordinates' axis
  obtain rfl : v = v' := by simpa [hv] using hv'
  exact hwhole.unique hwhole'

/-- The box of a document that stands on the canvas. -/
theorem Stands.boxAt_eq (h : Stands ms p) :
    ∃ box, boxAt ms = .obj box ∧ Json.isVacant (.obj box) = false ∧
      ∀ axis : Axis, ∃ v, find? axis.key box = some v ∧ v.IsWhole (p axis) := by
  obtain ⟨box, hbox, hcoordinates⟩ := h.box
  have hvacant : Json.isVacant (.obj box) = false := by
    obtain ⟨v, hv, -⟩ := hcoordinates .x
    cases box with
    | nil => cases hv
    | cons m box => rfl
  refine ⟨box, ?_, hvacant, hcoordinates⟩
  rw [boxAt, hbox, Option.getD_some, if_neg (by simp [hvacant])]

/-- The offset of whole numbers below this bound is exact. -/
theorem offset_whole
    {k : String} {box parentBox : Members} {v w : Json} {m n : ℤ}
    (hv : find? k box = some v) (hw : find? k parentBox = some w) (hvm : v.IsWhole m)
    (hwn : w.IsWhole n)
    (hm : |m| < 2 ^ 51) (hn : |n| < 2 ^ 51) :
    ∃ u, offset k (.obj box) (.obj parentBox) = .ok u ∧ u.IsWhole (m - n) := by
  obtain ⟨u, hsub, hwhole⟩ := hvm.sub hwn hm hn
  refine ⟨u, ?_, hwhole⟩
  simp only [offset, memberD_obj, hv, hw, Option.getD_some, Bind.bind, Except.bind, hsub]

/-- Without a matrix the position is the difference of the places. -/
theorem position_whole
    (hmatrix : find? "relativeTransform" ms = none) (hq : Stands ms q) (hp : Stands ps p) :
    ∃ found, position (.obj ms) (some (.obj ps)) = .ok (some found) ∧
      ∀ axis : Axis, (axis.pick found).IsWhole (q axis - p axis) := by
  obtain ⟨box, hbox, hfull, hcoordinates⟩ := hq.boxAt_eq
  obtain ⟨parentBox, hparentBox, hparentFull, hparentCoordinates⟩ := hp.boxAt_eq
  have hoffset : ∀ axis : Axis, ∃ u, offset axis.key (.obj box) (.obj parentBox) = .ok u ∧
      u.IsWhole (q axis - p axis) := by
    intro axis
    obtain ⟨v, hv, hvwhole⟩ := hcoordinates axis
    obtain ⟨w, hw, hwwhole⟩ := hparentCoordinates axis
    exact offset_whole hv hw hvwhole hwwhole (hq.near axis) (hp.near axis)
  obtain ⟨x, hx, hxwhole⟩ := hoffset .x
  obtain ⟨y, hy, hywhole⟩ := hoffset .y
  refine ⟨(x, y), ?_, ?_⟩
  · simp only [Axis.key] at hx hy
    simp only [position, memberD_obj, hmatrix, Option.getD_none, matrixPosition?, canvasBox_obj,
      hbox, hparentBox, hfull, hparentFull, hx, hy, Bind.bind, Except.bind, Pure.pure, Except.pure,
      Bool.or_self, Bool.false_eq_true, if_false]
  · rintro (_ | _)
    · exact hxwhole
    · exact hywhole

/-- Without a matrix and a parent there is no position. -/
theorem position_root (hmatrix : find? "relativeTransform" ms = none) :
    position (.obj ms) none = .ok none := by
  simp [position, memberD_obj, hmatrix, matrixPosition?, canvasBox_obj, Bind.bind, Except.bind,
    Pure.pure, Except.pure, isVacant]

theorem find?_setDefault_self {key : String} {ms : Members} (h : find? key ms = none) (v : Json) :
    find? key (setDefault key v ms) = some v := by
  simp [setDefault, hasKey, h, find?_insert]

/-- A position that is found is written under the keys of the coordinates. -/
theorem find?_place_axis
    (hfree : ∀ axis : Axis, find? axis.key ms = none) (found : Option (Json × Json)) (axis : Axis) :
    find? axis.key (place found ms) = found.map axis.pick := by
  cases found with
  | none => exact hfree axis
  | some p =>
      have hx := hfree .x
      have hy := hfree .y
      rw [place]
      cases axis with
      | x =>
          rw [Axis.key, find?_setDefault (by decide)]
          exact find?_setDefault_self hx p.1
      | y =>
          refine find?_setDefault_self ?_ p.2
          rw [find?_setDefault (by decide)]
          exact hy

/-- A coordinate that is not given is that of the position. -/
theorem find?_members_axis
    {parent : Option Json} {otherwise : Json} (h : members parent otherwise ms = .ok data)
    (hfree : ∀ axis : Axis, find? axis.key ms = none) :
    ∃ found, position (.obj ms) parent = .ok found ∧
      ∀ axis : Axis, find? axis.key data = found.map axis.pick := by
  obtain ⟨type, found, -, hfound, hkept⟩ := find?_members h
  refine ⟨found, hfound, ?_⟩
  intro axis
  have hlater : axis.key ∉ laterKeys := by cases axis <;> decide
  rw [hkept _ hlater]
  refine find?_place_axis ?_ found axis
  intro axis
  have hne : parentKey ≠ axis.key := by cases axis <;> decide
  rw [find?_insert, if_neg hne, hfree axis]

theorem accepted_axis {b : Box} (h : Box.ofMembers ms = .value b) (axis : Axis) :
    (match find? axis.key ms with
      | some v => (Reading.nullable Reading.number v).accepted
      | none => some none) = some (axis.ofBox b) := by
  have haccepted := Reading.accepted_eq_some.2 h
  simp only [Box.ofMembers, Reading.optional, Reading.accepted_seq, Reading.accepted_functor,
    Option.bind_eq_some_iff, Option.map_eq_some_iff, Reading.accepted_withDefault "x",
    Reading.accepted_withDefault "y"] at haccepted
  obtain ⟨_, ⟨_, ⟨_, ⟨_, ⟨_, ⟨_, ⟨_, ⟨x, hx, rfl⟩, y, hy, rfl⟩, _, -, rfl⟩, _, -, rfl⟩, _, -, rfl⟩,
    _, -, rfl⟩, _, -, rfl⟩, _, -, rfl⟩ := haccepted
  cases axis with
  | x => rwa [FieldName.value?_of_camel (by decide)] at hx
  | y => rwa [FieldName.value?_of_camel (by decide)] at hy

/-- A coordinate of an accepted node is read under its key. -/
theorem ofMembers_axis {children : List Node} {n : Node}
    (h : Node.ofMembers data children = .value n)
    (axis : Axis) :
    (match find? axis.key data with
      | some v => (Reading.nullable Reading.number v).accepted
      | none => some none) = some (axis.ofBox n.attributes.box) := by
  unfold Node.ofMembers at h
  split at h
  next => cases h
  next c _ =>
    obtain ⟨lifted, type, a, cs, kind, hlift, -, hattributes, -, -, rfl⟩ := Node.assemble_eq_value h
    obtain ⟨-, -, -, hbox⟩ := Attributes.ofMembers_eq_value hattributes
    have hkept : find? axis.key lifted = find? axis.key data :=
      NodeClass.find?_lift hlift (by cases axis <;> decide)
    rw [← hkept]
    exact accepted_axis hbox axis

theorem readAll_eq_value {self : Json} {vs : List Json} {ns : List Node}
    (h : readAll self vs = .value ns) :
    List.Forall₂ (fun v n => read (some self) .null v = .value n) vs ns := by
  induction vs generalizing ns with
  | nil =>
      unfold readAll at h
      cases h
      exact .nil
  | cons v vs ih =>
      unfold readAll at h
      have haccepted := Reading.accepted_eq_some.2 h
      simp only [Reading.accepted_andThen, Reading.accepted_map, Option.bind_eq_some_iff,
        Option.map_eq_some_iff, Reading.accepted_eq_some] at haccepted
      obtain ⟨n, hn, rest, hrest, rfl⟩ := haccepted
      exact .cons hn (ih hrest)

theorem readElements_eq_value {self v : Json} {ns : List Node}
    (h : readElements self v = .value ns) :
    List.Forall₂ (fun v n => read (some self) .null v = .value n) v.items ns := by
  cases v with
  | arr vs =>
      unfold readElements at h
      exact readAll_eq_value h
  | str s =>
      unfold readElements at h
      split at h
      · cases h
        exact .nil
      · cases h
  | obj ms =>
      unfold readElements at h
      split at h
      · cases h
        exact .nil
      · cases h
  | null | bool _ | int _ | float _ =>
      unfold readElements at h
      cases h

theorem readChildren_eq_value {self : Json} {ns : List Node}
    (h : readChildren self ms = .value ns) :
    List.Forall₂ (fun v n => read (some self) .null v = .value n) (childItems ms) ns := by
  induction ms with
  | nil =>
      unfold readChildren at h
      cases h
      exact .nil
  | cons m rest ih =>
      obtain ⟨key, v⟩ := m
      unfold readChildren at h
      rw [childItems_cons]
      split at h
      next hkey =>
        rw [if_pos hkey]
        exact readElements_eq_value h
      next hkey =>
        rw [if_neg hkey]
        exact ih h

theorem getElem?_of_forall₂ {R : Json → Node → Prop} {vs : List Json} {ns : List Node}
    (h : List.Forall₂ R vs ns) {i : ℕ} {v : Json} (hv : vs[i]? = some v) :
    ∃ n, ns[i]? = some n ∧ R v n := by
  induction h generalizing i with
  | nil => cases hv
  | cons hhead _ ih =>
      cases i with
      | zero =>
          cases hv
          exact ⟨_, rfl, hhead⟩
      | succ i => exact ih hv

/-- An accepted document is recast, and each of its children is read under it. -/
theorem read_eq_value {parent : Option Json} {otherwise v : Json} {n : Node}
    (h : read parent otherwise v = .value n) :
    ∃ ms data, v = .obj ms ∧ members parent otherwise ms = .ok data ∧
      Node.ofMembers data n.children = .value n ∧
      List.Forall₂ (fun u c => read (some v) .null u = .value c) (childItems ms) n.children := by
  cases v with
  | obj ms =>
      unfold read at h
      split at h
      next => cases h
      next data hdata =>
        have haccepted := Reading.accepted_eq_some.2 h
        simp only [Reading.accepted_andThen, Option.bind_eq_some_iff,
          Reading.accepted_eq_some] at haccepted
        obtain ⟨cs, hcs, hn⟩ := haccepted
        have hchildren : n.children = cs := by
          unfold Node.ofMembers at hn
          split at hn
          next => cases hn
          next c _ =>
            obtain ⟨lifted, type, a, cs', kind, -, -, -, hsame, -, rfl⟩ := Node.assemble_eq_value hn
            cases hsame
            rfl
        rw [hchildren]
        exact ⟨ms, data, rfl, hdata, hn, readChildren_eq_value hcs⟩
  | _ =>
      unfold read at h
      cases h

/-- The root of a document has no position. -/
theorem axis_of_root {otherwise : Json} {n : Node} (hms : OnCanvas ms)
    (h : read none otherwise (.obj ms) = .value n) (axis : Axis) :
    axis.ofBox n.attributes.box = none := by
  obtain ⟨_, data, ⟨⟩, hdata, hn, -⟩ := read_eq_value h
  obtain ⟨found, hfound, hwritten⟩ := find?_members_axis hdata hms.noPosition
  rw [position_root hms.noMatrix] at hfound
  cases hfound
  have haccepted := ofMembers_axis hn axis
  rw [hwritten axis] at haccepted
  exact (Option.some.inj haccepted).symm

/-- The position of a child is the difference of its place and that of the document around. -/
theorem axis_of_child {otherwise : Json} {n : Node} (hms : OnCanvas ms) (hq : Stands ms q)
    (hp : Stands ps p) (h : read (some (.obj ps)) otherwise (.obj ms) = .value n) (axis : Axis) :
    ∃ x : Binary64, axis.ofBox n.attributes.box = some x ∧ x.IsInt (q axis - p axis) := by
  obtain ⟨_, data, ⟨⟩, hdata, hn, -⟩ := read_eq_value h
  obtain ⟨found, hfound, hwritten⟩ := find?_members_axis hdata hms.noPosition
  obtain ⟨offsets, hoffsets, hwhole⟩ := position_whole hms.noMatrix hq hp
  rw [hoffsets] at hfound
  cases hfound
  have hqnear := abs_lt.1 (hq.near axis)
  have hpnear := abs_lt.1 (hp.near axis)
  obtain ⟨x, hread, hx⟩ := (hwhole axis).number (abs_lt.2 ⟨by omega, by omega⟩)
  have haccepted := ofMembers_axis hn axis
  rw [hwritten axis] at haccepted
  simp only [Option.map_some, hread, Reading.accepted_value] at haccepted
  exact ⟨x, (Option.some.inj haccepted).symm, hx⟩

/-- The coordinates of the nodes lead from one place to another. -/
def LeadAlong (nodes : List Node) (p q : Axis → ℤ) : Prop :=
  ∀ axis : Axis, ∃ xs, nodes.map (fun n => axis.ofBox n.attributes.box) = xs.map some ∧
    Binary64.Leads (p axis) xs (q axis)

/-- One more step along a path adds its offset. -/
theorem LeadAlong.cons {n : Node} {nodes : List Node} {r : Axis → ℤ}
    (hq : ∀ axis, |q axis| < 2 ^ 51)
    (hn : ∀ axis : Axis, ∃ x : Binary64,
      axis.ofBox n.attributes.box = some x ∧ x.IsInt (q axis - p axis))
    (h : LeadAlong nodes q r) : LeadAlong (n :: nodes) p r := by
  intro axis
  obtain ⟨x, hx, hint⟩ := hn axis
  obtain ⟨xs, hxs, hleads⟩ := h axis
  exact ⟨x :: xs, by rw [List.map_cons, List.map_cons, hx, hxs], .move hint (hq axis) hleads⟩

/-- On the way down each document is the one around for the next. The induction is on the path. -/
theorem leads_along {ds : Members} (hds : Stands ds q) (path : List ℕ) :
    ∀ {parent : Option Json} {otherwise : Json} {ms : Members} {n : Node} {p : Axis → ℤ},
      read parent otherwise (.obj ms) = .value n → (∀ os ∈ preorder (.obj ms), OnCanvas os) →
      Stands ms p → descend path ms = some ds →
      ∃ nodes, n.along path = some nodes ∧ LeadAlong nodes p q := by
  induction path with
  | nil =>
      intro parent otherwise ms n p _ _ hms hpath
      cases hpath
      obtain rfl := hms.unique hds
      exact ⟨[], rfl, fun axis => ⟨[], rfl, .stay _⟩⟩
  | cons i path ih =>
      intro parent otherwise ms n p h hcanvas hms hpath
      obtain ⟨_, data, ⟨⟩, -, -, hchildren⟩ := read_eq_value h
      rw [descend, Option.bind_eq_some_iff] at hpath
      obtain ⟨v, hv, hrest⟩ := hpath
      obtain ⟨us, hus, hrest⟩ := Option.bind_eq_some_iff.1 hrest
      obtain rfl : v = .obj us := by
        cases v with
        | obj _ => exact congrArg Json.obj (Option.some.inj hus)
        | _ => cases hus
      obtain ⟨c, hc, hchild⟩ := getElem?_of_forall₂ hchildren hv
      have hbelow : ∀ os ∈ preorder (.obj us), OnCanvas os := by
        intro os hos
        refine hcanvas os ?_
        rw [preorder, preorderIn_eq]
        exact List.mem_cons_of_mem _ (mem_preorderAll (List.mem_of_getElem? hv) os hos)
      have hself : OnCanvas us := hbelow us (by rw [preorder]; exact List.mem_cons_self)
      obtain ⟨r, hr⟩ := hself.stands
      obtain ⟨nodes, hnodes, hleads⟩ := ih hchild hbelow hr hrest
      refine ⟨c :: nodes, ?_, hleads.cons hr.near (axis_of_child hself hr hms hchild)⟩
      rw [Node.along, hc, Option.bind_some, hnodes, Option.map_some]

/-- **Positions telescope.** If all documents of a tree have whole coordinates on the canvas and no
other positions, then the root has no position, and for each document below it the positions of the
nodes on the path down to it add up to its place less that of the root, without a rounding on the
way. -/
theorem positions_telescope
    {ms : Members} {otherwise : Json} {root : Node}
    (hcanvas : ∀ os ∈ preorder (.obj ms), OnCanvas os)
    (h : node .null otherwise (.obj ms) = .value root) :
    (∀ axis : Axis, axis.ofBox root.attributes.box = none) ∧
      ∀ path ds p q, descend path ms = some ds → Stands ms p → Stands ds q →
        ∃ nodes, root.along path = some nodes ∧ ∀ axis : Axis, ∃ xs,
          nodes.map (fun n => axis.ofBox n.attributes.box) = xs.map some ∧
            (xs.map Binary64.value).sum = ((q axis - p axis : ℤ) : ℚ) ∧
              (Binary64.total xs).IsInt (q axis - p axis) := by
  have hroot : OnCanvas ms := hcanvas ms (by rw [preorder]; exact List.mem_cons_self)
  refine ⟨axis_of_root hroot h, ?_⟩
  intro path ds p q hpath hp hq
  obtain ⟨nodes, hnodes, hleads⟩ := leads_along hq path h hcanvas hp hpath
  refine ⟨nodes, hnodes, fun axis => ?_⟩
  obtain ⟨xs, hxs, hway⟩ := hleads axis
  exact ⟨xs, hxs, hway.sum_eq, hway.total_isInt (hp.near axis)⟩

/-- The place with these coordinates. -/
def point (a b : ℤ) : Axis → ℤ
  | .x => a
  | .y => b

/-- A frame at a place of the canvas. -/
def frameAt (id : String) (vx vy : Json) (children : List Json) : Members :=
  [("type", .str "FRAME"), ("id", .str id), ("absoluteBoundingBox", .obj [("x", vx), ("y", vy)]),
    ("children", .arr children)]

theorem stands_frameAt {id : String} {vx vy : Json} {children : List Json} {a b : ℤ}
    (hx : vx.IsWhole a) (hy : vy.IsWhole b) (hnear : |a| < 2 ^ 51 ∧ |b| < 2 ^ 51) :
    Stands (frameAt id vx vy children) (point a b) where
  box := by
    refine ⟨_, rfl, ?_⟩
    rintro (_ | _)
    · exact ⟨vx, rfl, hx⟩
    · exact ⟨vy, rfl, hy⟩
  near := by
    rintro (_ | _)
    · exact hnear.1
    · exact hnear.2

theorem onCanvas_frameAt {id : String} {vx vy : Json} {children : List Json} {p : Axis → ℤ}
    (h : Stands (frameAt id vx vy children) p) : OnCanvas (frameAt id vx vy children) where
  stands := ⟨p, h⟩
  noMatrix := rfl
  noPosition := by rintro (_ | _) <;> rfl

theorem preorder_frameAt (id : String) (vx vy : Json) (children : List Json) :
    preorder (.obj (frameAt id vx vy children)) =
      frameAt id vx vy children :: preorderAll children := by
  rw [preorder, preorderIn_eq]
  rfl

/-- Three frames in each other, at places that are far apart. One coordinate is no integer by its
form. -/
def farFrames : Members :=
  frameAt "1:1" (.int 2251799813685247) (.int (-7)) [
    .obj (frameAt "1:2" (.int (-2251799813685247)) (.float .one) [
      .obj (frameAt "1:3" (.int 5) (.int 2251799813685246) [])])]

theorem positions_telescope_farFrames :
    ∃ root, node .null .null (.obj farFrames) = .value root ∧
      (∀ os ∈ preorder (.obj farFrames), OnCanvas os) ∧
      (∀ axis : Axis, axis.ofBox root.attributes.box = none) ∧
      ∃ nodes, root.along [0, 0] = some nodes ∧ ∀ axis : Axis, ∃ xs,
        nodes.map (fun n => axis.ofBox n.attributes.box) = xs.map some ∧
          (xs.map Binary64.value).sum =
            ((point 5 2251799813685246 axis - point 2251799813685247 (-7) axis : ℤ) : ℚ) ∧
            (Binary64.total xs).IsInt
              (point 5 2251799813685246 axis - point 2251799813685247 (-7) axis) := by
  have haccepted : (node .null .null (.obj farFrames)).accepted.isSome = true := by decide +kernel
  obtain ⟨root, hroot⟩ := Option.isSome_iff_exists.1 haccepted
  have hone : Json.IsWhole (.float .one) 1 := .rounded (Binary64.ofInt_isInt (n := 1) (by norm_num))
  have hfirst : Stands farFrames (point 2251799813685247 (-7)) :=
    stands_frameAt (.exact _) (.exact _) (by norm_num [abs_lt])
  have hlast : Stands (frameAt "1:3" (.int 5) (.int 2251799813685246) [])
      (point 5 2251799813685246) :=
    stands_frameAt (.exact _) (.exact _) (by norm_num [abs_lt])
  have hcanvas : ∀ os ∈ preorder (.obj farFrames), OnCanvas os := by
    rw [farFrames, preorder_frameAt, List.forall_mem_cons]
    refine ⟨onCanvas_frameAt hfirst, ?_⟩
    rw [preorderAll, preorderAll, List.append_nil, preorder_frameAt, List.forall_mem_cons]
    refine ⟨onCanvas_frameAt (stands_frameAt (.exact _) hone (by norm_num [abs_lt])), ?_⟩
    rw [preorderAll, preorderAll, List.append_nil, preorder_frameAt, List.forall_mem_cons]
    exact ⟨onCanvas_frameAt hlast, by simp [preorderAll]⟩
  have h := positions_telescope hcanvas (Reading.accepted_eq_some.1 hroot)
  exact ⟨root, Reading.accepted_eq_some.1 hroot, hcanvas, h.1,
    h.2 [0, 0] _ _ _ rfl hfirst hlast⟩

end Document
end SceneMarkup
