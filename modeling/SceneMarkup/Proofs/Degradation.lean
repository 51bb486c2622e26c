import SceneMarkup.Lookup.Tables
import SceneMarkup.Proofs.Replies

/-!
# Variables that are missing

A design may lack the variables that its scene is bound to, or their collections. Generation that
follows variables then finds none of them, and should write what it writes when variables are not
followed at all.

* `lines_degrade`: so it is for each property of a node, whatever form its fallback has.
* `text_degrades`: so it is for the text of a whole scene.
-/

namespace SceneMarkup

/-- A node binds one of its attributes, or the color of one of its paints, to a variable. -/
inductive Node.Binds (n : Node) : String → Prop
  | attribute {b : Bindable} {r : VariableRef} :
      n.attributes.bindings.get? b = some r → Binds n r.id
  | fill {paint : Paint} {r : VariableRef} :
      paint ∈ n.kind.fills → paint.colorBinding = some r → Binds n r.id
  | stroke {paint : Paint} {r : VariableRef} :
      paint ∈ n.kind.strokes → paint.colorBinding = some r → Binds n r.id

/-- Some node of a tree binds a variable. -/
inductive Node.BindsWithin : Node → String → Prop
  | here {n : Node} {id : String} : n.Binds id → BindsWithin n id
  | child {n c : Node} {id : String} : c ∈ n.children → BindsWithin c id → BindsWithin n id

/-- A design answers a variable without a fault, but lacks it or its collection. -/
def Misses (reply : (q : Query) → q.Reply) (id : String) : Prop :=
  reply (.variableById id) = .ok none ∨
    ∃ v : Variable,
      reply (.variableById id) = .ok (some v) ∧
      reply (.collectionById v.collectionId) = .ok none

/-- A design has a variable and its collection, and reads the variable by a path. -/
def Finds (reply : (q : Query) → q.Reply) (id path : String) : Prop :=
  ∃ (v : Variable) (c : VariableCollection),
    reply (.variableById id) = .ok (some v) ∧
    reply (.collectionById v.collectionId) = .ok (some c) ∧
    path = Reference.path c v

/-- A binding leads to a variable that the design has, together with its collection. -/
def Resolves (reply : (q : Query) → q.Reply) (binding : Option VariableRef) : Prop :=
  ∃ r path, binding = some r ∧ Finds reply r.id path

variable {reply : (q : Query) → q.Reply}

/-- A variable that is found resolves to its path. -/
theorem Finds.resolve_answer {id path : String} (h : Finds reply id path) :
    (Reference.resolve id).answer reply = .ok (some path) := by
  obtain ⟨v, c, hv, hc, rfl⟩ := h
  rw [← Script.bind_done (Reference.resolve id), Reference.resolve_bind, Script.answer_ask, hv]
  show (Reference.afterCollection id v .done (reply _)).answer reply = _
  rw [hc]
  rfl

/-- A variable that is missed resolves to nothing, whichever of the two lookups misses it. -/
theorem Misses.resolve_answer {id : String} (h : Misses reply id) :
    (Reference.resolve id).answer reply = .ok none := by
  rw [← Script.bind_done (Reference.resolve id), Reference.resolve_bind, Script.answer_ask]
  rcases h with h | ⟨v, hv, hc⟩
  · rw [h]
    rfl
  · rw [hv]
    show (Reference.afterCollection id v .done (reply _)).answer reply = _
    rw [hc]
    rfl

namespace Property

/-- Bindings of missed variables are no references. -/
theorem reference_answer
    {binding : Option VariableRef} (followed : Bool)
    (h : ∀ r, binding = some r → Misses reply r.id) :
    (reference followed binding).answer reply = .ok none := by
  cases followed with
  | false => rfl
  | true =>
      cases binding with
      | none => rfl
      | some r => exact (h r rfl).resolve_answer

/-- A property whose variable is missed is written from its literal. -/
theorem bound_degrades
    (p : Property) {binding : Option VariableRef} (literal : Script (Option String))
    (h : ∀ r, binding = some r → Misses reply r.id) :
    (p.bound true binding literal).answer reply =
      (p.bound false binding literal).answer reply := by
  unfold bound
  simp only [Script.bind_eq_bind]
  rw [Script.answer_bind_of_ok (reference_answer true h)]
  rw [Script.answer_bind_of_ok (reference_answer false h)]

/-- A paint whose variable is missed describes its brush itself. -/
theorem brush_degrades
    {paint : Paint} (b : Bool)
    (h : ∀ r, paint.colorBinding = some r → Misses reply r.id) :
    (brush b paint).answer reply = (ownBrush paint).answer reply := by
  unfold brush
  simp only [Script.bind_eq_bind]
  rw [Script.answer_bind_of_ok (reference_answer b h)]

theorem fillValue_degrades
    {fills : List Paint}
    (h : ∀ paint ∈ fills, ∀ r, paint.colorBinding = some r → Misses reply r.id) :
    (fillValue true fills).answer reply = (fillValue false fills).answer reply := by
  unfold fillValue
  cases hfirst : Paint.firstVisible? fills with
  | none => rfl
  | some paint =>
      have hpaint := h paint (List.mem_of_find?_eq_some hfirst)
      simp only [brush_degrades _ hpaint]

theorem sharedCorner?_mem
    {corners : List (Corner × VariableRef)} {r : VariableRef}
    (h : sharedCorner? corners = some r) :
    ∃ c, (c, r) ∈ corners := by
  cases corners with
  | nil => cases h
  | cons c rest =>
      simp only [sharedCorner?] at h
      split at h
      · cases h
        exact ⟨c.1, List.mem_cons_self⟩
      · cases h

theorem boundCorners_mem
    {bs : Bindings} {c : Corner} {r : VariableRef}
    (h : (c, r) ∈ boundCorners bs) :
    bs.get? c.bindable = some r := by
  obtain ⟨d, _, hd⟩ := List.mem_filterMap.1 h
  obtain ⟨s, hs, heq⟩ := Option.map_eq_some_iff.1 hd
  cases heq
  exact hs

theorem boundCornerLines_degrade
    (n : Node) {corners : List (Corner × VariableRef)}
    (h : ∀ c ∈ corners, Misses reply c.2.id) :
    (boundCornerLines n corners).answer reply = .ok [] := by
  have hcorners :
      (Script.collect boundCorner corners).answer reply =
        .ok (corners.flatMap fun _ => []) := by
    refine Script.answer_collect ?_
    intro c hc
    unfold boundCorner
    simp only [Script.bind_eq_bind]
    rw [Script.answer_bind_of_ok (h c hc).resolve_answer]
    rfl
  have hnone : (corners.flatMap fun _ => ([] : List String)) = [] := by
    simp
  rw [boundCornerLines_eq, Script.answer_bind_of_ok hcorners, hnone]
  rfl

theorem boundRadius_degrades
    {n : Node} (h : ∀ id, n.Binds id → Misses reply id) :
    (boundRadius n).answer reply = .ok [] := by
  have huniform :
      ∀ r, n.attributes.bindings.get? .cornerRadius = some r → Misses reply r.id :=
    fun r hr => h r.id (.attribute hr)
  unfold boundRadius
  simp only [Script.bind_eq_bind]
  rw [Script.answer_bind_of_ok (reference_answer true huniform)]
  dsimp only
  -- One variable at all corners is resolved once, other corners one by one; both ways miss.
  cases hshared : sharedCorner? (boundCorners n.attributes.bindings) with
  | some r =>
      obtain ⟨c, hc⟩ := sharedCorner?_mem hshared
      have hr : Misses reply r.id := h r.id (.attribute (boundCorners_mem hc))
      dsimp only
      rw [Script.answer_bind_of_ok hr.resolve_answer]
      rfl
  | none =>
      refine boundCornerLines_degrade n ?_
      rintro ⟨c, r⟩ hc
      exact h r.id (.attribute (boundCorners_mem hc))

/-- A radius of which the variables are missed is written from literals. -/
theorem radiusLines_degrade
    {n : Node} (h : ∀ id, n.Binds id → Misses reply id) :
    (radiusLines true n).answer reply = (radiusLines false n).answer reply := by
  rcases ellipse_or_not n.kind with ⟨paints, radii, hn⟩ | hn
  · rw [radiusLines_ellipse true hn, radiusLines_ellipse false hn]
  · rw [radiusLines_eq true hn, radiusLines_eq false hn]
    simp only [if_true, Bool.false_eq_true, if_false, Script.done_bind]
    rw [Script.answer_bind_of_ok (boundRadius_degrades h)]
    rw [if_pos rfl]

theorem onStrokes_answer
    {n : Node} {s s' : Script (List String)}
    (h : s.answer reply = s'.answer reply) :
    (onStrokes n s).answer reply = (onStrokes n s').answer reply := by
  unfold onStrokes
  split
  · exact h
  · rfl

theorem declared_answer
    (p : Property) {s s' : Script (Option String)}
    (h : s.answer reply = s'.answer reply) :
    (s.bind fun v => .done (p.declare? v)).answer reply =
      (s'.bind fun v => .done (p.declare? v)).answer reply := by
  rw [Script.answer_bind, Script.answer_bind, h]

theorem fillLines_degrade
    {n : Node} (p : Property) (h : ∀ id, n.Binds id → Misses reply id) :
    (p.fillLines true n).answer reply = (p.fillLines false n).answer reply := by
  refine declared_answer p ?_
  unfold brushOf
  split
  · exact fillValue_degrades fun paint hpaint r hr => h r.id (.fill hpaint hr)
  · rfl

theorem borderWidthLines_degrade
    {n : Node} (h : ∀ id, n.Binds id → Misses reply id) :
    (borderWidthLines true n).answer reply = (borderWidthLines false n).answer reply := by
  refine onStrokes_answer ?_
  split
  · rfl
  · exact bound_degrades _ _ fun r hr => h r.id (.attribute hr)

/-- The brush of a stroke does not depend on a variable that is missed. -/
theorem strokeBrush_degrades
    {n : Node} {paint : Paint} (p : Property) (hpaint : paint ∈ n.kind.strokes)
    (h : ∀ id, n.Binds id → Misses reply id) :
    ((brush true paint).bind fun v => .done (p.declare? v)).answer reply =
      ((brush false paint).bind fun v => .done (p.declare? v)).answer reply := by
  have hmisses : ∀ r, paint.colorBinding = some r → Misses reply r.id :=
    fun r hr => h r.id (.stroke hpaint hr)
  exact declared_answer p ((brush_degrades true hmisses).trans (brush_degrades false hmisses).symm)

theorem borderColorLines_degrade
    {n : Node} (h : ∀ id, n.Binds id → Misses reply id) :
    (borderColorLines true n).answer reply = (borderColorLines false n).answer reply := by
  refine onStrokes_answer ?_
  split
  · rfl
  · rename_i s rest hstrokes
    refine strokeBrush_degrades borderColor ?_ h
    rw [hstrokes]
    exact List.mem_cons_self

theorem strokeLines_degrade
    {n : Node} (h : ∀ id, n.Binds id → Misses reply id) :
    (strokeLines true n).answer reply = (strokeLines false n).answer reply := by
  refine onStrokes_answer ?_
  split
  · rfl
  · rename_i s rest hstrokes
    split
    · refine strokeBrush_degrades stroke ?_ h
      rw [hstrokes]
      exact List.mem_cons_self
    · rfl

theorem strokeWidthLines_degrade
    {n : Node} (h : ∀ id, n.Binds id → Misses reply id) :
    (strokeWidthLines true n).answer reply = (strokeWidthLines false n).answer reply := by
  refine onStrokes_answer ?_
  split
  · exact bound_degrades _ _ fun r hr => h r.id (.attribute hr)
  · rfl

theorem fontWeightLines_degrade
    {n : Node} (h : ∀ id, n.Binds id → Misses reply id) :
    (fontWeightLines true n).answer reply = (fontWeightLines false n).answer reply := by
  have hweight :
      ∀ r, n.attributes.bindings.get? .fontWeight = some r → Misses reply r.id :=
    fun r hr => h r.id (.attribute hr)
  unfold fontWeightLines
  simp only [Script.bind_eq_bind]
  rw [Script.answer_bind_of_ok (reference_answer true hweight)]
  rw [Script.answer_bind_of_ok (reference_answer false hweight)]

/-- A node whose variables are missing writes each property as if they were not followed. -/
theorem lines_degrade
    {n : Node} (h : ∀ id, n.Binds id → Misses reply id) (p : Property) :
    (p.lines true n).answer reply = (p.lines false n).answer reply := by
  have hattribute :
      ∀ b r, n.attributes.bindings.get? b = some r → Misses reply r.id :=
    fun b r hr => h r.id (.attribute hr)
  have hposition :
      ∀ (q : Property) (b : Bindable) (literal : Option Binary64),
        (q.position true n b literal).answer reply =
          (q.position false n b literal).answer reply := by
    intro q b literal
    unfold position
    split
    · rfl
    · exact bound_degrades q _ (hattribute b)
  cases p with
  | x | y => exact hposition _ _ _
  | width | height | maxWidth | maxHeight | minWidth | minHeight | spacing
  | paddingLeft | paddingRight | paddingTop | paddingBottom =>
      exact bound_degrades _ _ (hattribute _)
  | alignment | opacity | fontFamily | horizontalAlignment | commands => rfl
  | borderRadius => exact radiusLines_degrade h
  | borderWidth => exact borderWidthLines_degrade h
  | borderColor => exact borderColorLines_degrade h
  | background | color | fill => exact fillLines_degrade _ h
  | text | fontSize => exact bound_degrades _ _ (hattribute _)
  | fontWeight => exact fontWeightLines_degrade h
  | stroke => exact strokeLines_degrade h
  | strokeWidth => exact strokeWidthLines_degrade h

end Property

namespace Snippet

mutual

/-- A tree whose variables are all missed has the block that it has without variables. -/
theorem block_degrades :
    ∀ {n : Node}, (∀ id, n.BindsWithin id → Misses reply id) →
      ∃ b, (block true n).answer reply = .ok b ∧ (block false n).answer reply = .ok b
  | .mk a k children, h => by
      rcases instance_or_element k with ⟨c, rfl⟩ | hk
      · exact
          ⟨_, answer_instance reply true a c children, answer_instance reply false a c children⟩
      · have hown : ∀ id, (Node.mk a k children).Binds id → Misses reply id :=
          fun id hid => h id (.here hid)
        have hlines :
            Property.contribution reply true (.mk a k children) =
              Property.contribution reply false (.mk a k children) := by
          funext p
          rw [Property.contribution_eq, Property.contribution_eq, Property.lines_degrade hown]
        have hchildren : ∀ c ∈ children, ∀ id, c.BindsWithin id → Misses reply id :=
          fun c hc id hid => h id (.child hc hid)
        obtain ⟨bs, htrue, hfalse⟩ := blocks_degrade hchildren
        refine ⟨_, answer_element true a hk htrue, ?_⟩
        rw [answer_element false a hk hfalse, hlines]

theorem blocks_degrade :
    ∀ {ns : List Node}, (∀ c ∈ ns, ∀ id, c.BindsWithin id → Misses reply id) →
      ∃ bs, (blocks true ns).answer reply = .ok bs ∧ (blocks false ns).answer reply = .ok bs
  | [], _ => ⟨[], rfl, rfl⟩
  | n :: rest, h => by
      obtain ⟨hn, hrest⟩ := List.forall_mem_cons.1 h
      obtain ⟨b, htrue, hfalse⟩ := block_degrades hn
      obtain ⟨bs, htrues, hfalses⟩ := blocks_degrade hrest
      exact ⟨b :: bs, answer_cons htrue htrues, answer_cons hfalse hfalses⟩

end

/-- The text of a tree is that of its block. -/
theorem answer_text
    {followed : Bool} {n : Node} {b : Block}
    (hb : (block followed n).answer reply = .ok b) :
    (text followed n).answer reply = .ok b.render := by
  unfold text
  simp only [Script.bind_eq_bind]
  rw [Script.answer_bind_of_ok hb]
  rfl

/-- **A scene whose variables are missing is written as if variables were not followed.** -/
theorem text_degrades
    (n : Node) (hmisses : ∀ id, n.BindsWithin id → Misses reply id) :
    ∃ t, (text true n).answer reply = .ok t ∧ (text false n).answer reply = .ok t := by
  obtain ⟨b, htrue, hfalse⟩ := block_degrades hmisses
  exact ⟨b.render, answer_text htrue, answer_text hfalse⟩

/-- A design that knows no collections misses every variable. -/
theorem misses_of_no_collections
    {t : Tables} (ht : t.collections = []) (id : String) :
    Misses t.reply id := by
  cases hid : Tables.lookup? id t.known with
  | none =>
      left
      simp [Tables.reply, hid]
  | some v =>
      right
      refine ⟨v, ?_, ?_⟩
      · simp [Tables.reply, hid]
      · simp [Tables.reply, ht, Tables.lookup?]

/-- A design that has kept a variable but lost its collection. -/
def orphans : Tables :=
  { Tables.empty with known := [("bold", ⟨"bold", "font/bold", "fonts"⟩)] }

/-- A text whose characters are bound to a variable and whose weight to another. -/
def boundLabel : Node :=
  .mk
    (.bare "2:1" "Label"
      ⟨[(.characters, ⟨"label", "VARIABLE_ALIAS"⟩), (.fontWeight, ⟨"bold", "VARIABLE_ALIAS"⟩)]⟩)
    (.text
      { characters := "Save", fills := [], fontFamily := none, fontSize := none,
        fontWeight := some .one, alignment := none }) []

/-- The label is written literally, although it binds both variables. -/
theorem text_degrades_boundLabel :
    boundLabel.BindsWithin "label" ∧ boundLabel.BindsWithin "bold" ∧
    (∀ id, boundLabel.BindsWithin id → Misses orphans.reply id) ∧
    ∃ t,
      (text true boundLabel).answer orphans.reply = .ok t ∧
      (text false boundLabel).answer orphans.reply = .ok t := by
  have hmisses : ∀ id, boundLabel.BindsWithin id → Misses orphans.reply id :=
    fun id _ => misses_of_no_collections rfl id
  refine ⟨?_, ?_, hmisses, text_degrades boundLabel hmisses⟩
  · exact .here (.attribute (b := .characters) (r := ⟨"label", "VARIABLE_ALIAS"⟩) rfl)
  · exact .here (.attribute (b := .fontWeight) (r := ⟨"bold", "VARIABLE_ALIAS"⟩) rfl)

end Snippet
end SceneMarkup
