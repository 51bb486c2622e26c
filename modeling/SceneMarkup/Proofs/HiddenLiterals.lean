import SceneMarkup.Proofs.Degradation
import SceneMarkup.Proofs.Unfollowed

/-!
# Literals behind variables

An attribute may be bound to a variable and have a literal as well. When variables are followed and
the design has the variable, no property looks at the literal: it may be missing, zero, infinite or
no number at all, and the markup is the same. What the host answers must not depend on the literal
either, though the host is given the whole node; hence the condition on hosts below.

* `SameShown`: two nodes, and the trees below them, that differ in such literals only.
* `Property.lines_shown`: each property of the two nodes is written in the same way.
* `Snippet.hidden_literals_agree`: both become one block if the host goes by identifiers.
* `Snippet.weightedArrows_differ`: with a host that looks at the literal they need not.
-/

namespace SceneMarkup

section Relations

variable (reply : (q : Query) → q.Reply) (bs : Bindings)

/-- Two values of an attribute are the same, or a variable hides them both. -/
def SameAt {α : Type} (b : Bindable) (v v' : α) : Prop :=
  v = v' ∨ Resolves reply (bs.get? b)

/-- Positions and sizes that are the same where they are shown. -/
structure Box.SameShown (v v' : Box) : Prop where
  x : SameAt reply bs .x v.x v'.x
  y : SameAt reply bs .y v.y v'.y
  width : SameAt reply bs .width v.width v'.width
  height : SameAt reply bs .height v.height v'.height
  minWidth : SameAt reply bs .minWidth v.minWidth v'.minWidth
  maxWidth : SameAt reply bs .maxWidth v.maxWidth v'.maxWidth
  minHeight : SameAt reply bs .minHeight v.minHeight v'.minHeight
  maxHeight : SameAt reply bs .maxHeight v.maxHeight v'.maxHeight

/-- Spacings and paddings that are the same where they are shown. -/
structure Arrangement.SameShown (v v' : Arrangement) : Prop where
  itemSpacing : SameAt reply bs .itemSpacing v.itemSpacing v'.itemSpacing
  align : v.align = v'.align
  paddingLeft : SameAt reply bs .paddingLeft v.paddingLeft v'.paddingLeft
  paddingRight : SameAt reply bs .paddingRight v.paddingRight v'.paddingRight
  paddingTop : SameAt reply bs .paddingTop v.paddingTop v'.paddingTop
  paddingBottom : SameAt reply bs .paddingBottom v.paddingBottom v'.paddingBottom

/-- Attributes that are the same where they are shown. -/
structure Attributes.SameShown (a a' : Attributes) : Prop where
  id : a.id = a'.id
  name : a.name = a'.name
  parentType : a.parentType = a'.parentType
  box : Box.SameShown reply a.bindings a.box a'.box
  arrangement : Arrangement.SameShown reply a.bindings a.arrangement a'.arrangement
  opacity : a.opacity = a'.opacity
  bindings : a.bindings = a'.bindings

/-- Fills that are the same, or of which the first visible one is solid and has its color and its
opacity hidden. -/
inductive FillsSameShown : List Paint → List Paint → Prop
  | same (fills : List Paint) : FillsSameShown fills fills
  | first {before after : List Paint} {p : Paint} (color : Option Color) (opacity : Binary64) :
      (∀ q ∈ before, q.visible = false) →
      p.visible = true →
      p.type = "SOLID" →
      Resolves reply p.colorBinding →
      FillsSameShown (before ++ p :: after)
        (before ++ { p with color := color, opacity := opacity } :: after)

/-- Strokes that are the same, or of which the first one has its color and its opacity hidden. -/
inductive StrokesSameShown : List Paint → List Paint → Prop
  | same (strokes : List Paint) : StrokesSameShown strokes strokes
  | first {p : Paint} {rest : List Paint} (color : Option Color) (opacity : Binary64) :
      Resolves reply p.colorBinding →
      StrokesSameShown (p :: rest) ({ p with color := color, opacity := opacity } :: rest)

/-- Paints that are the same where they are shown. -/
structure Paints.SameShown (v v' : Paints) : Prop where
  fills : FillsSameShown reply v.fills v'.fills
  strokes : StrokesSameShown reply v.strokes v'.strokes
  strokeWeight : SameAt reply bs .strokeWeight v.strokeWeight v'.strokeWeight

/-- Texts that are the same where they are shown. -/
structure TextContent.SameShown (v v' : TextContent) : Prop where
  characters : SameAt reply bs .characters v.characters v'.characters
  fills : FillsSameShown reply v.fills v'.fills
  fontFamily : v.fontFamily = v'.fontFamily
  fontSize : SameAt reply bs .fontSize v.fontSize v'.fontSize
  fontWeight : SameAt reply bs .fontWeight v.fontWeight v'.fontWeight
  alignment : v.alignment = v'.alignment

/-- Kinds that are the same where they are shown. The variable of the radius for all corners hides
the radii of single corners as well. -/
inductive Kind.SameShown : Kind → Kind → Prop
  | same (k : Kind) : Kind.SameShown k k
  | shape {form : Shape} {paints paints' : Paints} {radii radii' : Radii} :
      paints.SameShown reply bs paints' →
      SameAt reply bs .cornerRadius radii radii' →
      Kind.SameShown (.shape form paints radii) (.shape form paints' radii')
  | text {content content' : TextContent} :
      content.SameShown reply bs content' →
      Kind.SameShown (.text content) (.text content')
  | path {form : Stroke} {paints paints' : Paints} :
      paints.SameShown reply bs paints' →
      Kind.SameShown (.path form paints) (.path form paints')

end Relations

namespace Node

/-- Two nodes without the trees below them are the same where they are shown. -/
structure OwnSameShown (reply : (q : Query) → q.Reply) (n n' : Node) : Prop where
  attributes : n.attributes.SameShown reply n'.attributes
  kind : n.kind.SameShown reply n.attributes.bindings n'.kind

mutual

/-- Two trees of equal shape have nodes that are the same where they are shown. -/
inductive SameShown (reply : (q : Query) → q.Reply) : Node → Node → Prop
  | mk {a a' : Attributes} {k k' : Kind} {children children' : List Node} :
      OwnSameShown reply (.mk a k children) (.mk a' k' children') →
      SameShownAll reply children children' →
      SameShown reply (.mk a k children) (.mk a' k' children')

/-- The same for rows of trees. -/
inductive SameShownAll (reply : (q : Query) → q.Reply) : List Node → List Node → Prop
  | nil : SameShownAll reply [] []
  | cons {n n' : Node} {ns ns' : List Node} :
      SameShown reply n n' → SameShownAll reply ns ns' → SameShownAll reply (n :: ns) (n' :: ns')

end

end Node

variable {reply : (q : Query) → q.Reply}

theorem Box.SameShown.refl (bs : Bindings) (v : Box) : v.SameShown reply bs v :=
  ⟨.inl rfl, .inl rfl, .inl rfl, .inl rfl, .inl rfl, .inl rfl, .inl rfl, .inl rfl⟩

theorem Arrangement.SameShown.refl (bs : Bindings) (v : Arrangement) : v.SameShown reply bs v :=
  ⟨.inl rfl, rfl, .inl rfl, .inl rfl, .inl rfl, .inl rfl⟩

theorem Attributes.SameShown.refl (a : Attributes) : a.SameShown reply a :=
  ⟨rfl, rfl, rfl, .refl _ _, .refl _ _, rfl, rfl⟩

mutual

/-- A tree shows the same as itself. -/
theorem Node.SameShown.refl : ∀ n : Node, n.SameShown reply n
  | .mk a k children => .mk ⟨.refl a, .same k⟩ (SameShownAll.refl children)

theorem Node.SameShownAll.refl : ∀ ns : List Node, SameShownAll reply ns ns
  | [] => .nil
  | n :: ns => .cons (SameShown.refl n) (SameShownAll.refl ns)

end

namespace StrokesSameShown

variable {strokes strokes' : List Paint}

theorem isEmpty_eq (h : StrokesSameShown reply strokes strokes') :
    strokes.isEmpty = strokes'.isEmpty := by
  cases h <;> rfl

/-- Strokes that show the same are visible alike. -/
theorem any_visible_eq (h : StrokesSameShown reply strokes strokes') :
    strokes.any (·.visible) = strokes'.any (·.visible) := by
  cases h <;> rfl

end StrokesSameShown

namespace Kind.SameShown

variable {bs : Bindings} {k k' : Kind}

theorem nodeClass_eq (h : k.SameShown reply bs k') : k.nodeClass = k'.nodeClass := by
  cases h <;> rfl

theorem hasFills_eq (h : k.SameShown reply bs k') : k.hasFills = k'.hasFills := by
  cases h <;> rfl

theorem hasStrokes_eq (h : k.SameShown reply bs k') : k.hasStrokes = k'.hasStrokes := by
  cases h <;> rfl

/-- Of kinds that show the same, the fills do. -/
theorem fills (h : k.SameShown reply bs k') : FillsSameShown reply k.fills k'.fills := by
  cases h with
  | same => exact .same _
  | shape hpaints _ => exact hpaints.fills
  | text hcontent => exact hcontent.fills
  | path hpaints => exact hpaints.fills

theorem strokes (h : k.SameShown reply bs k') : StrokesSameShown reply k.strokes k'.strokes := by
  cases h with
  | same => exact .same _
  | shape hpaints _ => exact hpaints.strokes
  | text => exact .same _
  | path hpaints => exact hpaints.strokes

/-- Of kinds that show the same, the weight of strokes is the same or its variable is there. -/
theorem strokeWeight (h : k.SameShown reply bs k') :
    SameAt reply bs .strokeWeight k.strokeWeight k'.strokeWeight := by
  cases h with
  | same => exact .inl rfl
  | shape hpaints _ => exact hpaints.strokeWeight
  | text => exact .inl rfl
  | path hpaints => exact hpaints.strokeWeight

/-- Of kinds that show the same, the radii are the same or the variable for all corners is there. -/
theorem radii (h : k.SameShown reply bs k') : SameAt reply bs .cornerRadius k.radii? k'.radii? := by
  cases h with
  | same => exact .inl rfl
  | shape _ hradii => exact hradii.imp_left (congrArg some)
  | text => exact .inl rfl
  | path => exact .inl rfl

theorem drawnForm_eq (h : k.SameShown reply bs k') :
    Property.drawnForm k = Property.drawnForm k' := by
  cases h with
  | same | shape | text => rfl
  | @path form => cases form <;> rfl

theorem keyword_eq (h : k.SameShown reply bs k') : Snippet.keyword k = Snippet.keyword k' := by
  cases h <;> rfl

theorem remark_eq (h : k.SameShown reply bs k') : Snippet.remark k = Snippet.remark k' := by
  cases h <;> rfl

/-- An instance shows the same as an instance of the same component only. -/
theorem instanceOf {c : Option String} (h : Kind.SameShown reply bs (.instanceOf c) k') :
    k' = .instanceOf c := by
  cases h
  rfl

theorem ne_instanceOf (h : k.SameShown reply bs k') (hk : ∀ c, k ≠ .instanceOf c) :
    ∀ c, k' ≠ .instanceOf c := by
  cases h with
  | same => exact hk
  | shape | text | path => rintro _ ⟨⟩

theorem ellipse {paints : Paints} {radii : Radii}
    (h : Kind.SameShown reply bs (.shape .ellipse paints radii) k') :
    ∃ paints' radii', k' = .shape .ellipse paints' radii' := by
  cases h with
  | same => exact ⟨paints, radii, rfl⟩
  | shape => exact ⟨_, _, rfl⟩

theorem ne_ellipse
    (h : k.SameShown reply bs k') (hk : ∀ paints radii, k ≠ .shape .ellipse paints radii) :
    ∀ paints radii, k' ≠ .shape .ellipse paints radii := by
  cases h with
  | same => exact hk
  | shape =>
      rintro paints radii ⟨⟩
      exact hk _ _ rfl
  | text | path => rintro _ _ ⟨⟩

end Kind.SameShown

/-- Nodes that show the same of their own are instances of one component, or none of them is an
instance. -/
theorem Node.OwnSameShown.componentId?_eq {n n' : Node} (h : n.OwnSameShown reply n') :
    n.componentId? = n'.componentId? := by
  have hkind := h.kind
  unfold Node.componentId?
  generalize n.kind = k, n'.kind = k' at hkind ⊢
  cases hkind <;> rfl

/-- A binding that resolves is a reference, so that no literal is looked at. -/
theorem Resolves.reference_answer {binding : Option VariableRef} (h : Resolves reply binding) :
    ∃ path, (Property.reference true binding).answer reply = .ok (some path) := by
  obtain ⟨r, path, rfl, hfinds⟩ := h
  exact ⟨path, hfinds.resolve_answer⟩

namespace Property

/-- What follows a binding without a variable does not matter where the variable is there. -/
theorem reference_shown
    {α : Type} {binding : Option VariableRef} {k k' : Option String → Script α}
    (hsome : ∀ path, k (some path) = k' (some path))
    (hnone : k none = k' none ∨ Resolves reply binding) :
    ((reference true binding).bind k).answer reply =
      ((reference true binding).bind k').answer reply := by
  rcases hnone with hnone | hresolves
  · have hsame : k = k' := by
      funext found
      cases found with
      | none => exact hnone
      | some path => exact hsome path
    rw [hsame]
  · obtain ⟨path, hpath⟩ := hresolves.reference_answer
    rw [Script.answer_bind_of_ok hpath, Script.answer_bind_of_ok hpath, hsome]

/-- A literal behind a variable does not matter. -/
theorem bound_shown
    (p : Property) {binding : Option VariableRef} {literal literal' : Script (Option String)}
    (h : literal = literal' ∨ Resolves reply binding) :
    (p.bound true binding literal).answer reply = (p.bound true binding literal').answer reply :=
  reference_shown (fun _ => rfl) (h.imp_left fun hliteral => by rw [hliteral])

/-- A color behind a variable does not matter. -/
theorem brush_shown {p p' : Paint} (h : Resolves reply p.colorBinding)
    (hbinding : p'.colorBinding = p.colorBinding) :
    (brush true p).answer reply = (brush true p').answer reply := by
  unfold brush
  rw [hbinding]
  exact reference_shown (fun _ => rfl) (.inr h)

/-- Fills that show the same have the same value. -/
theorem fillValue_shown {fills fills' : List Paint} (h : FillsSameShown reply fills fills') :
    (fillValue true fills).answer reply = (fillValue true fills').answer reply := by
  cases h with
  | same => rfl
  | @first before after p color opacity hbefore hvisible htype hresolves =>
      have hfirst : ∀ q : Paint, q.visible = true →
          Paint.firstVisible? (before ++ q :: after) = some q := by
        intro q hq
        have hnone : before.find? (·.visible) = none :=
          List.find?_eq_none.2 fun r hr => by simp [hbefore r hr]
        rw [Paint.firstVisible?, List.find?_append, hnone, Option.none_or,
          List.find?_cons_of_pos hq]
      have hsolid : (true && p.type == "SOLID") = true := by simp [htype]
      unfold fillValue
      rw [hfirst p hvisible, hfirst { p with color := color, opacity := opacity } hvisible]
      dsimp only
      rw [hsolid]
      exact brush_shown hresolves rfl

section Nodes

variable {n n' : Node} (h : n.OwnSameShown reply n')
include h

/-- What is lacking is named by the class, which is the same. -/
theorem lacking_shown {α : Type} (field : String) :
    (lacking n field : Script α) = lacking n' field := by
  rw [lacking, lacking, h.kind.nodeClass_eq]

/-- A bound property is written alike if its literals are the same or its variable is there. -/
theorem attribute_shown {p : Property} {b : Bindable} {literal literal' : Script (Option String)}
    (hliteral : literal = literal' ∨ Resolves reply (n.attributes.bindings.get? b)) :
    (p.bound true (n.attributes.bindings.get? b) literal).answer reply =
      (p.bound true (n'.attributes.bindings.get? b) literal').answer reply := by
  rw [← h.attributes.bindings]
  exact bound_shown p hliteral

theorem position_shown {p : Property} {b : Bindable} {v v' : Option Binary64}
    (hv : SameAt reply n.attributes.bindings b v v') :
    (p.position true n b v).answer reply = (p.position true n' b v').answer reply := by
  have hroot : n'.attributes.isRootChild = n.attributes.isRootChild := by
    rw [Attributes.isRootChild, Attributes.isRootChild, h.attributes.parentType]
  unfold position
  rw [hroot]
  split
  · rfl
  · exact attribute_shown h (hv.imp_left (congrArg pixelsOrZero))

theorem length_shown {p : Property} {b : Bindable} {v v' : Option Binary64}
    (hv : SameAt reply n.attributes.bindings b v v') :
    (p.length true n b v).answer reply = (p.length true n' b v').answer reply :=
  attribute_shown h (hv.imp_left (congrArg pixels))

/-- Literal radii are written from the radii and from nothing else. -/
theorem literalRadius_shown (hradii : n.kind.radii? = n'.kind.radii?) :
    literalRadius n = literalRadius n' := by
  unfold literalRadius
  rw [hradii, lacking_shown h]

/-- Bound radii look at the radii for what is dropped only. -/
theorem boundRadius_shown (hradii : n.kind.radii? = n'.kind.radii?) :
    boundRadius n = boundRadius n' := by
  have hname : n.name = n'.name := h.attributes.name
  have hid : n.id = n'.id := h.attributes.id
  have hreport : reportDropped n = reportDropped n' := by
    simp only [reportDropped, hradii, hname, hid, h.attributes.bindings, lacking_shown h]
  unfold boundRadius boundCornerLines
  rw [hreport, h.attributes.bindings]

/-- The radius is written alike: if the literal radii differ, the variable for all corners is
there. -/
theorem radiusLines_shown :
    (radiusLines true n).answer reply = (radiusLines true n').answer reply := by
  have hkind := h.kind
  rcases ellipse_or_not n.kind with ⟨paints, radii, hn⟩ | hn
  · rw [hn] at hkind
    obtain ⟨paints', radii', hn'⟩ := hkind.ellipse
    rw [radiusLines_ellipse true hn, radiusLines_ellipse true hn']
  · rw [radiusLines_eq true hn, radiusLines_eq true (hkind.ne_ellipse hn), if_pos rfl, if_pos rfl]
    rcases hkind.radii with hradii | hresolves
    · rw [boundRadius_shown h hradii, literalRadius_shown h hradii]
    · -- The variable gives the line for all corners before any radius is looked at.
      obtain ⟨path, hpath⟩ := hresolves.reference_answer
      have hbound : ∀ m : Node, m.attributes.bindings = n.attributes.bindings →
          (boundRadius m).answer reply = .ok [declaration borderRadius.name path] := by
        intro m hm
        unfold boundRadius
        simp only [Script.bind_eq_bind]
        rw [hm, Script.answer_bind_of_ok hpath]
        rfl
      rw [Script.answer_bind_of_ok (hbound n rfl),
        Script.answer_bind_of_ok (hbound n' h.attributes.bindings.symm)]
      rfl

theorem fillLines_shown (p : Property) :
    (p.fillLines true n).answer reply = (p.fillLines true n').answer reply := by
  refine declared_answer p ?_
  unfold brushOf
  rw [h.kind.hasFills_eq]
  split
  · exact fillValue_shown h.kind.fills
  · rw [lacking_shown h]

/-- A property of strokes is written alike if what it writes is. -/
theorem onStrokes_shown {s s' : Script (List String)} (hs : s.answer reply = s'.answer reply) :
    (onStrokes n s).answer reply = (onStrokes n' s').answer reply := by
  unfold onStrokes
  rw [h.kind.hasStrokes_eq]
  split
  · exact hs
  · rw [lacking_shown h]

theorem borderWidthLines_shown :
    (borderWidthLines true n).answer reply = (borderWidthLines true n').answer reply := by
  refine onStrokes_shown h ?_
  rw [h.kind.strokes.isEmpty_eq]
  split
  · rfl
  · exact length_shown h h.kind.strokeWeight

theorem borderColorLines_shown :
    (borderColorLines true n).answer reply = (borderColorLines true n').answer reply := by
  have hstrokes := h.kind.strokes
  refine onStrokes_shown h ?_
  generalize n.kind.strokes = strokes, n'.kind.strokes = strokes' at hstrokes ⊢
  cases hstrokes with
  | same => rfl
  | first color opacity hresolves => exact declared_answer borderColor (brush_shown hresolves rfl)

theorem strokeLines_shown :
    (strokeLines true n).answer reply = (strokeLines true n').answer reply := by
  have hstrokes := h.kind.strokes
  refine onStrokes_shown h ?_
  generalize n.kind.strokes = strokes, n'.kind.strokes = strokes' at hstrokes ⊢
  cases hstrokes with
  | same => rfl
  | @first p rest color opacity hresolves =>
      dsimp only
      split
      · exact declared_answer stroke (brush_shown hresolves rfl)
      · rfl

theorem strokeWidthLines_shown :
    (strokeWidthLines true n).answer reply = (strokeWidthLines true n').answer reply := by
  refine onStrokes_shown h ?_
  rw [h.kind.strokes.any_visible_eq]
  split
  · exact attribute_shown h (h.kind.strokeWeight.imp_left (congrArg pixelsOrZero))
  · rfl

/-- What is read from the content of a text is the same, apart from an exception. -/
theorem ofContent_shown
    {α : Type} {P : Prop} {f : TextContent → Script α} (field : String)
    (hf : ∀ content content', content.SameShown reply n.attributes.bindings content' →
      f content = f content' ∨ P) :
    ofContent n field f = ofContent n' field f ∨ P := by
  have hkind := h.kind
  have hlacking := lacking_shown h (α := α) field
  unfold ofContent
  generalize n.kind = k, n'.kind = k' at hkind ⊢
  cases hkind with
  | same =>
      left
      split
      · rfl
      · exact hlacking
  | text hcontent => exact hf _ _ hcontent
  | shape => exact .inl hlacking
  | path => exact .inl hlacking

theorem fontWeightLines_shown :
    (fontWeightLines true n).answer reply = (fontWeightLines true n').answer reply := by
  unfold fontWeightLines
  rw [← h.attributes.bindings]
  refine reference_shown (fun _ => rfl) (ofContent_shown h "font_weight" ?_)
  intro content content' hcontent
  refine hcontent.fontWeight.imp_left ?_
  intro hweight
  rw [hweight]

/-- The commands of a path are written alike, since a host that goes by identifiers has one drawing
for both. -/
theorem commandLines_shown
    {component : Option String → String → Except HostFault (Option MainComponent)}
    {drawing : Option String → String → Except HostFault String}
    (hhost : (Host.constant reply).AnswersByIds component drawing) :
    (commandLines n).answer reply = (commandLines n').answer reply := by
  have hid : n.id = n'.id := h.attributes.id
  have hreply : (reply (.drawingOf n) : Except HostFault String) = reply (.drawingOf n') := by
    refine (hhost.drawing_eq n ()).trans ?_
    rw [h.componentId?_eq, hid]
    exact (hhost.drawing_eq n' ()).symm
  have hafter : ∀ r : Except HostFault String,
      (afterDrawing n r).answer reply = (afterDrawing n' r).answer reply := by
    rintro (f | svg)
    · rfl
    · simp only [afterDrawing, h.kind.drawnForm_eq]
      split
      · rfl
      · rfl
  rw [commandLines_eq, commandLines_eq, Script.answer_ask, Script.answer_ask]
  refine (hafter (reply (.drawingOf n))).trans ?_
  exact congrArg (fun r : Except HostFault String => (afterDrawing n' r).answer reply) hreply

/-- A property is written as in the other node, whatever is hidden. -/
theorem lines_shown
    {component : Option String → String → Except HostFault (Option MainComponent)}
    {drawing : Option String → String → Except HostFault String}
    (hhost : (Host.constant reply).AnswersByIds component drawing) (p : Property) :
    (p.lines true n).answer reply = (p.lines true n').answer reply := by
  have hbox := h.attributes.box
  have harrangement := h.attributes.arrangement
  cases p with
  | x => exact position_shown h hbox.x
  | y => exact position_shown h hbox.y
  | width => exact length_shown h (hbox.width.imp_left (congrArg some))
  | height => exact length_shown h (hbox.height.imp_left (congrArg some))
  | maxWidth => exact length_shown h hbox.maxWidth
  | maxHeight => exact length_shown h hbox.maxHeight
  | minWidth => exact length_shown h hbox.minWidth
  | minHeight => exact length_shown h hbox.minHeight
  | spacing => exact length_shown h harrangement.itemSpacing
  | paddingLeft => exact length_shown h harrangement.paddingLeft
  | paddingRight => exact length_shown h harrangement.paddingRight
  | paddingTop => exact length_shown h harrangement.paddingTop
  | paddingBottom => exact length_shown h harrangement.paddingBottom
  | alignment =>
      simp only [lines, harrangement.align]
  | opacity =>
      simp only [lines, opacityLines, h.attributes.opacity]
  | borderRadius => exact radiusLines_shown h
  | borderWidth => exact borderWidthLines_shown h
  | borderColor => exact borderColorLines_shown h
  | background | color | fill => exact fillLines_shown h _
  | text =>
      refine attribute_shown h (ofContent_shown h "characters" ?_)
      intro content content' hcontent
      refine hcontent.characters.imp_left ?_
      intro hcharacters
      rw [hcharacters]
  | fontFamily =>
      refine congrArg _ ((ofContent_shown h "font_family" ?_).resolve_right id)
      intro content content' hcontent
      left
      rw [hcontent.fontFamily]
  | fontSize =>
      refine attribute_shown h (ofContent_shown h "font_size" ?_)
      intro content content' hcontent
      refine hcontent.fontSize.imp_left ?_
      intro hsize
      rw [hsize]
  | fontWeight => exact fontWeightLines_shown h
  | horizontalAlignment =>
      refine congrArg _ ((ofContent_shown h "text_align_horizontal" ?_).resolve_right id)
      intro content content' hcontent
      left
      rw [hcontent.alignment]
  | commands => exact commandLines_shown h hhost
  | stroke => exact strokeLines_shown h
  | strokeWidth => exact strokeWidthLines_shown h

end Nodes
end Property

namespace Snippet

open Node (SameShown SameShownAll)

variable
  {component : Option String → String → Except HostFault (Option MainComponent)}
  {drawing : Option String → String → Except HostFault String}

mutual

/-- Trees that show the same have one block. -/
theorem block_shown (hhost : (Host.constant reply).AnswersByIds component drawing) :
    ∀ {n n' : Node}, SameShown reply n n' →
      ∃ b, (block true n).answer reply = .ok b ∧ (block true n').answer reply = .ok b
  | _, _, @SameShown.mk _ a a' k k' children children' hown hchildren => by
      have hkind : k.SameShown reply a.bindings k' := hown.kind
      have hname : a.name = a'.name := hown.attributes.name
      rcases instance_or_element k with ⟨c, rfl⟩ | hk
      · obtain rfl := hkind.instanceOf
        have hreply :
            (reply (.componentOf (.mk a (.instanceOf c) children)) :
              Except HostFault (Option MainComponent)) =
            reply (.componentOf (.mk a' (.instanceOf c) children')) := by
          refine (hhost.component_eq _ ()).trans ?_
          rw [hown.componentId?_eq, Node.id, hown.attributes.id]
          exact (hhost.component_eq _ ()).symm
        refine ⟨_, answer_instance reply true a c children, ?_⟩
        rw [answer_instance reply true a' c children', hname]
        exact congrArg (fun r : Except HostFault (Option MainComponent) =>
          Except.ok (blockOfComponent a'.name r.toOption.join)) hreply.symm
      · obtain ⟨bs, hbs, hbs'⟩ := blocks_shown hhost hchildren
        refine ⟨_, answer_element true a hk hbs, ?_⟩
        have hlines : Property.contribution reply true (.mk a k children) =
            Property.contribution reply true (.mk a' k' children') := by
          funext p
          rw [Property.contribution_eq, Property.contribution_eq, Property.lines_shown hown hhost]
        rw [answer_element true a' (hkind.ne_instanceOf hk) hbs', hlines, hkind.nodeClass_eq,
          hkind.keyword_eq, hkind.remark_eq, hname]

/-- Rows of trees that show the same have one row of blocks. -/
theorem blocks_shown (hhost : (Host.constant reply).AnswersByIds component drawing) :
    ∀ {ns ns' : List Node}, SameShownAll reply ns ns' →
      ∃ bs, (blocks true ns).answer reply = .ok bs ∧ (blocks true ns').answer reply = .ok bs
  | _, _, .nil => ⟨[], rfl, rfl⟩
  | _, _, .cons hhead hrest => by
      obtain ⟨b, hb, hb'⟩ := block_shown hhost hhead
      obtain ⟨bs, hbs, hbs'⟩ := blocks_shown hhost hrest
      exact ⟨b :: bs, answer_cons hb hbs, answer_cons hb' hbs'⟩

end

/-- **A variable hides the literal behind it.** If the host goes by identifiers in what it answers
about nodes, two scenes that are the same up to such literals become one block, whatever the
literals are. -/
theorem hidden_literals_agree
    (hhost : (Host.constant reply).AnswersByIds component drawing) {n n' : Node}
    (h : SameShown reply n n') :
    ∃ b, (block true n).answer reply = .ok b ∧ (block true n').answer reply = .ok b :=
  block_shown hhost h

/-- A design with a length and a color. -/
def palette : Tables :=
  { Tables.empty with
    known := [("size", ⟨"size", "space/base", "theme"⟩), ("ink", ⟨"ink", "ink", "theme"⟩)]
    collections := [("theme", ⟨"theme", "Theme", []⟩)] }

/-- The host of the examples has a size and an ink. -/
theorem palette_resolves {id : String} (hid : id = "size" ∨ id = "ink") (type : String) :
    Resolves palette.reply (some ⟨id, type⟩) := by
  rcases hid with rfl | rfl
  · exact ⟨_, _, rfl, _, _, rfl, rfl, rfl⟩
  · exact ⟨_, _, rfl, _, _, rfl, rfl, rfl⟩

/-- A badge with a caption and an arrow. Its width, its radius, its color and the size of the
caption are bound, and have literals as well. -/
def badge (width : Binary64) (radii : Radii) (opacity : Binary64) (fontSize : Option Binary64) :
    Node :=
  .mk
    { Attributes.bare "1:1" "Badge"
        ⟨[(.width, ⟨"size", "VARIABLE_ALIAS"⟩), (.cornerRadius, ⟨"size", "VARIABLE_ALIAS"⟩)]⟩ with
      box := ⟨none, none, width, .one, none, none, none, none⟩ }
    (.shape .rectangle
      { fills := [⟨"SOLID", true, opacity, none, none, none, some ⟨"ink", "VARIABLE_ALIAS"⟩⟩]
        strokes := []
        strokeWeight := none } radii)
    [.mk (.bare "1:2" "Caption" ⟨[(.fontSize, ⟨"size", "VARIABLE_ALIAS"⟩)]⟩)
      (.text ⟨"New", [], none, fontSize, none, none⟩) [], plainArrow]

/-- Badges show the same whatever literals stand beside their variables. -/
theorem badge_sameShown
    (width width' : Binary64) (radii radii' : Radii) (opacity opacity' : Binary64)
    (size size' : Option Binary64) :
    SameShown palette.reply
      (badge width radii opacity size) (badge width' radii' opacity' size') := by
  have hsize := palette_resolves (.inl rfl) "VARIABLE_ALIAS"
  have hink := palette_resolves (.inr rfl) "VARIABLE_ALIAS"
  have hcaption : ∀ {a : Attributes} {k k' : Kind},
      Kind.SameShown palette.reply a.bindings k k' →
      SameShown palette.reply (.mk a k []) (.mk a k' []) :=
    fun h => .mk ⟨.refl _, h⟩ .nil
  refine .mk ⟨⟨rfl, rfl, rfl, ?_, .refl _ _, rfl, rfl⟩, ?_⟩
    (.cons (hcaption ?_) (.cons (.refl _) .nil))
  · exact ⟨.inl rfl, .inl rfl, .inr hsize, .inl rfl, .inl rfl, .inl rfl, .inl rfl, .inl rfl⟩
  · refine .shape ⟨?_, .same _, .inl rfl⟩ (.inr hsize)
    exact @FillsSameShown.first _ [] _ _ none opacity' (List.forall_mem_nil _) rfl rfl hink
  · exact .text ⟨.inl rfl, .same _, rfl, .inr hsize, .inl rfl, rfl⟩

/-- Without a number and with infinite or missing literals the badge is the same. -/
theorem hidden_literals_agree_badge :
    (Host.constant palette.reply).AnswersByIds (componentIn palette) (drawingIn palette) ∧
      badge .nan ⟨some (.infinite false), none, none, none, none⟩ .nan none ≠
        badge .one ⟨none, some .one, some .one, some .one, some .one⟩ .one (some (.zero false)) ∧
      ∃ b,
        (block true (badge .nan ⟨some (.infinite false), none, none, none, none⟩ .nan none)).answer
          palette.reply = .ok b ∧
        (block true (badge .one ⟨none, some .one, some .one, some .one, some .one⟩ .one
          (some (.zero false)))).answer palette.reply = .ok b := by
  refine ⟨tables_answerByIds palette, ?_, ?_⟩
  · intro h
    have hwidth := congrArg (fun n => n.attributes.box.width) h
    cases hwidth
  · exact hidden_literals_agree (tables_answerByIds palette) (badge_sameShown _ _ _ _ _ _ _ _)

/-- A host with the variables of the design. It draws an arrow only if its stroke has a weight of
its own. -/
def weighing : (q : Query) → q.Reply
  | .drawingOf n => .ok (if n.kind.strokeWeight.isSome then "<svg><path d='M0 0'/></svg>" else "")
  | q => palette.reply q

/-- An arrow whose stroke has its weight bound, and perhaps a literal one as well. -/
def weightedArrow (weight : Option Binary64) : Node :=
  .mk (.bare "3:1" "Arrow" ⟨[(.strokeWeight, ⟨"size", "VARIABLE_ALIAS"⟩)]⟩)
    (.path .vector ⟨[], [⟨"SOLID", true, .one, none, none, none, none⟩], weight⟩) []

/-- A host that is given the node may look behind the variable itself. The two arrows differ in a
hidden literal only, and their blocks differ in the drawing. -/
theorem weightedArrows_differ :
    SameShown weighing (weightedArrow (some .one)) (weightedArrow none) ∧
      ∃ b b', (block true (weightedArrow (some .one))).answer weighing = .ok b ∧
        (block true (weightedArrow none)).answer weighing = .ok b' ∧ b ≠ b' := by
  have hsize : Resolves weighing (some ⟨"size", "VARIABLE_ALIAS"⟩) :=
    ⟨_, _, rfl, _, _, rfl, rfl, rfl⟩
  have hshown : SameShown weighing (weightedArrow (some .one)) (weightedArrow none) :=
    .mk ⟨.refl _, .path ⟨.same _, .same _, .inr hsize⟩⟩ .nil
  have hdiffer :
      ((block true (weightedArrow (some .one))).answer weighing).toOption.map Block.properties ≠
        ((block true (weightedArrow none)).answer weighing).toOption.map Block.properties := by
    decide +kernel
  have hblock : ∀ n, ∃ b, (block true n).answer weighing = .ok b := by
    intro n
    obtain ⟨b, hb, -⟩ := (block_always_mirrors true n).run (Host.constant weighing) ()
    exact ⟨b, hb⟩
  obtain ⟨b, hb⟩ := hblock (weightedArrow (some .one))
  obtain ⟨b', hb'⟩ := hblock (weightedArrow none)
  refine ⟨hshown, b, b', hb, hb', ?_⟩
  rintro rfl
  exact hdiffer (by rw [hb, hb'])

end Snippet
end SceneMarkup
