import SceneMarkup.Proofs.Inline
import SceneMarkup.Proofs.Mirroring

/-!
# What properties write

The lines of a property follow a small grammar (`Property.Writes`): nothing, one declaration, the
declarations of some corners, or a remark. The only free part is what a fault says. So the grammar
has the messages of faults as a parameter `Q`, which must allow every text without a line break
since that is what the faults of the program itself say.

* `Property.lines_ends`: against a host whose faults are in `Q`, the script of every property ends
  in lines of the grammar or in a fault in `Q`.
* `Property.contained_ends`: when faults are contained, only lines of the grammar are left.
* `Snippet.block_ends`: the same of all nodes of a scene, as a relation `Snippet.Fits` between a
  node and its block.
-/

namespace SceneMarkup

open Script (ends_done ends_fail ends_ask)

variable {α : Type} {Q : String → Prop} {followed : Bool} {n : Node}

/-- There is nothing, or a text without a line break. -/
def Inlines (o : Option String) : Prop := ∀ v, o = some v → Inline v

namespace Script

variable {post : α → Prop}

/-- A result is a result, and a fault says what it says. -/
theorem ends_ofExcept
    {r : Except Fault α}
    (hok : ∀ a, r = .ok a → post a) (herror : ∀ f, r = .error f → Q f.message) :
    (ofExcept r).Ends Q post := by
  cases r with
  | ok a => exact ends_done (hok a rfl)
  | error f => exact ends_fail (herror f rfl)

/-- A number without a written form faults with a message of one line. -/
theorem ends_ofNumber
    (hQ : ∀ s, Inline s → Q s)
    {r : Except NumberFault α} (hok : ∀ a, r = .ok a → post a) :
    (ofNumber r).Ends Q post := by
  cases r with
  | ok a => exact ends_done (hok a rfl)
  | error f => exact ends_fail (hQ _ f.message_inline)

end Script

/-- The path to a variable is a value, whatever the variable and its collection are called. -/
theorem Reference.resolve_ends (id : String) :
    (resolve id).Ends Q fun path => ∀ v, path = some v → IsValue v := by
  rw [← Script.bind_done (resolve id), resolve_bind]
  refine ends_ask ?_
  rintro (f | _ | v) hvariable
  · exact ends_fail (hvariable nofun f rfl)
  · exact ends_done nofun
  · refine ends_ask ?_
    rintro (f | _ | c) hcollection
    · exact ends_fail (hcollection nofun f rfl)
    · exact ends_done nofun
    · refine ends_done ?_
      rintro _ ⟨⟩
      exact path_isValue c v

namespace Property

/-- The lines of one corner: nothing or one declaration. -/
inductive WritesCorner : Corner → List String → Prop
  | nothing {c : Corner} : WritesCorner c []
  | declared {c : Corner} {v : String} : IsValue v → WritesCorner c [declaration c.name v]

/-- The lines of one property. -/
inductive Writes (Q : String → Prop) : Property → List String → Prop
  | nothing {p : Property} : Writes Q p []
  | declared {p : Property} {v : String} : IsValue v → Writes Q p [declaration p.name v]
  /-- Radii may be declared corner by corner, each corner at most once and in order. -/
  | corners {rows : List (Corner × String)} :
      (rows.map (·.1)).Sublist Corner.all →
      (∀ row ∈ rows, IsValue row.2) →
      Writes Q borderRadius (rows.map fun row => declaration row.1.name row.2)
  | justified :
      Writes Q horizontalAlignment
        [declaration horizontalAlignment.name "left" ++ " " ++ justifiedNote]
  | notDrawn {message : String} :
      Q message → Writes Q commands ["// Error exporting SVG: " ++ message]
  | noCommands {svg : String} :
      Writes Q commands
        ["// Could not extract path commands from SVG", "// " ++ Text.singleLine svg]
  | stopped {p : Property} {f : Fault} : Q f.message → Writes Q p [p.faultRemark f]

/-- A value that is there is declared, and one that is not leaves nothing. -/
theorem declare?_writes {p : Property} {value : Option String} (h : Inlines value) :
    Writes Q p (p.declare? value) := by
  cases value with
  | none => exact .nothing
  | some v =>
      by_cases hempty : v = ""
      · simpa [declare?, hempty] using Writes.nothing
      · simpa [declare?, hempty] using Writes.declared ⟨hempty, h v rfl⟩

/-- What corners write one after the other is a table of some of them. -/
theorem corners_write :
    ∀ {cs : List Corner} {parts : List (List String)}, List.Forall₂ WritesCorner cs parts →
      ∃ rows : List (Corner × String),
        (rows.map (·.1)).Sublist cs ∧ (∀ row ∈ rows, IsValue row.2) ∧
          parts.flatten = rows.map fun row => declaration row.1.name row.2
  | [], _, .nil => ⟨[], List.Sublist.slnil, nofun, rfl⟩
  | c :: cs, _, .cons hpart hparts => by
      obtain ⟨rows, hsublist, hvalues, hlines⟩ := corners_write hparts
      cases hpart with
      | nothing => exact ⟨rows, hsublist.cons c, hvalues, hlines⟩
      | @declared v hv =>
          refine ⟨(c, v) :: rows, hsublist.cons_cons c, ?_, ?_⟩
          · exact List.forall_mem_cons.2 ⟨hv, hvalues⟩
          · simp [hlines]

/-- A reference that is found is a value. -/
theorem reference_ends (binding : Option VariableRef) :
    (reference followed binding).Ends Q fun path => ∀ v, path = some v → IsValue v := by
  cases followed with
  | false => exact ends_done nofun
  | true =>
      cases binding with
      | none => exact ends_done nofun
      | some r => exact Reference.resolve_ends r.id

/-- A fault for a missing field has one line. -/
theorem lacking_ends {post : α → Prop} (hQ : ∀ s, Inline s → Q s)
    {field : String} (hfield : Inline field) :
    (lacking n field).Ends Q post :=
  ends_fail (hQ _ (lacking_message_inline n.kind.nodeClass hfield))

theorem pixels_ends (hQ : ∀ s, Inline s → Q s) (v : Option Binary64) :
    (pixels v).Ends Q Inlines := by
  cases v with
  | none => exact ends_done nofun
  | some x =>
      refine Script.ends_ofNumber hQ ?_
      rintro _ hpx t rfl
      exact (Binary64.px_isValue hpx).inline

theorem pixelsOrZero_ends (hQ : ∀ s, Inline s → Q s) (v : Option Binary64) :
    (pixelsOrZero v).Ends Q Inlines := by
  cases v with
  | none => exact ends_done nofun
  | some x =>
      refine (pixels_ends hQ (some x)).bind ?_
      intro length hlength
      refine ends_done ?_
      rintro _ ⟨⟩
      cases length with
      | none => decide
      | some t => exact hlength t rfl

/-- A property that may be bound writes its variable or its literal, and nothing else. -/
theorem bound_ends (p : Property) (binding : Option VariableRef)
    {literal : Script (Option String)} (hliteral : literal.Ends Q Inlines) :
    (p.bound followed binding literal).Ends Q (Writes Q p) := by
  refine (reference_ends binding).bind ?_
  rintro (_ | path) hpath
  · refine hliteral.bind ?_
    intro value hvalue
    exact ends_done (declare?_writes hvalue)
  · refine ends_done (declare?_writes ?_)
    intro v hv
    exact (hpath v hv).inline

theorem position_ends (hQ : ∀ s, Inline s → Q s)
    (p : Property) (b : Bindable) (literal : Option Binary64) :
    (p.position followed n b literal).Ends Q (Writes Q p) := by
  unfold position
  split
  · exact ends_done .nothing
  · exact bound_ends p _ (pixelsOrZero_ends hQ literal)

theorem length_ends (hQ : ∀ s, Inline s → Q s)
    (p : Property) (b : Bindable) (literal : Option Binary64) :
    (p.length followed n b literal).Ends Q (Writes Q p) :=
  bound_ends p _ (pixels_ends hQ literal)

theorem alignmentValue_isValue (align : String) : IsValue (alignmentValue align) := by
  have hvalues : ∀ v ∈ ["start", "center", "end", "stretch", "space-between"],
      v ≠ "" ∧ Inline v := by
    decide
  obtain ⟨hne, hinline⟩ := hvalues (alignmentValue align) (by
    unfold alignmentValue
    split_ifs <;> simp)
  exact ⟨hne, hinline⟩

theorem opacityLines_ends (hQ : ∀ s, Inline s → Q s) :
    (opacityLines n).Ends Q (Writes Q opacity) := by
  unfold opacityLines
  split
  · exact ends_done .nothing
  · refine Script.Ends.bind (Script.ends_ofNumber hQ (fun _ _ => True.intro)) ?_
    intro percent _
    refine ends_done (.declared ⟨ne_empty_append (.inr (by decide)), ?_⟩)
    exact inline_append.2 ⟨toString_int_inline percent, by decide⟩

theorem key_inline (b : Bindable) : Inline b.key := by
  cases b <;> decide

theorem reportDropped_ends (hQ : ∀ s, Inline s → Q s) :
    (reportDropped n).Ends Q fun _ => True := by
  unfold reportDropped
  split
  · dsimp only
    split
    · exact ends_done True.intro
    · exact ends_done True.intro
  · split
    · exact lacking_ends hQ (key_inline _)
    · exact ends_done True.intro

theorem boundCorner_ends (c : Corner × VariableRef) :
    (boundCorner c).Ends Q (WritesCorner c.1) := by
  refine (Reference.resolve_ends c.2.id).bind ?_
  rintro (_ | path) hpath
  · exact ends_done .nothing
  · exact ends_done (.declared (hpath path rfl))

/-- Bound corners keep the order of the corners. -/
theorem boundCorners_sublist (bs : Bindings) :
    ((boundCorners bs).map (·.1)).Sublist Corner.all := by
  have hkept :
      (boundCorners bs).map (·.1) =
        Corner.all.filter fun c => (bs.get? c.bindable).isSome := by
    rw [boundCorners, List.map_filterMap, ← List.filterMap_eq_filter]
    congr 1
    funext c
    cases hc : bs.get? c.bindable <;> simp [hc, Option.guard]
  rw [hkept]
  exact List.filter_sublist

/-- Bound corners write themselves in order. -/
theorem boundCornerLines_ends (hQ : ∀ s, Inline s → Q s) (bs : Bindings) :
    (boundCornerLines n (boundCorners bs)).Ends Q (Writes Q borderRadius) := by
  rw [boundCornerLines_eq]
  refine (Script.Ends.collect boundCorner_ends (boundCorners bs)).bind ?_
  rintro _ ⟨parts, hparts, rfl⟩
  have hreport :
      (if parts.flatten ≠ [] then reportDropped n else .done ()).Ends Q fun _ => True := by
    split
    · exact reportDropped_ends hQ
    · exact ends_done True.intro
  refine hreport.bind ?_
  intro _ _
  have hcorners : List.Forall₂ WritesCorner ((boundCorners bs).map (·.1)) parts :=
    List.forall₂_map_left_iff.2 hparts
  obtain ⟨rows, hsublist, hvalues, hlines⟩ := corners_write hcorners
  rw [hlines]
  exact ends_done (.corners (hsublist.trans (boundCorners_sublist bs)) hvalues)

/-- A bound radius is written for all corners or corner by corner. -/
theorem boundRadius_ends (hQ : ∀ s, Inline s → Q s) :
    (boundRadius n).Ends Q (Writes Q borderRadius) := by
  refine (reference_ends _).bind ?_
  rintro (_ | path) hpath
  · dsimp only
    split
    · refine (Reference.resolve_ends _).bind ?_
      rintro (_ | path) hpath
      · exact ends_done .nothing
      · exact ends_done (.declared (hpath path rfl))
    · exact boundCornerLines_ends hQ _
  · exact ends_done (.declared (hpath path rfl))

theorem literalCorner_ends (hQ : ∀ s, Inline s → Q s) (radii : Radii) (c : Corner) :
    (literalCorner radii c).Ends Q (WritesCorner c) := by
  unfold literalCorner
  split
  · exact ends_done .nothing
  · split
    · refine Script.Ends.bind (Script.ends_ofNumber hQ fun _ h => h) ?_
      rintro (_ | t) hpx
      · exact ends_done (.declared ⟨by decide, by decide⟩)
      · exact ends_done (.declared (Binary64.px_isValue hpx))
    · exact ends_done .nothing

theorem literalRadius_ends (hQ : ∀ s, Inline s → Q s) :
    (literalRadius n).Ends Q (Writes Q borderRadius) := by
  unfold literalRadius
  split
  · exact lacking_ends hQ (by decide)
  · split
    · refine (pixels_ends hQ _).bind ?_
      intro value hvalue
      exact ends_done (declare?_writes hvalue)
    · refine Script.Ends.imp (Script.Ends.collect (literalCorner_ends hQ _) Corner.all) ?_
      rintro _ ⟨parts, hparts, rfl⟩
      obtain ⟨rows, hsublist, hvalues, hlines⟩ := corners_write hparts
      rw [hlines]
      exact .corners hsublist hvalues

/-- From whichever source, the radius writes itself. -/
theorem radiusLines_ends (hQ : ∀ s, Inline s → Q s) :
    (radiusLines followed n).Ends Q (Writes Q borderRadius) := by
  rcases ellipse_or_not n.kind with ⟨paints, radii, hn⟩ | hn
  · rw [radiusLines_ellipse followed hn]
    exact ends_done (.declared ⟨by decide, by decide⟩)
  · rw [radiusLines_eq followed hn]
    have hbound :
        (if followed then boundRadius n else .done []).Ends Q (Writes Q borderRadius) := by
      split
      · exact boundRadius_ends hQ
      · exact ends_done .nothing
    refine hbound.bind ?_
    intro lines hlines
    split
    · exact literalRadius_ends hQ
    · exact ends_done hlines

theorem ownBrush_ends (hQ : ∀ s, Inline s → Q s) (paint : Paint) :
    (ownBrush paint).Ends Q Inlines := by
  refine Script.Ends.bind (Script.ends_ofExcept (fun _ h => h) ?_) ?_
  · intro f hf
    exact hQ _ (Paint.brush_fault_inline hf)
  · intro b hb
    have htext : Inlines b.text? := fun t ht => Paint.brush_inline hb ht
    cases b with
    | drawn t => exact ends_done htext
    | incomplete l => exact ends_done htext
    | unsupported type => exact ends_done htext

/-- A brush that is looked up or described has one line. -/
theorem brush_ends (hQ : ∀ s, Inline s → Q s) (paint : Paint) :
    (brush followed paint).Ends Q Inlines := by
  refine (reference_ends paint.colorBinding).bind ?_
  rintro (_ | path) hpath
  · exact ownBrush_ends hQ paint
  · refine ends_done ?_
    intro v hv
    exact (hpath v hv).inline

theorem fillLines_ends (hQ : ∀ s, Inline s → Q s) (p : Property) :
    (p.fillLines followed n).Ends Q (Writes Q p) := by
  have hbrush : (brushOf followed n).Ends Q Inlines := by
    unfold brushOf
    split
    · unfold fillValue
      split
      · exact ends_done nofun
      · exact brush_ends hQ _
    · exact lacking_ends hQ (by decide)
  refine hbrush.bind ?_
  intro value hvalue
  exact ends_done (declare?_writes hvalue)

/-- A property of strokes writes itself, or the node has no strokes and it faults. -/
theorem onStrokes_ends (hQ : ∀ s, Inline s → Q s)
    {lines : Script (List String)} {p : Property} (hlines : lines.Ends Q (Writes Q p)) :
    (onStrokes n lines).Ends Q (Writes Q p) := by
  unfold onStrokes
  split
  · exact hlines
  · exact lacking_ends hQ (by decide)

/-- The declaration of the brush of a paint. -/
theorem strokeBrush_ends (hQ : ∀ s, Inline s → Q s) (p : Property) (paint : Paint) :
    ((brush followed paint).bind fun value => .done (p.declare? value)).Ends Q (Writes Q p) := by
  refine (brush_ends hQ paint).bind ?_
  intro value hvalue
  exact ends_done (declare?_writes hvalue)

theorem borderWidthLines_ends (hQ : ∀ s, Inline s → Q s) :
    (borderWidthLines followed n).Ends Q (Writes Q borderWidth) := by
  refine onStrokes_ends hQ ?_
  split
  · exact ends_done .nothing
  · exact length_ends hQ _ _ _

theorem borderColorLines_ends (hQ : ∀ s, Inline s → Q s) :
    (borderColorLines followed n).Ends Q (Writes Q borderColor) := by
  refine onStrokes_ends hQ ?_
  split
  · exact ends_done .nothing
  · exact strokeBrush_ends hQ _ _

theorem strokeLines_ends (hQ : ∀ s, Inline s → Q s) :
    (strokeLines followed n).Ends Q (Writes Q stroke) := by
  refine onStrokes_ends hQ ?_
  split
  · exact ends_done .nothing
  · split
    · exact strokeBrush_ends hQ _ _
    · exact ends_done .nothing

theorem strokeWidthLines_ends (hQ : ∀ s, Inline s → Q s) :
    (strokeWidthLines followed n).Ends Q (Writes Q strokeWidth) := by
  refine onStrokes_ends hQ ?_
  split
  · exact bound_ends _ _ (pixelsOrZero_ends hQ _)
  · exact ends_done .nothing

/-- A property of a text does what it does with a text, or the node has none and it faults. -/
theorem ofContent_ends (hQ : ∀ s, Inline s → Q s)
    {field : String} (hfield : Inline field) {f : TextContent → Script α} {post : α → Prop}
    (hf : ∀ content, (f content).Ends Q post) :
    (ofContent n field f).Ends Q post := by
  unfold ofContent
  split
  · exact hf _
  · exact lacking_ends hQ hfield

theorem textLines_ends (hQ : ∀ s, Inline s → Q s) :
    (textLines followed n).Ends Q (Writes Q text) := by
  refine bound_ends _ _ (ofContent_ends hQ (by decide) ?_)
  intro content
  refine ends_done ?_
  rintro _ ⟨⟩
  exact (Text.literal_isValue content.characters).inline

theorem fontFamilyLines_ends (hQ : ∀ s, Inline s → Q s) :
    (fontFamilyLines n).Ends Q (Writes Q fontFamily) := by
  refine ofContent_ends hQ (by decide) ?_
  intro content
  split
  · split
    · exact ends_done .nothing
    · exact ends_done (.declared (Text.literal_isValue _))
  · exact ends_done .nothing

theorem fontWeightLines_ends (hQ : ∀ s, Inline s → Q s) :
    (fontWeightLines followed n).Ends Q (Writes Q fontWeight) := by
  refine (reference_ends _).bind ?_
  rintro (_ | path) hpath
  · refine ofContent_ends hQ (by decide) ?_
    intro content
    split
    · exact ends_done .nothing
    · refine Script.Ends.bind (Script.ends_ofNumber hQ fun _ h => h) ?_
      rintro (_ | t) hweight
      · exact ends_done (.declared ⟨by decide, by decide⟩)
      · exact ends_done (.declared (Binary64.toPlaces_isValue hweight))
  · exact ends_done (.declared ((hpath path rfl).append_left (by decide)))

/-- The alignment of a text writes itself, with a note where the text is justified. -/
theorem textAlignment_writes (value : String) :
    Writes Q horizontalAlignment (textAlignment value) := by
  unfold textAlignment
  split_ifs
  · exact .declared ⟨by decide, by decide⟩
  · exact .declared ⟨by decide, by decide⟩
  · exact .declared ⟨by decide, by decide⟩
  · exact .justified
  · exact .nothing

/-- What a drawing holds stands in a literal, or on one line of a remark. -/
theorem commandLines_ends : (commandLines n).Ends Q (Writes Q commands) := by
  rw [commandLines_eq]
  refine ends_ask ?_
  rintro (f | svg) hr
  · exact ends_done (.notDrawn (hr nofun f rfl))
  · simp only [afterDrawing]
    split
    · exact ends_done (.declared (Text.literal_isValue _))
    · exact ends_done .noCommands

/-- **The script of every property ends in lines of the grammar**, or in a fault of which the
message is allowed. -/
theorem lines_ends (hQ : ∀ s, Inline s → Q s) (p : Property) :
    (p.lines followed n).Ends Q (Writes Q p) := by
  cases p with
  | x | y => exact position_ends hQ _ _ _
  | width | height | maxWidth | maxHeight | minWidth | minHeight | spacing
  | paddingLeft | paddingRight | paddingTop | paddingBottom =>
      exact length_ends hQ _ _ _
  | alignment =>
      unfold lines
      dsimp only
      split
      · exact ends_done (.declared (alignmentValue_isValue _))
      · exact ends_done .nothing
  | opacity => exact opacityLines_ends hQ
  | borderRadius => exact radiusLines_ends hQ
  | borderWidth => exact borderWidthLines_ends hQ
  | borderColor => exact borderColorLines_ends hQ
  | background | color | fill => exact fillLines_ends hQ _
  | text => exact textLines_ends hQ
  | fontFamily => exact fontFamilyLines_ends hQ
  | fontSize =>
      exact bound_ends _ _ (ofContent_ends hQ (by decide) fun _ => pixels_ends hQ _)
  | fontWeight => exact fontWeightLines_ends hQ
  | horizontalAlignment =>
      exact ofContent_ends hQ (by decide) fun _ => ends_done (textAlignment_writes _)
  | commands => exact commandLines_ends
  | stroke => exact strokeLines_ends hQ
  | strokeWidth => exact strokeWidthLines_ends hQ

/-- A property that is contained writes itself or a remark, and no fault is left. -/
theorem contained_ends (hQ : ∀ s, Inline s → Q s)
    (followed : Bool) (n : Node) (p : Property) :
    (p.contained followed n).Ends Q (Writes Q p) :=
  (lines_ends hQ p).recover fun _ hf => ends_done (.stopped hf)

end Property

namespace Snippet

mutual

/-- A block stands for a node, and the lines of its properties are in a relation to the class of the
node. So it is for all nodes below, down to instances, which have only a head or a remark. -/
inductive Fits (R : NodeClass → List String → Prop) : Node → Block → Prop
  | ofInstance
      {a : Attributes} {c : Option String} {children : List Node}
      {found : Option MainComponent} :
      Fits R (.mk a (.instanceOf c) children) (blockOfComponent a.name found)
  | element
      {a : Attributes} {k : Kind} {children : List Node}
      {lines : List String} {bs : List Block} :
      (∀ c, k ≠ .instanceOf c) →
      R k.nodeClass lines →
      FitsAll R children bs →
      Fits R (.mk a k children)
        (.mk (some (keyword k)) (some (Text.kebab a.name)) (remark k) lines bs)

/-- The blocks of a row stand for the nodes of a row, one for each in order. -/
inductive FitsAll (R : NodeClass → List String → Prop) : List Node → List Block → Prop
  | nil : FitsAll R [] []
  | cons {n : Node} {rest : List Node} {b : Block} {bs : List Block} :
      Fits R n b → FitsAll R rest bs → FitsAll R (n :: rest) (b :: bs)

end

mutual

/-- What fits by a relation fits by a weaker one. -/
theorem Fits.imp
    {R R' : NodeClass → List String → Prop} (h : ∀ c lines, R c lines → R' c lines)
    {n : Node} {b : Block} :
    Fits R n b → Fits R' n b
  | .ofInstance => .ofInstance
  | .element hk hlines hall => .element hk (h _ _ hlines) (hall.imp h)

theorem FitsAll.imp
    {R R' : NodeClass → List String → Prop} (h : ∀ c lines, R c lines → R' c lines)
    {ns : List Node} {bs : List Block} :
    FitsAll R ns bs → FitsAll R' ns bs
  | .nil => .nil
  | .cons hhead hrest => .cons (hhead.imp h) (hrest.imp h)

end

/-- The lines of all properties of a class, one part for each property in order. -/
def Written (Q : String → Prop) (c : NodeClass) (lines : List String) : Prop :=
  ∃ parts, List.Forall₂ (Property.Writes Q) (properties c) parts ∧ lines = parts.flatten

mutual

/-- The block of a node has the properties of its class, each as it is written. -/
theorem block_ends (hQ : ∀ s, Inline s → Q s) (followed : Bool) :
    ∀ n : Node, (block followed n).Ends Q (Fits (Written Q) n)
  | .mk a k children => by
      rcases instance_or_element k with ⟨c, rfl⟩ | hk
      · rw [block_instance]
        refine ends_ask ?_
        rintro (f | found) _
        · exact ends_done .ofInstance
        · exact ends_done .ofInstance
      · rw [block_element followed a children hk]
        refine Script.Ends.bind
          (Script.Ends.collect (Property.contained_ends hQ followed _) _) ?_
        intro lines hlines
        refine (blocks_end hQ followed children).bind ?_
        intro bs hbs
        exact ends_done (.element hk hlines hbs)

theorem blocks_end (hQ : ∀ s, Inline s → Q s) (followed : Bool) :
    ∀ ns : List Node, (blocks followed ns).Ends Q (FitsAll (Written Q) ns)
  | [] => ends_done .nil
  | n :: rest => by
      rw [blocks_cons]
      refine (block_ends hQ followed n).bind ?_
      intro b hb
      refine (blocks_end hQ followed rest).bind ?_
      intro bs hbs
      exact ends_done (.cons hb hbs)

end

/-- **Every run gives a block for each node, with lines of the grammar**, if what the host says when
it fails is in `Q`. -/
theorem block_written
    (hQ : ∀ s, Inline s → Q s)
    {σ : Type} (host : Host σ) (state : σ) (followed : Bool) (n : Node)
    (hhost : ∀ t ∈ (block followed n).turns host state, t.FaultsIn Q) :
    ∃ b, ((block followed n).run host state).outcome = .ok b ∧ Fits (Written Q) n b := by
  obtain ⟨b, hb, -⟩ := (block_always_mirrors followed n).run host state
  exact ⟨b, hb, (block_ends hQ followed n).run host state hhost hb⟩

end Snippet
end SceneMarkup
