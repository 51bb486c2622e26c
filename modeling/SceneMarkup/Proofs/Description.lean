import SceneMarkup.Markup.Declaration
import SceneMarkup.Proofs.Conversation

/-!
# What the script of a property can do

Some thirty properties are written by some thirty scripts, but all of them are put together from
few steps: results, faults and notices, the resolution of a variable, and the request for the
drawing of the node itself. `Script.Describes` is the class of scripts built from these steps.

* `Property.lines_describes`: every property of every node belongs to the class, and resolves
  variables only when variables are followed.

What holds of all properties is proved by one induction over the class instead of once for each
property, here for the questions that properties ask (`Property.contained_settles`).
-/

namespace SceneMarkup

namespace Reference

variable {α : Type}

/-- What follows the reply to the question for a collection. -/
def afterCollection
    (id : String) (v : Variable) (next : Option String → Script α) :
    (Query.collectionById v.collectionId).Reply → Script α
  | .error f => .fail (.host f)
  | .ok none => .note (.noCollection id) (next none)
  | .ok (some c) => next (some (path c v))

/-- What follows the reply to the question for a variable. -/
def afterVariable
    (id : String) (next : Option String → Script α) :
    (Query.variableById id).Reply → Script α
  | .error f => .fail (.host f)
  | .ok none => next none
  | .ok (some v) => .ask (.collectionById v.collectionId) (afterCollection id v next)

/-- A resolution asks for the variable first, and for its collection only if it is there. -/
theorem resolve_bind (id : String) (next : Option String → Script α) :
    (resolve id).bind next = .ask (.variableById id) (afterVariable id next) := by
  show Script.ask _ _ = Script.ask _ _
  congr 1
  funext r
  rcases r with f | _ | v
  · rfl
  · rfl
  · show Script.ask _ _ = Script.ask _ _
    congr 1
    funext r
    rcases r with f | _ | c <;> rfl

end Reference

namespace Script

variable {α β : Type} {followed : Bool} {n : Node}

/-- Scripts that resolve variables, if they are followed, and ask for the drawing of a node. -/
inductive Describes (followed : Bool) (n : Node) : Script α → Prop
  | done (a : α) : Describes followed n (done a)
  | fail (f : Fault) : Describes followed n (fail f)
  | note (x : Notice) {rest : Script α} :
      Describes followed n rest → Describes followed n (note x rest)
  | resolve (id : String) {next : Option String → Script α} :
      followed = true →
      (∀ path, Describes followed n (next path)) →
      Describes followed n ((Reference.resolve id).bind next)
  | drawing {next : (Query.drawingOf n).Reply → Script α} :
      (∀ r, Describes followed n (next r)) →
      Describes followed n (ask (.drawingOf n) next)

namespace Describes

theorem bind
    {s : Script α} {k : α → Script β}
    (hs : s.Describes followed n)
    (hk : ∀ a, (k a).Describes followed n) :
    (s.bind k).Describes followed n := by
  induction hs with
  | done a => exact hk a
  | fail f => exact .fail f
  | note x _ ih => exact .note x ih
  | resolve id hfollowed _ ih =>
      rw [bind_assoc]
      exact .resolve id hfollowed ih
  | drawing _ ih => exact .drawing ih

/-- A variable may be looked up where variables are followed. -/
theorem resolution (id : String) (hfollowed : followed = true) :
    (Reference.resolve id).Describes followed n := by
  rw [← bind_done (Reference.resolve id)]
  exact .resolve id hfollowed .done

theorem ofExcept (r : Except Fault α) :
    (ofExcept r).Describes followed n := by
  cases r with
  | ok a => exact .done a
  | error f => exact .fail f

theorem ofNumber (r : Except NumberFault α) :
    (ofNumber r).Describes followed n := by
  cases r with
  | ok a => exact .done a
  | error f => exact .fail (.number f)

theorem collect
    {f : α → Script (List β)}
    (hf : ∀ a, (f a).Describes followed n) :
    ∀ l : List α, (Script.collect f l).Describes followed n
  | [] => .done []
  | a :: rest => (hf a).bind fun _ => (collect hf rest).bind fun _ => .done _

end Describes
end Script

namespace Property

variable {α : Type} {followed : Bool} {n : Node}

theorem reference_describes (binding : Option VariableRef) :
    (reference followed binding).Describes followed n := by
  cases followed with
  | false => exact .done none
  | true =>
      cases binding with
      | none => exact .done none
      | some r => exact .resolution r.id rfl

theorem pixels_describes (v : Option Binary64) :
    (pixels v).Describes followed n := by
  cases v with
  | none => exact .done none
  | some v => exact .ofNumber v.px

theorem pixelsOrZero_describes (v : Option Binary64) :
    (pixelsOrZero v).Describes followed n := by
  cases v with
  | none => exact .done none
  | some v => exact (Script.Describes.ofNumber v.px).bind fun _ => .done _

/-- A property is described by its variable or by its literal. -/
theorem bound_describes
    (p : Property) (binding : Option VariableRef)
    {literal : Script (Option String)}
    (hliteral : literal.Describes followed n) :
    (p.bound followed binding literal).Describes followed n := by
  refine (reference_describes binding).bind ?_
  intro path
  cases path with
  | some path => exact .done _
  | none => exact hliteral.bind fun _ => .done _

theorem position_describes
    (p : Property) (b : Bindable) (literal : Option Binary64) :
    (p.position followed n b literal).Describes followed n := by
  unfold position
  split
  · exact .done []
  · exact bound_describes p _ (pixelsOrZero_describes literal)

theorem length_describes
    (p : Property) (b : Bindable) (literal : Option Binary64) :
    (p.length followed n b literal).Describes followed n :=
  bound_describes p _ (pixels_describes literal)

theorem opacityLines_describes :
    (opacityLines n).Describes followed n := by
  unfold opacityLines
  split
  · exact .done []
  · exact (Script.Describes.ofNumber _).bind fun _ => .done _

theorem reportDropped_describes :
    (reportDropped n).Describes followed n := by
  unfold reportDropped
  split
  · dsimp only
    split
    · exact .note _ (.done ())
    · exact .done ()
  · split
    · exact .fail _
    · exact .done ()

theorem boundCorner_describes (c : Corner × VariableRef) :
    (boundCorner c).Describes true n := by
  refine (Script.Describes.resolution c.2.id rfl).bind ?_
  intro path
  cases path with
  | some path => exact .done _
  | none => exact .done []

/-- The lines of bound corners come first, and what they drop is reported if there are any. -/
theorem boundCornerLines_eq (corners : List (Corner × VariableRef)) :
    boundCornerLines n corners =
      (Script.collect boundCorner corners).bind fun lines =>
        (if lines ≠ [] then reportDropped n else .done ()).bind fun _ => .done lines := by
  show Script.bind _ _ = Script.bind _ _
  congr 1
  funext lines
  by_cases hlines : lines = []
  · simp [hlines]
  · simp [hlines]

theorem boundCornerLines_describes (corners : List (Corner × VariableRef)) :
    (boundCornerLines n corners).Describes true n := by
  rw [boundCornerLines_eq]
  refine (Script.Describes.collect boundCorner_describes corners).bind ?_
  intro lines
  refine Script.Describes.bind ?_ fun _ => .done lines
  split
  · exact reportDropped_describes
  · exact .done ()

/-- The bound radius asks for variables and for nothing else. -/
theorem boundRadius_describes :
    (boundRadius n).Describes true n := by
  refine (reference_describes _).bind ?_
  intro path
  cases path with
  | some path => exact .done _
  | none =>
      dsimp only
      split
      · refine (Script.Describes.resolution _ rfl).bind ?_
        intro path
        cases path with
        | some path => exact .done _
        | none => exact .done []
      · exact boundCornerLines_describes _

theorem literalCorner_describes (radii : Radii) (c : Corner) :
    (literalCorner radii c).Describes followed n := by
  unfold literalCorner
  split
  · exact .done []
  · split
    · exact (Script.Describes.ofNumber _).bind fun _ => .done _
    · exact .done []

theorem literalRadius_describes :
    (literalRadius n).Describes followed n := by
  unfold literalRadius
  split
  · exact .fail _
  · split
    · exact (pixels_describes _).bind fun _ => .done _
    · exact Script.Describes.collect (literalCorner_describes _) Corner.all

theorem ellipse_or_not (k : Kind) :
    (∃ paints radii, k = .shape .ellipse paints radii) ∨
      ∀ paints radii, k ≠ .shape .ellipse paints radii := by
  by_cases hk : ∃ paints radii, k = .shape .ellipse paints radii
  · exact .inl hk
  · right
    intro paints radii h
    exact hk ⟨paints, radii, h⟩

/-- An ellipse needs neither a binding nor a radius. -/
theorem radiusLines_ellipse
    (followed : Bool) {paints : Paints} {radii : Radii}
    (hn : n.kind = .shape .ellipse paints radii) :
    radiusLines followed n = .done [declaration borderRadius.name "self.width/2"] := by
  simp [radiusLines, hn]

/-- Apart from an ellipse, literal radii are looked at where no bound one gave a line. -/
theorem radiusLines_eq
    (followed : Bool)
    (hn : ∀ paints radii, n.kind ≠ .shape .ellipse paints radii) :
    radiusLines followed n =
      (if followed then boundRadius n else .done []).bind fun lines =>
        if lines = [] then literalRadius n else .done lines := by
  unfold radiusLines
  split
  next heq => exact absurd heq (hn _ _)
  next =>
    cases followed with
    | false => rfl
    | true => rfl

/-- All that a radius asks for are its variables. -/
theorem radiusLines_describes :
    (radiusLines followed n).Describes followed n := by
  rcases ellipse_or_not n.kind with ⟨paints, radii, hn⟩ | hn
  · rw [radiusLines_ellipse followed hn]
    exact .done _
  · rw [radiusLines_eq followed hn]
    refine Script.Describes.bind ?_ ?_
    · cases followed with
      | false => exact .done []
      | true => exact boundRadius_describes
    · intro lines
      split
      · exact literalRadius_describes
      · exact .done lines

/-- A brush that a paint describes itself asks for nothing. -/
theorem ownBrush_describes (paint : Paint) :
    (ownBrush paint).Describes followed n := by
  refine (Script.Describes.ofExcept paint.brush).bind ?_
  intro brush
  cases brush with
  | drawn t => exact .done _
  | incomplete l => exact .note _ (.done _)
  | unsupported type => exact .note _ (.done _)

/-- A brush may be asked for without following its variable. -/
theorem brush_describes
    {b : Bool} (hb : b = true → followed = true) (paint : Paint) :
    (brush b paint).Describes followed n := by
  refine Script.Describes.bind ?_ ?_
  · cases b with
    | false => exact .done none
    | true =>
        cases hb rfl
        exact reference_describes paint.colorBinding
  · intro path
    cases path with
    | some path => exact .done _
    | none => exact ownBrush_describes paint

/-- The fill asks for the variable of its first visible paint at most. -/
theorem fillValue_describes (fills : List Paint) :
    (fillValue followed fills).Describes followed n := by
  unfold fillValue
  split
  · exact .done none
  · refine brush_describes ?_ _
    intro hb
    exact (Bool.and_eq_true _ _ ▸ hb).1

theorem fillLines_describes (p : Property) :
    (p.fillLines followed n).Describes followed n := by
  refine Script.Describes.bind ?_ fun _ => .done _
  unfold brushOf
  split
  · exact fillValue_describes _
  · exact .fail _

/-- A property of strokes describes a node of any kind, since a node without strokes faults. -/
theorem onStrokes_describes
    {lines : Script (List String)} (hlines : lines.Describes followed n) :
    (onStrokes n lines).Describes followed n := by
  unfold onStrokes
  split
  · exact hlines
  · exact .fail _

theorem borderWidthLines_describes :
    (borderWidthLines followed n).Describes followed n := by
  refine onStrokes_describes ?_
  split
  · exact .done []
  · exact length_describes _ _ _

theorem borderColorLines_describes :
    (borderColorLines followed n).Describes followed n := by
  refine onStrokes_describes ?_
  split
  · exact .done []
  · exact (brush_describes id _).bind fun _ => .done _

theorem strokeLines_describes :
    (strokeLines followed n).Describes followed n := by
  refine onStrokes_describes ?_
  split
  · exact .done []
  · split
    · exact (brush_describes id _).bind fun _ => .done _
    · exact .done []

theorem strokeWidthLines_describes :
    (strokeWidthLines followed n).Describes followed n := by
  refine onStrokes_describes ?_
  split
  · exact bound_describes _ _ (pixelsOrZero_describes _)
  · exact .done []

/-- A property of a text describes a node of any kind, since a node without a text faults. -/
theorem ofContent_describes
    (field : String) {f : TextContent → Script α}
    (hf : ∀ content, (f content).Describes followed n) :
    (ofContent n field f).Describes followed n := by
  unfold ofContent
  split
  · exact hf _
  · exact .fail _

theorem fontFamilyLines_describes :
    (fontFamilyLines n).Describes followed n := by
  refine ofContent_describes _ ?_
  intro content
  split
  · split
    · exact .done []
    · exact .done _
  · exact .done []

theorem fontWeightLines_describes :
    (fontWeightLines followed n).Describes followed n := by
  refine (reference_describes _).bind ?_
  intro path
  cases path with
  | some path => exact .done _
  | none =>
      refine ofContent_describes _ ?_
      intro content
      split
      · exact .done []
      · exact (Script.Describes.ofNumber _).bind fun _ => .done _

/-- What follows the reply to the question for the drawing of a node. -/
def afterDrawing (n : Node) : (Query.drawingOf n).Reply → Script (List String)
  | .error f =>
    .note (.drawingFailed n.name n.id f) (.done ["// Error exporting SVG: " ++ f.message])
  | .ok (svg : String) =>
    match commandsIn (drawnForm n.kind) svg with
    | some found => .done [declaration commands.name (Text.Quoted.literal found)]
    | none =>
      .note (.noCommands n.name n.id)
        (.done ["// Could not extract path commands from SVG", "// " ++ Text.singleLine svg])

/-- The commands of a path ask for the drawing of the node first. -/
theorem commandLines_eq (n : Node) :
    commandLines n = .ask (.drawingOf n) (afterDrawing n) :=
  rfl

/-- The drawing is all that the commands of a path ask for. -/
theorem commandLines_describes :
    (commandLines n).Describes followed n := by
  rw [commandLines_eq]
  refine .drawing ?_
  intro r
  cases r with
  | error f => exact .note _ (.done _)
  | ok svg =>
      simp only [afterDrawing]
      split
      · exact .done _
      · exact .note _ (.done _)

/-- **The script of every property is put together from the few steps of `Describes`.** -/
theorem lines_describes (p : Property) :
    (p.lines followed n).Describes followed n := by
  cases p with
  | x | y => exact position_describes _ _ _
  | width | height | maxWidth | maxHeight | minWidth | minHeight | spacing
  | paddingLeft | paddingRight | paddingTop | paddingBottom =>
      exact length_describes _ _ _
  | alignment =>
      unfold lines
      dsimp only
      split
      · exact .done _
      · exact .done []
  | opacity => exact opacityLines_describes
  | borderRadius => exact radiusLines_describes
  | borderWidth => exact borderWidthLines_describes
  | borderColor => exact borderColorLines_describes
  | background | color | fill => exact fillLines_describes _
  | text => exact bound_describes _ _ (ofContent_describes _ fun _ => .done _)
  | fontFamily => exact fontFamilyLines_describes
  | fontSize => exact bound_describes _ _ (ofContent_describes _ fun _ => pixels_describes _)
  | fontWeight => exact fontWeightLines_describes
  | horizontalAlignment => exact ofContent_describes _ fun _ => .done _
  | commands => exact commandLines_describes
  | stroke => exact strokeLines_describes
  | strokeWidth => exact strokeWidthLines_describes

end Property

/-- The questions that the description of a node may ask. -/
def Query.Concerns (followed : Bool) (n : Node) : Query → Prop
  | .variableById _ => followed = true
  | .collectionById _ => followed = true
  | .componentOf _ => False
  | .drawingOf m => m = n

/-- A script that describes a node asks what concerns this node. -/
theorem Script.Describes.asks
    {α : Type} {followed : Bool} {n : Node} {s : Script α}
    (hs : s.Describes followed n) :
    s.Asks (Query.Concerns followed n) := by
  induction hs with
  | done a => exact Script.asks_done a
  | fail f => exact Script.asks_fail f
  | note x _ ih => exact ih
  | resolve id hfollowed _ ih =>
      rw [Reference.resolve_bind]
      refine Script.asks_ask hfollowed ?_
      rintro (f | _ | v)
      · exact Script.asks_fail (.host f)
      · exact ih none
      · -- Only a variable that is there leads to a second question.
        refine Script.asks_ask hfollowed ?_
        rintro (f | _ | c)
        · exact Script.asks_fail (.host f)
        · exact ih none
        · exact ih _
  | drawing _ ih => exact Script.asks_ask rfl ih

/-- The attributes of an opaque node without position, size and layout. -/
def Attributes.bare (id name : String) (bindings : Bindings) : Attributes :=
  { id := id, name := name, parentType := none
    box := ⟨none, none, .zero false, .zero false, none, none, none, none⟩
    arrangement := ⟨none, none, none, none, none, none⟩
    opacity := .one
    bindings := bindings }

namespace Property

/-- Whatever the replies, a fault stays within its property. -/
theorem contained_settles (followed : Bool) (n : Node) (p : Property) :
    (p.contained followed n).Settles (Query.Concerns followed n) :=
  (lines_describes p).asks.recover fun f => Script.settles_done [p.faultRemark f]

/-- The properties of a node never fault, and ask what concerns this node. -/
theorem allLines_settles (followed : Bool) (n : Node) (ps : List Property) :
    (allLines followed n ps).Settles (Query.Concerns followed n) :=
  .collect (contained_settles followed n) ps

end Property
end SceneMarkup
