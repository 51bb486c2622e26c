import SceneMarkup.Proofs.Spelling

/-!
# Scenes from data that is spelled otherwise

The fields of nodes, paints, colors, stops and bindings can be spelled in two ways. `Respelled`
relates trees of data that differ in the spelling of some fields, at any level, and give no field
twice.

One step of reading looks at one spelling only: a style or a font gives a text its typography unless
the text has the field in camel case, and then outweighs the other spelling. So a tree that is
respelled leaves a scene as it is except for fields that a style or a font gives as well
(`TextContent.gives`). They have to keep their spelling:

* `Node.read_respelled`: if they do, the scene is the same;
* `style_outweighs`: if one of them does not, the scene need not be.
-/

namespace SceneMarkup

/-- The fields of a color. -/
def Color.fields : Fields := ⟨["r", "g", "b", "a"], []⟩

/-- The fields of a stop. -/
def ColorStop.fields : Fields := ⟨["position"], [("color", ObjectAlike Color.fields)]⟩

/-- The fields of a reference to a variable. -/
def VariableRef.fields : Fields := ⟨["id", "type"], []⟩

/-- The fields of the bindings of a paint. -/
def Paint.bindingFields : Fields := ⟨[], [("color", ObjectAlike VariableRef.fields)]⟩

/-- The fields of a paint. -/
def Paint.fields : Fields :=
  ⟨["type", "visible", "opacity", "gradient_transform"],
    [("color", ObjectAlike Color.fields),
      ("gradient_stops", ListAlike (ObjectAlike ColorStop.fields)),
      ("bound_variables", ObjectAlike Paint.bindingFields)]⟩

/-- References that are alike, or lists of them for the ranges of a text. -/
inductive RangeAlike : Likeness
  | one {v w : Json} : ObjectAlike VariableRef.fields v w → RangeAlike v w
  | ranges {v w : Json} : ListAlike (ObjectAlike VariableRef.fields) v w → RangeAlike v w

/-- The fields of the bindings of a node. -/
def Bindings.fields : Fields := ⟨[], Bindable.all.map fun b => (b.key, RangeAlike)⟩

/-- The fields for the radii of corners and the weight of strokes. -/
def NodeClass.outlineFields : List String :=
  ["stroke_weight", "corner_radius", "top_left_radius", "top_right_radius", "bottom_left_radius",
    "bottom_right_radius"]

/-- The fields with plain values that every node has. -/
def Attributes.plainFields : List String :=
  ["id", "name", "parent_type", "x", "y", "width", "height", "min_width", "max_width",
    "min_height", "max_height", "item_spacing", "layout_align", "padding_left", "padding_right",
    "padding_top", "padding_bottom", "opacity"]

namespace NodeClass

/-- The fields that the nodes of a class have of their own. -/
def ownFields : NodeClass → Fields
  | frame => ⟨["layout_mode"], []⟩
  | shape _ =>
    ⟨NodeClass.outlineFields,
      [("fills", ListAlike (ObjectAlike Paint.fields)),
        ("strokes", ListAlike (ObjectAlike Paint.fields))]⟩
  | instanceOf => ⟨["component_id"], []⟩
  | text =>
    ⟨["characters", "font_family", "font_size", "font_weight", "text_align_horizontal"],
      [("fills", ListAlike (ObjectAlike Paint.fields))]⟩
  | path _ =>
    ⟨["stroke_weight"],
      [("fills", ListAlike (ObjectAlike Paint.fields)),
        ("strokes", ListAlike (ObjectAlike Paint.fields))]⟩
  | other => ⟨[], []⟩

/-- The fields of a class of nodes, apart from the children. -/
def fields (c : NodeClass) : Fields :=
  ⟨"type" :: Attributes.plainFields ++ c.ownFields.plain,
    ("bound_variables", ObjectAlike Bindings.fields) :: c.ownFields.nested⟩

end NodeClass

namespace TextContent

/-- The style of a text; a vacant one is empty. -/
def styleOf (ms : Json.Members) : Json :=
  let found := (Json.find? "style" ms).getD .null
  if found.isVacant then .obj [] else found

/-- A style mentions a key. -/
def styleMentions (style : Json) (key : String) : Bool :=
  match style.mentions key with
  | .ok found => found
  | .error _ => false

/-- The style or the font of a text gives it a field, whether or not it has that field already. -/
def gives (ms : Json.Members) (name : String) : Bool :=
  styleKeys.contains (FieldName.camel name) && styleMentions (styleOf ms) (FieldName.camel name) ||
    FieldName.camel name == "fontFamily" && ((Json.find? "fontName" ms).bind Json.members?).isSome

end TextContent

/-- A field of a node comes from a style or a font as well. Only texts have these. -/
def NodeClass.gives (c : NodeClass) (ms : Json.Members) (name : String) : Bool :=
  match c with
  | text => TextContent.gives ms name
  | _ => false

mutual

/-- The same tree of data with other spellings of fields, each of which is given once. The fields
that are kept are spelled as before. -/
inductive Respelled (kept : NodeClass → Json.Members → String → Bool) : Json → Json → Prop
  | same (v : Json) : Respelled kept v v
  | node {c : NodeClass} {ms ns : Json.Members} :
      NodeClass.ofMembers ms = .ok c →
      (c.fields.without (kept c ms)).Once ms →
      RespelledMembers kept (c.fields.without (kept c ms)) ms ns →
      Respelled kept (.obj ms) (.obj ns)

/-- The members of an object of some fields with other spellings. -/
inductive RespelledMembers
    (kept : NodeClass → Json.Members → String → Bool) :
    Fields → List (String × Json) → List (String × Json) → Prop
  | nil {f : Fields} : RespelledMembers kept f [] []
  | entry {f : Fields} {m m' : String × Json} {ms ns : List (String × Json)} :
      EntryAlike f m m' → RespelledMembers kept f ms ns →
      RespelledMembers kept f (m :: ms) (m' :: ns)
  | children {f : Fields} {v w : Json} {ms ns : List (String × Json)} :
      RespelledChildren kept v w → RespelledMembers kept f ms ns →
      RespelledMembers kept f (("children", v) :: ms) (("children", w) :: ns)

/-- The children of an object with other spellings. -/
inductive RespelledChildren (kept : NodeClass → Json.Members → String → Bool) : Json → Json → Prop
  | same (v : Json) : RespelledChildren kept v v
  | items {vs ws : List Json} :
      RespelledItems kept vs ws → RespelledChildren kept (.arr vs) (.arr ws)

/-- A list of trees with other spellings. -/
inductive RespelledItems
    (kept : NodeClass → Json.Members → String → Bool) : List Json → List Json → Prop
  | nil : RespelledItems kept [] []
  | cons {v w : Json} {vs ws : List Json} :
      Respelled kept v w → RespelledItems kept vs ws → RespelledItems kept (v :: vs) (w :: ws)

end

theorem Color.read_faithful : Faithful (ObjectAlike Color.fields) Color.read := by
  refine faithful_object (by decide) ?_
  intro ms ns h
  simp (disch := decide) only [Color.ofMembers, Reading.accepted_seq, Reading.accepted_functor,
    h.sameValues.withDefault]

theorem ColorStop.read_faithful : Faithful (ObjectAlike ColorStop.fields) ColorStop.read := by
  refine faithful_object (by decide) ?_
  intro ms ns h
  have hcolor := h.required List.mem_cons_self Color.read_faithful
  simp (disch := decide) only [ColorStop.ofMembers, Reading.accepted_seq, Reading.accepted_functor,
    h.sameValues.required, hcolor]

theorem VariableRef.read_faithful : Faithful (ObjectAlike VariableRef.fields) VariableRef.read := by
  refine faithful_object (by decide) ?_
  intro ms ns h
  simp (disch := decide) only [VariableRef.ofMembers, Reading.accepted_seq,
    Reading.accepted_functor, h.sameValues.required, h.sameValues.withDefault]

theorem Paint.readBinding_faithful :
    Faithful (ObjectAlike Paint.bindingFields) Paint.readBinding := by
  refine faithful_object (by decide) ?_
  intro ms ns h
  exact h.optional List.mem_cons_self (ObjectAlike.nullable _) VariableRef.read_faithful

/-- A paint is read alike from members that are spelled either way, with its color, its stops and
its binding. -/
theorem Paint.read_faithful : Faithful (ObjectAlike Paint.fields) Paint.read := by
  refine faithful_object (by decide +kernel) ?_
  intro ms ns h
  have hcolor := h.optional List.mem_cons_self (ObjectAlike.nullable _) Color.read_faithful
  have hstops := h.optional (List.mem_cons_of_mem _ List.mem_cons_self) (ListAlike.nullable _)
    (faithful_list ColorStop.read_faithful)
  have hbinding := h.withDefault
    (List.mem_cons_of_mem _ (List.mem_cons_of_mem _ List.mem_cons_self))
    Paint.readBinding_faithful none
  simp (disch := decide) only [Paint.ofMembers, Reading.accepted_seq, Reading.accepted_functor,
    h.sameValues.required, h.sameValues.withDefault, h.sameValues.optional, hcolor, hstops,
    hbinding]

theorem Bindings.firstOf_faithful :
    Faithful RangeAlike fun v => Reading.nullable VariableRef.read (Bindings.firstOf v) := by
  have hone : Faithful (ObjectAlike VariableRef.fields) (Reading.nullable VariableRef.read) :=
    VariableRef.read_faithful.nullable (ObjectAlike.nullable _)
  rintro v w (h | h)
  · cases h with
    | same => rfl
    | members honce hentries => exact hone _ _ (.members honce hentries)
  · cases h with
    | same => rfl
    | items hitems =>
        cases hitems with
        | nil => rfl
        | cons hhead _ => exact hone _ _ hhead

/-- Bindings are accepted alike, attribute by attribute. -/
theorem Bindings.accepted_entriesOf
    {ms ns : Json.Members} (h : Agree Bindings.fields ms ns) (bs : List Bindable)
    (hbs : ∀ b ∈ bs, b ∈ Bindable.all) :
    (Bindings.entriesOf ns bs).accepted = (Bindings.entriesOf ms bs).accepted := by
  induction bs with
  | nil => rfl
  | cons b bs ih =>
      obtain ⟨hhead, hrest⟩ := List.forall_mem_cons.1 hbs
      have hfield := h.withDefault (List.mem_map_of_mem hhead) Bindings.firstOf_faithful none
      simp only [Bindings.entriesOf, Reading.accepted_seq, Reading.accepted_functor, ih hrest]
      rw [hfield]

/-- Bindings are read alike from members that are spelled either way. -/
theorem Bindings.read_faithful : Faithful (ObjectAlike Bindings.fields) Bindings.read := by
  refine faithful_object (by decide +kernel) ?_
  intro ms ns h
  rw [Reading.accepted_functor, Reading.accepted_functor,
    Bindings.accepted_entriesOf h Bindable.all fun _ hb => hb]

theorem NodeClass.ownFields_nested
    {c : NodeClass} {e : String × Likeness} (he : e ∈ c.ownFields.nested) :
    e.2 = ListAlike (ObjectAlike Paint.fields) := by
  cases c <;> simp only [ownFields, List.mem_cons, List.not_mem_nil, or_false] at he
  case shape | path => rcases he with rfl | rfl <;> rfl
  case text => rw [he]

/-- All classes of nodes. -/
def NodeClass.all : List NodeClass :=
  [frame, shape .rectangle, shape .ellipse, shape .group, shape .component, instanceOf, text,
    path .line, path .vector, other]

theorem NodeClass.mem_all (c : NodeClass) : c ∈ all := by
  cases c with
  | shape form => cases form <;> decide
  | path form => cases form <;> decide
  | frame | instanceOf | text | other => decide

/-- The fields of a class are proper: no key spells two of them, and none spells the children. -/
theorem NodeClass.fields_proper (c : NodeClass) : c.fields.Proper where
  regular name hname := by
    have hshared : ∀ name ∈ "bound_variables" :: "type" :: Attributes.plainFields,
        FieldName.Regular name := by decide +kernel
    have hown : ∀ c ∈ all, ∀ name ∈ c.ownFields.names, FieldName.Regular name := by decide +kernel
    simp only [fields, Fields.names, List.map_cons, List.mem_append, List.mem_cons] at hname
    rcases hname with ((rfl | hname) | hname) | rfl | hname
    · exact hshared _ (by decide)
    · exact hshared _ (List.mem_cons_of_mem _ (List.mem_cons_of_mem _ hname))
    · exact hown c c.mem_all _ (List.mem_append_left _ hname)
    · exact hshared _ (by decide)
    · exact hown c c.mem_all _ (List.mem_append_right _ hname)
  childless := by
    have hall : ∀ c ∈ all, "children" ∉ c.fields.names := by decide +kernel
    exact hall c c.mem_all
  apart := by
    have hall : ∀ c ∈ all, ∀ name ∈ c.fields.nested.map (·.1), name ∉ c.fields.plain := by
      decide +kernel
    exact hall c c.mem_all
  distinct := by
    have hall : ∀ c ∈ all, (c.fields.nested.map (·.1)).Nodup := by decide +kernel
    exact hall c c.mem_all

section

variable {ms ns : Json.Members}

/-- Attributes are accepted alike from the same values and from bindings that are accepted alike. -/
theorem Attributes.accepted_ofMembers
    (h : SameValues Attributes.plainFields ms ns)
    (hbindings : ∀ default,
        (Reading.withDefault "bound_variables" default Bindings.read ns).accepted =
      (Reading.withDefault "bound_variables" default Bindings.read ms).accepted)
    (inherited : Option String) :
    (Attributes.ofMembers inherited ns).accepted =
        (Attributes.ofMembers inherited ms).accepted := by
  have hbox : (Box.ofMembers ns).accepted = (Box.ofMembers ms).accepted := by
    simp (disch := decide) only [Box.ofMembers, Reading.accepted_seq, Reading.accepted_functor,
      h.withDefault, h.optional]
  have harrangement : (Arrangement.ofMembers ns).accepted =
      (Arrangement.ofMembers ms).accepted := by
    simp (disch := decide) only [Arrangement.ofMembers, Reading.accepted_seq,
      Reading.accepted_functor, h.optional]
  simp (disch := decide) only [Attributes.ofMembers, Reading.accepted_seq,
    Reading.accepted_functor, h.withDefault, hbox, harrangement, hbindings]

theorem NodeClass.accepted_readType
    {c : NodeClass} (h : SameValues ["type"] ms ns) :
    (c.readType ns).accepted = (c.readType ms).accepted := by
  unfold readType
  split
  · exact h.withDefault _ (by decide) _ _
  · exact h.required _ (by decide) _

/-- What a node is of its kind is accepted alike from the same values and from paints that are
accepted alike. -/
theorem NodeClass.accepted_readKind
    {c : NodeClass} (h : SameValues c.ownFields.plain ms ns)
    (hpaints : ∀ e ∈ c.ownFields.nested, ∀ default,
      (Reading.withDefault e.1 default (Reading.list Paint.read) ns).accepted =
        (Reading.withDefault e.1 default (Reading.list Paint.read) ms).accepted) :
    (c.readKind ns).accepted = (c.readKind ms).accepted := by
  cases c with
  | frame =>
      simp (disch := decide) only [readKind, Reading.accepted_functor, h.withDefault]
  | shape form =>
      have hfills := hpaints _ List.mem_cons_self []
      have hstrokes := hpaints _ (List.mem_cons_of_mem _ List.mem_cons_self) []
      change SameValues NodeClass.outlineFields ms ns at h
      simp (disch := decide) only [readKind, Paints.ofMembers, Radii.ofMembers,
        Reading.accepted_seq, Reading.accepted_functor, h.optional, hfills, hstrokes]
  | instanceOf =>
      simp (disch := decide) only [readKind, Reading.accepted_functor, h.optional]
  | text =>
      have hfills := hpaints _ List.mem_cons_self []
      simp (disch := decide) only [readKind, TextContent.ofMembers, Reading.accepted_seq,
        Reading.accepted_functor, h.withDefault, h.optional, hfills]
  | path form =>
      have hfills := hpaints _ List.mem_cons_self []
      have hstrokes := hpaints _ (List.mem_cons_of_mem _ List.mem_cons_self) []
      change SameValues ["stroke_weight"] ms ns at h
      simp (disch := decide) only [readKind, Paints.ofMembers, Reading.accepted_seq,
        Reading.accepted_functor, h.optional, hfills, hstrokes]
  | other => rfl

end

/-- Both are defects, or both are members that agree. -/
inductive AgreeOrFail (f : Fields) :
    Except Json.Defect Json.Members → Except Json.Defect Json.Members → Prop
  | agree {ms ns : Json.Members} : Agree f ms ns → AgreeOrFail f (.ok ms) (.ok ns)
  | fail (d : Json.Defect) : AgreeOrFail f (.error d) (.error d)

namespace TextContent

variable {ms ns : Json.Members}

/-- The fields of a text but for those that its style or its font gives. -/
abbrev freeFields (ms : Json.Members) : Fields := NodeClass.text.fields.without (gives ms)

/-- A field that is left free is not spelled like a key that the style gives. -/
theorem not_spells_given
    {name : String} (hname : name ∈ (freeFields ms).names) {key : String} (hkey : key ∈ styleKeys)
    (hgives : ∀ name, FieldName.camel name = key → gives ms name = true) :
    ¬ FieldName.Spells name key := by
  have hnested : ∀ name ∈ NodeClass.text.fields.nested.map (·.1),
      FieldName.camel name ∉ styleKeys ∧ name ∉ styleKeys := by decide
  have hplain : ∀ name ∈ NodeClass.text.fields.plain, name ∉ styleKeys := by decide
  rcases List.mem_append.1 hname with hname | hname
  · obtain ⟨hname, hfree⟩ := List.mem_filter.1 hname
    rintro (hspelled | rfl)
    · simp [hgives name hspelled.symm] at hfree
    · exact hplain _ hname hkey
  · rintro (rfl | rfl)
    · exact (hnested _ hname).1 hkey
    · exact (hnested _ hname).2 hkey

theorem not_spells_source
    {name : String} (hname : name ∈ (freeFields ms).names) :
    ¬ FieldName.Spells name "style" ∧ ¬ FieldName.Spells name "fontName" := by
  have hnames : ∀ name ∈ NodeClass.text.fields.names,
      ¬ FieldName.Spells name "style" ∧ ¬ FieldName.Spells name "fontName" := by decide
  exact hnames name (Fields.mem_names_of_without hname)

/-- The style gives the same fields to members that agree on the others. -/
theorem liftStyle_agree
    {given : Json.Members} (keys : List String) (hkeys : ∀ key ∈ keys, key ∈ styleKeys)
    (h : Agree (freeFields given) ms ns) :
    AgreeOrFail (freeFields given) (liftStyle (styleOf given) keys ms)
      (liftStyle (styleOf given) keys ns) := by
  induction keys generalizing ms ns with
  | nil => exact .agree h
  | cons key keys ih =>
      obtain ⟨hkey, hrest⟩ := List.forall_mem_cons.1 hkeys
      unfold liftStyle
      cases hmentions : (styleOf given).mentions key with
      | error d => exact .fail d
      | ok found =>
          cases found with
          | false => exact ih hrest h
          | true =>
              -- The key is new only to fields that keep their spelling.
              have hgiven : ∀ name ∈ (freeFields given).names, ¬ FieldName.Spells name key := by
                intro name hname
                refine not_spells_given hname hkey ?_
                rintro name rfl
                simp [gives, styleMentions, hmentions, hkey]
              have hchildren : ∀ key ∈ styleKeys, key ≠ "children" := by decide
              have hhas : Json.hasKey key ns = Json.hasKey key ms :=
                congrArg Option.isSome (h.other key (hchildren key hkey) hgiven)
              simp only [hhas]
              split
              · exact ih hrest h
              · cases (styleOf given).required key with
                | error d => exact .fail d
                | ok v => exact ih hrest (h.insert hgiven v)

/-- The font gives the same family to members that agree on all that it does not give. -/
theorem liftFont_agree
    {given : Json.Members} (h : Agree (freeFields given) ms ns) :
    Agree (freeFields given) (liftFont (Json.find? "fontName" given) ms)
      (liftFont (Json.find? "fontName" given) ns) := by
  unfold liftFont
  split
  next entries hfont =>
    have hfamily : "fontFamily" ∈ styleKeys := by decide
    have hgiven : ∀ name ∈ (freeFields given).names, ¬ FieldName.Spells name "fontFamily" := by
      intro name hname
      refine not_spells_given hname hfamily ?_
      intro name hname
      simp [gives, hname, hfont, Json.members?]
    have hhas : Json.hasKey "fontFamily" ns = Json.hasKey "fontFamily" ms :=
      congrArg Option.isSome (h.other _ (by decide) hgiven)
    unfold Json.setDefault
    rw [hhas]
    split
    · exact h
    · exact h.insert hgiven _
  next => exact h

theorem lift_eq (ms : Json.Members) :
    lift ms =
      match liftStyle (styleOf ms) styleKeys (Json.erase "style" ms) with
      | .error d => .error d
      | .ok lifted => .ok (liftFont (Json.find? "fontName" ms) (Json.erase "fontName" lifted)) :=
  rfl

/-- Typography is lifted alike as far as the style does not decide which key counts. -/
theorem lift_agree (h : Agree (freeFields ms) ms ns) :
    AgreeOrFail (freeFields ms) (lift ms) (lift ns) := by
  have hstyle : styleOf ns = styleOf ms := by
    rw [styleOf, styleOf, h.other _ (by decide) fun _ hname => (not_spells_source hname).1]
  have hfont : Json.find? "fontName" ns = Json.find? "fontName" ms :=
    h.other _ (by decide) fun _ hname => (not_spells_source hname).2
  have hlift := liftStyle_agree styleKeys (fun _ hkey => hkey)
    (h.erase fun _ hname => (not_spells_source hname).1)
  rw [lift_eq, lift_eq, hstyle, hfont]
  generalize liftStyle (styleOf ms) styleKeys (Json.erase "style" ms) = x at hlift ⊢
  generalize liftStyle (styleOf ms) styleKeys (Json.erase "style" ns) = y at hlift ⊢
  cases hlift with
  | agree h => exact .agree (liftFont_agree (h.erase fun _ hname => (not_spells_source hname).2))
  | fail d => exact .fail d

end TextContent

/-- Members that agree but for fields that a style or a font gives agree after lifting. -/
theorem NodeClass.lift_agree
    {c : NodeClass} {ms ns : Json.Members} (h : Agree (c.fields.without (c.gives ms)) ms ns) :
    AgreeOrFail c.fields (c.lift ms) (c.lift ns) := by
  have hfree : AgreeOrFail (c.fields.without (c.gives ms)) (c.lift ms) (c.lift ns) := by
    cases c with
    | text => exact TextContent.lift_agree h
    | _ => exact .agree h
  generalize c.lift ms = x at hfree ⊢
  generalize c.lift ns = y at hfree ⊢
  cases hfree with
  | agree h => exact .agree (h.of_without c.fields_proper)
  | fail d => exact .fail d

section

variable {c : NodeClass} {ms ns : Json.Members}

theorem NodeClass.ofMembers_eq_of_agree (h : Agree c.fields ms ns) :
    ofMembers ns = ofMembers ms := by
  have htype : Json.find? "type" ns = Json.find? "type" ms := by
    have hvalue := h.plain "type" List.mem_cons_self
    rwa [FieldName.value?_of_camel (by decide), FieldName.value?_of_camel (by decide)] at hvalue
  rw [ofMembers, ofMembers, htype]

theorem NodeClass.inherited_eq_of_agree (h : Agree c.fields ms ns) :
    c.inherited ns = c.inherited ms := by
  have hsame : SameValues ["type"] ms ns := by
    intro name hname
    exact h.plain name (by simp_all [fields])
  rw [inherited_eq, inherited_eq, accepted_readType hsame]

/-- A node that is put together from members that agree is the same. -/
theorem Node.accepted_assemble
    (h : Agree (c.fields.without (c.gives ms)) ms ns) (inherited : Option String)
    {xs ys : Reading (List Node)} (hchildren : ys.accepted = xs.accepted) :
    (assemble c inherited ns ys).accepted = (assemble c inherited ms xs).accepted := by
  have hlift := NodeClass.lift_agree h
  unfold assemble
  generalize c.lift ms = x at hlift ⊢
  generalize c.lift ns = y at hlift ⊢
  cases hlift with
  | fail d => rfl
  | @agree ms ns h =>
      have hplain : ∀ names, names ⊆ c.fields.plain → SameValues names ms ns :=
        fun names hnames name hname => h.plain name (hnames hname)
      have htype : (c.readType ns).accepted = (c.readType ms).accepted :=
        NodeClass.accepted_readType (hplain _ (by simp [NodeClass.fields]))
      have hattributes : (Attributes.ofMembers inherited ns).accepted =
          (Attributes.ofMembers inherited ms).accepted :=
        Attributes.accepted_ofMembers (hplain _ (by simp [NodeClass.fields]))
          (h.withDefault List.mem_cons_self Bindings.read_faithful) inherited
      have hkind : (c.readKind ns).accepted = (c.readKind ms).accepted := by
        refine NodeClass.accepted_readKind (hplain _ (by simp [NodeClass.fields])) ?_
        intro e he
        have hpaints : (e.1, ListAlike (ObjectAlike Paint.fields)) ∈ c.fields.nested :=
          NodeClass.ownFields_nested he ▸ List.mem_cons_of_mem _ he
        exact h.withDefault hpaints (faithful_list Paint.read_faithful)
      simp only [Reading.accepted_seq, Reading.accepted_functor, Reading.accepted_within, htype,
        hattributes, hchildren, hkind]

end

theorem RespelledMembers.alike
    {kept : NodeClass → Json.Members → String → Bool} {f : Fields} {ms ns : List (String × Json)}
    (h : RespelledMembers kept f ms ns) : List.Forall₂ (MemberAlike f) ms ns :=
  match h with
  | .nil => .nil
  | .entry hentry hrest => .cons (.inl hentry) hrest.alike
  | .children _ hrest => .cons (.inr ⟨rfl, rfl⟩) hrest.alike

mutual

/-- Reading comes to the same for a tree that is respelled. -/
theorem Node.accepted_read
    {v w : Json} (h : Respelled NodeClass.gives v w) (P : Option String) :
    (read P w).accepted = (read P v).accepted := by
  match h with
  | .same v => rfl
  | @Respelled.node _ c ms ns hclass honce hmembers =>
      have hproper := c.fields_proper.without (c.gives ms)
      have hagree := agree_of_entries hproper honce hmembers.alike
      -- The class and the inherited type are found before anything is lifted.
      have hfull := hagree.of_without c.fields_proper
      rw [read, read, NodeClass.ofMembers_eq_of_agree hfull, hclass]
      change (assemble c P ns (childrenIn (c.inherited ns) ns)).accepted =
        (assemble c P ms (childrenIn (c.inherited ms) ms)).accepted
      rw [NodeClass.inherited_eq_of_agree hfull]
      exact accepted_assemble hagree P (accepted_childrenIn hproper hmembers _)

theorem Node.accepted_childrenIn
    {f : Fields} {ms ns : List (String × Json)} (hf : f.Proper)
    (h : RespelledMembers NodeClass.gives f ms ns) (P : Option String) :
    (childrenIn P ns).accepted = (childrenIn P ms).accepted := by
  match h with
  | .nil => rfl
  | .entry hentry hrest =>
      have ih := accepted_childrenIn hf hrest P
      -- The search for the children goes past the same entries in both objects.
      have hne : ∀ name ∈ f.names, ∀ key, FieldName.Spells name key → key ≠ "children" := by
        rintro name hname key hkey rfl
        exact not_spells_children hf hname hkey
      cases hentry with
      | plain hname hkey hkey' =>
          have hmem := List.mem_append_left (f.nested.map (·.1)) hname
          rw [childrenIn, childrenIn, if_neg (hne _ hmem _ hkey), if_neg (hne _ hmem _ hkey'), ih]
      | nested hname hkey hkey' =>
          have hmem := List.mem_append_right f.plain (List.mem_map_of_mem (f := (·.1)) hname)
          rw [childrenIn, childrenIn, if_neg (hne _ hmem _ hkey), if_neg (hne _ hmem _ hkey'), ih]
      | other =>
          rw [childrenIn, childrenIn]
          split
          · rfl
          · exact ih
  | .children hchildren hrest =>
      rw [childrenIn, childrenIn, if_pos rfl, if_pos rfl]
      exact accepted_childrenOf hchildren P

theorem Node.accepted_childrenOf
    {v w : Json} (h : RespelledChildren NodeClass.gives v w) (P : Option String) :
    (childrenOf P w).accepted = (childrenOf P v).accepted := by
  match h with
  | .same v => rfl
  | .items hitems =>
      rw [childrenOf, childrenOf, Reading.accepted_andThen, Reading.accepted_andThen,
        accepted_readItems hitems P]

/-- Respelled items are accepted alike, one by one. -/
theorem Node.accepted_readItems
    {vs ws : List Json} (h : RespelledItems NodeClass.gives vs ws) (P : Option String) :
    (readItems P ws).accepted = (readItems P vs).accepted := by
  match h with
  | .nil => rfl
  | @RespelledItems.cons _ v _ _ _ hhead hrest =>
      have hnode := accepted_read hhead P
      have ih := accepted_readItems hrest P
      cases hhead with
      | same =>
          cases v <;> simp only [readItems, Reading.accepted_andThen, Reading.accepted_map, ih]
      | node => simp only [readItems, Reading.accepted_andThen, Reading.accepted_map, hnode, ih]

end

/-- **A scene does not depend on how the fields are spelled** that no style and no font gives: the
same scene is read from a tree with other spellings of them, at any level. -/
theorem Node.read_respelled
    {v w : Json} {n : Node} (h : Respelled NodeClass.gives v w) (hv : read none v = .value n) :
    read none w = .value n := by
  rw [← Reading.accepted_eq_some] at hv ⊢
  rw [accepted_read h, hv]

/-- A fill that binds its color under a key. -/
def boundFill (binding : String) : Json :=
  .obj [("type", .str "SOLID"), (binding, .obj [("color", .obj [("id", .str "ink")])])]

/-- A card with a text to which a style gives the size, but not the weight. -/
def card (gap weight binding : String) : Json :=
  .obj [("type", .str "FRAME"), (gap, .int 4), ("children", .arr [
    .obj [("type", .str "TEXT"), (weight, .int 400), ("style", .obj [("fontSize", .int 20)]),
      ("fills", .arr [boundFill binding])]])]

theorem card_respelled :
    Respelled NodeClass.gives (card "itemSpacing" "fontWeight" "boundVariables")
      (card "item_spacing" "font_weight" "bound_variables") := by
  have hfill : ObjectAlike Paint.fields (boundFill "boundVariables")
      (boundFill "bound_variables") :=
    .members (by decide +kernel)
      (.cons (.plain List.mem_cons_self (by decide) (by decide))
        (.cons (.nested (List.mem_cons_of_mem _ (List.mem_cons_of_mem _ List.mem_cons_self))
          (by decide) (by decide) (.same _)) .nil))
  refine .node rfl (by decide +kernel)
    (.entry (.plain List.mem_cons_self (by decide) (by decide)) ?_)
  refine .entry (@EntryAlike.plain _ "item_spacing" _ _ _ (by decide) (by decide) (by decide)) ?_
  refine .children (.items (.cons ?_ .nil)) .nil
  refine .node rfl (by decide +kernel)
    (.entry (.plain List.mem_cons_self (by decide) (by decide)) ?_)
  refine .entry (@EntryAlike.plain _ "font_weight" _ _ _ (by decide) (by decide) (by decide)) ?_
  refine .entry (.other (by decide)) (.entry ?_ .nil)
  exact .nested (List.mem_cons_of_mem _ List.mem_cons_self) (by decide) (by decide)
    (.items (.cons hfill .nil))

theorem read_respelled_card :
    ∃ n, Node.read none (card "itemSpacing" "fontWeight" "boundVariables") = .value n ∧
      Node.read none (card "item_spacing" "font_weight" "bound_variables") = .value n := by
  obtain ⟨n, hn⟩ : ∃ n,
      Node.read none (card "itemSpacing" "fontWeight" "boundVariables") = .value n := ⟨_, rfl⟩
  exact ⟨n, hn, Node.read_respelled card_respelled hn⟩

/-- A text with a size of its own, and another one in its style. -/
def sizedText (size : String) : Json :=
  .obj [("type", .str "TEXT"), (size, .int 12), ("style", .obj [("fontSize", .int 20)])]

/-- The size of the text is its own in camel case, and that of the style otherwise. -/
theorem style_outweighs :
    ∃ n m, Respelled (fun _ _ _ => false) (sizedText "fontSize") (sizedText "font_size") ∧
      Node.read none (sizedText "fontSize") = .value n ∧
      Node.read none (sizedText "font_size") = .value m ∧ n ≠ m := by
  have hrespelled :
      Respelled (fun _ _ _ => false) (sizedText "fontSize") (sizedText "font_size") := by
    refine .node rfl (by decide +kernel)
      (.entry (.plain List.mem_cons_self (by decide) (by decide)) ?_)
    exact .entry (@EntryAlike.plain _ "font_size" _ _ _ (by decide) (by decide) (by decide))
      (.entry (.other (by decide)) .nil)
  refine ⟨_, _, hrespelled, rfl, rfl, ?_⟩
  intro hsame
  have hkind := congrArg Node.kind hsame
  simp only [Node.kind, Kind.text.injEq, TextContent.mk.injEq, Option.some.injEq] at hkind
  exact absurd hkind.2.2.2.1 (by decide)

end SceneMarkup
