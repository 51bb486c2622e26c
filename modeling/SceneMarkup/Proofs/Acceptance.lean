import SceneMarkup.Proofs.Parents

/-!
# Accepted readings

A reading comes to a value, or to issues, or to a defect. What a scene looks like concerns the first
case only, so this file drops the other two (`Reading.accepted`): a reading that is put together
from others is accepted when all of them are.

* `Node.assemble_eq_value`: a node is accepted from members when its type, its attributes, its
  children and its kind are.
* `NodeClass.readType_eq_value`: the type of an accepted node is the text that the members give, and
  the class is the one of this type.
* `NodeClass.find?_lift`: what a style and a font give to a text changes none of its other members.
-/

namespace SceneMarkup

namespace Reading

variable {α β : Type}

/-- The value that a reading comes to, if it is accepted. -/
def accepted : Reading α → Option α
  | value a => some a
  | invalid _ => none
  | defect _ => none

/-- A reading is accepted if and only if it is a value. -/
theorem accepted_eq_some {r : Reading α} {a : α} : r.accepted = some a ↔ r = value a := by
  cases r <;> simp [accepted]

@[simp] theorem accepted_value (a : α) : (value a).accepted = some a :=
  rfl

@[simp] theorem accepted_issue (r : Reason) : (issue r : Reading α).accepted = none :=
  rfl

@[simp] theorem accepted_map (f : α → β) (r : Reading α) :
    (map f r).accepted = r.accepted.map f := by
  cases r <;> rfl

@[simp] theorem accepted_functor (f : α → β) (r : Reading α) :
    (f <$> r).accepted = r.accepted.map f :=
  accepted_map f r

/-- Both parts of a reading have to be accepted. -/
@[simp] theorem accepted_both (f : Reading (α → β)) (x : Reading α) :
    (both f x).accepted = f.accepted.bind fun g => x.accepted.map g := by
  cases f <;> cases x <;> rfl

@[simp] theorem accepted_seq (f : Reading (α → β)) (x : Reading α) :
    (f <*> x).accepted = f.accepted.bind fun g => x.accepted.map g :=
  accepted_both f x

@[simp] theorem accepted_within (step : Step) (r : Reading α) :
    (r.within step).accepted = r.accepted := by
  cases r <;> rfl

/-- What follows a reading is asked only where this is accepted. -/
@[simp] theorem accepted_andThen (r : Reading α) (k : α → Reading β) :
    (r.andThen k).accepted = r.accepted.bind fun a => (k a).accepted := by
  cases r <;> rfl

end Reading

/-- The value of a field, under whichever of its spellings it is found. -/
def FieldName.value? (name : String) (ms : Json.Members) : Option Json :=
  (FieldName.find? name ms).map (·.2)

namespace FieldName

/-- A field is looked for in camel case first. -/
theorem value?_eq (name : String) (ms : Json.Members) :
    value? name ms = (Json.find? (camel name) ms).or (Json.find? name ms) := by
  unfold value? find?
  cases Json.find? (camel name) ms with
  | some v => rfl
  | none => cases Json.find? name ms <;> rfl

/-- A name of one word has one spelling only. -/
theorem value?_of_camel {name : String} (hname : camel name = name) (ms : Json.Members) :
    value? name ms = Json.find? name ms := by
  rw [value?_eq, hname, Option.or_self]

end FieldName

namespace Reading

variable {α : Type}

/-- A field with a default is accepted where it is missing, and otherwise if its value is. -/
theorem accepted_withDefault
    (name : String) (default : α) (read : Json → Reading α) (ms : Json.Members) :
    (withDefault name default read ms).accepted =
      match FieldName.value? name ms with
      | some v => (read v).accepted
      | none => some default := by
  unfold withDefault FieldName.value?
  cases FieldName.find? name ms with
  | some found => exact accepted_within _ _
  | none => rfl

/-- A required field is accepted if it is there and its value is accepted. -/
theorem accepted_required (name : String) (read : Json → Reading α) (ms : Json.Members) :
    (required name read ms).accepted = (FieldName.value? name ms).bind fun v =>
        (read v).accepted := by
  unfold required FieldName.value?
  cases FieldName.find? name ms with
  | some found => exact accepted_within _ _
  | none => rfl

theorem text_eq_value {v : Json} {s : String} : text v = .value s ↔ v = .str s := by
  cases v <;> simp [text, issue]

/-- A text that may be null is read from itself or from null. -/
theorem nullableText_eq_value {v : Json} {P : Option String} :
    nullable text v = .value P ↔ v = Client.textOrNull P := by
  cases v <;> cases P <;> simp [nullable, text, issue, map, Client.textOrNull]

end Reading

namespace NodeClass

theorem type?_ofType {type t : String} (h : (ofType type).type? = some t) : t = type := by
  unfold ofType at h
  split_ifs at h <;> simp_all [type?]

/-- Children inherit the type that is read. -/
theorem inherited_eq (c : NodeClass) (ms : Json.Members) :
    c.inherited ms = (c.readType ms).accepted := by
  unfold inherited
  cases c.readType ms <;> rfl

/-- An accepted type is a text, and decides the class. -/
theorem readType_eq_value
    {c : NodeClass} {ms : Json.Members} {type : String}
    (hc : ofMembers ms = .ok c) (htype : c.readType ms = .value type) :
    Json.find? "type" ms = some (.str type) ∧ c = ofType type := by
  have hvalue : FieldName.value? "type" ms = Json.find? "type" ms :=
    FieldName.value?_of_camel (by decide) ms
  have haccepted := Reading.accepted_eq_some.2 htype
  unfold ofMembers at hc
  cases hfound : Json.find? "type" ms with
  | none =>
      rw [hfound] at hc hvalue
      cases hc
      simp [readType, type?, Reading.accepted_required, hvalue] at haccepted
  | some v =>
      rw [hfound] at hc hvalue
      cases v with
      | str s =>
          obtain rfl : ofType s = c := by simpa using hc
          unfold readType at haccepted
          split at haccepted
          next t ht =>
            obtain rfl := type?_ofType ht
            simp only [Reading.accepted_withDefault, hvalue, Reading.literal, if_true,
              Reading.accepted_value, Option.some.injEq] at haccepted
            subst haccepted
            exact ⟨rfl, rfl⟩
          next =>
            simp only [Reading.accepted_required, hvalue, Reading.text, Option.bind_some,
              Reading.accepted_value, Option.some.injEq] at haccepted
            subst haccepted
            exact ⟨rfl, rfl⟩
      | arr | obj => cases hc
      | null | bool | int | float =>
          cases hc
          simp [readType, type?, Reading.accepted_required, hvalue, Reading.text] at haccepted

/-- An accepted kind belongs to the class that it is read for, and has its type. -/
theorem readKind_eq_value
    {c : NodeClass} {ms : Json.Members} {kind : String → Kind}
    (h : c.readKind ms = .value kind) {type : String} (hc : c = ofType type) :
    (kind type).type = type ∧ (kind type).nodeClass = c := by
  have hnamed : ∀ t, c.type? = some t → t = type := fun t ht => type?_ofType (hc ▸ ht)
  have haccepted := Reading.accepted_eq_some.2 h
  clear h hc
  cases c with
  | frame =>
      simp only [readKind, Reading.accepted_functor, Option.map_eq_some_iff] at haccepted
      obtain ⟨mode, -, rfl⟩ := haccepted
      exact ⟨hnamed _ rfl, rfl⟩
  | shape form =>
      simp only [readKind, Reading.accepted_seq, Reading.accepted_functor,
        Option.bind_eq_some_iff, Option.map_eq_some_iff] at haccepted
      obtain ⟨_, ⟨paints, -, rfl⟩, radii, -, rfl⟩ := haccepted
      cases form <;> exact ⟨hnamed _ rfl, rfl⟩
  | instanceOf =>
      simp only [readKind, Reading.accepted_functor, Option.map_eq_some_iff] at haccepted
      obtain ⟨component, -, rfl⟩ := haccepted
      exact ⟨hnamed _ rfl, rfl⟩
  | text =>
      simp only [readKind, Reading.accepted_functor, Option.map_eq_some_iff] at haccepted
      obtain ⟨content, -, rfl⟩ := haccepted
      exact ⟨hnamed _ rfl, rfl⟩
  | path form =>
      simp only [readKind, Reading.accepted_functor, Option.map_eq_some_iff] at haccepted
      obtain ⟨paints, -, rfl⟩ := haccepted
      cases form <;> exact ⟨hnamed _ rfl, rfl⟩
  | other =>
      simp only [readKind, Reading.accepted_value, Option.some.injEq] at haccepted
      subst haccepted
      exact ⟨rfl, rfl⟩

end NodeClass

/-- The keys under which a text gets something from its style or its font, and the keys of these. -/
def TextContent.liftedKeys : List String := "style" :: "fontName" :: styleKeys

namespace TextContent

theorem find?_liftStyle
    {style : Json} {keys : List String} {ms lifted : Json.Members}
    (h : liftStyle style keys ms = .ok lifted) {key : String} (hkey : key ∉ keys) :
    Json.find? key lifted = Json.find? key ms := by
  induction keys generalizing ms with
  | nil =>
      cases h
      rfl
  | cons k keys ih =>
      obtain ⟨hhead, hrest⟩ : key ≠ k ∧ key ∉ keys := by simpa using hkey
      unfold liftStyle at h
      split at h
      next => cases h
      next => exact ih h hrest
      next =>
        split at h
        next => exact ih h hrest
        next =>
          split at h
          next => cases h
          next v _ => rw [ih h hrest, Json.find?_insert, if_neg (Ne.symm hhead)]

theorem find?_liftFont
    (font : Option Json) {key : String} (hkey : key ≠ "fontFamily") (ms : Json.Members) :
    Json.find? key (liftFont font ms) = Json.find? key ms := by
  unfold liftFont Json.setDefault
  split
  · split
    · rfl
    · rw [Json.find?_insert, if_neg (Ne.symm hkey)]
  · rfl

end TextContent

/-- Lifting what a style and a font give leaves all other members as they are. -/
theorem NodeClass.find?_lift
    {c : NodeClass} {ms lifted : Json.Members} (h : c.lift ms = .ok lifted)
    {key : String} (hkey : key ∉ TextContent.liftedKeys) :
    Json.find? key lifted = Json.find? key ms := by
  cases c with
  | text =>
      simp only [TextContent.liftedKeys, TextContent.styleKeys, List.mem_cons, List.not_mem_nil,
        or_false, not_or] at hkey
      obtain ⟨hstyle, hfont, hfamily, hrest⟩ := hkey
      simp only [NodeClass.lift, TextContent.lift] at h
      split at h
      next => cases h
      next styled hstyled =>
        cases h
        rw [TextContent.find?_liftFont _ hfamily, Json.find?_erase, if_neg (Ne.symm hfont),
          TextContent.find?_liftStyle hstyled (by simp [TextContent.styleKeys, hfamily, hrest]),
          Json.find?_erase, if_neg (Ne.symm hstyle)]
  | _ =>
      cases h
      rfl

/-- A node is assembled from its type, its attributes, its children and its kind, all of them
accepted. -/
theorem Node.assemble_eq_value
    {c : NodeClass} {inherited : Option String} {ms : Json.Members}
    {children : Reading (List Node)} {n : Node}
    (h : Node.assemble c inherited ms children = .value n) :
    ∃ lifted type attributes cs kind, c.lift ms = .ok lifted ∧
      c.readType lifted = .value type ∧ Attributes.ofMembers inherited lifted = .value attributes ∧
      children = .value cs ∧ c.readKind lifted = .value kind ∧
      n = .mk attributes (kind type) cs := by
  unfold Node.assemble at h
  cases hlift : c.lift ms with
  | error d =>
      rw [hlift] at h
      cases h
  | ok lifted =>
      rw [hlift] at h
      have haccepted := Reading.accepted_eq_some.2 h
      simp only [Reading.accepted_seq, Reading.accepted_functor, Reading.accepted_within,
        Option.bind_eq_some_iff, Option.map_eq_some_iff, Reading.accepted_eq_some] at haccepted
      obtain ⟨_, ⟨_, ⟨_, ⟨type, htype, rfl⟩, attributes, hattributes, rfl⟩, cs, hcs, rfl⟩,
        kind, hkind, rfl⟩ := haccepted
      exact ⟨lifted, type, attributes, cs, kind, rfl, htype, hattributes, hcs, hkind, rfl⟩

/-- Attributes that are read have the identifier, the name, the parent type and the box that are
read. -/
theorem Attributes.ofMembers_eq_value
    {inherited : Option String} {ms : Json.Members} {a : Attributes}
    (h : Attributes.ofMembers inherited ms = .value a) :
    Reading.withDefault "id" "" Reading.text ms = .value a.id ∧
      Reading.withDefault "name" "" Reading.text ms = .value a.name ∧
      Reading.withDefault "parent_type" inherited (Reading.nullable Reading.text) ms =
        .value a.parentType ∧
      Box.ofMembers ms = .value a.box := by
  have haccepted := Reading.accepted_eq_some.2 h
  simp only [Attributes.ofMembers, Reading.accepted_seq, Reading.accepted_functor,
    Option.bind_eq_some_iff, Option.map_eq_some_iff, Reading.accepted_eq_some] at haccepted
  obtain ⟨_, ⟨_, ⟨_, ⟨_, ⟨_, ⟨_, ⟨id, hid, rfl⟩, name, hname, rfl⟩, parentType, hparent, rfl⟩,
    box, hbox, rfl⟩, arrangement, -, rfl⟩, opacity, -, rfl⟩, bindings, -, rfl⟩ := haccepted
  exact ⟨hid, hname, hparent, hbox⟩

end SceneMarkup
