import Mathlib.Data.List.Forall2
import Mathlib.Data.List.Nodup
import SceneMarkup.Proofs.Acceptance

/-!
# Spellings of fields

A field can be spelled in two ways, and an object may give each of its fields in either of them. Two
objects are alike (`ObjectAlike`) when one arises from the other by spelling fields otherwise, in it
and in the values of its fields.

What a reader finds does not depend on the spelling as long as no field is given twice: `Agree` says
so of the members as they are looked up, and `agree_of_entries` derives it from the entries. A
reader that comes to the same for values that are alike is `Faithful`; lists and objects of what is
read faithfully are read faithfully.
-/

namespace SceneMarkup

namespace FieldName

/-- A key spells a field: in camel case, or as the field is named. -/
def Spells (name key : String) : Prop := key = camel name ∨ key = name

instance (name key : String) : Decidable (Spells name key) := inferInstanceAs (Decidable (_ ∨ _))

/-- An underscore and the small letter for a capital one. -/
def snakeChar (c : Char) : List Char := if c.isUpper then ['_', Text.lowerAscii c] else [c]

/-- The letters of the name of the field that a key spells. -/
def snake (key : String) : List Char := key.toList.flatMap snakeChar

/-- A name that can be told from both of its spellings. -/
def Regular (name : String) : Prop := snake (camel name) = name.toList ∧ snake name = name.toList

instance (name : String) : Decidable (Regular name) := inferInstanceAs (Decidable (_ ∧ _))

/-- From a spelling of a regular name the name can be told. -/
theorem snake_of_spells {name key : String} (hname : Regular name) (h : Spells name key) :
    snake key = name.toList := by
  rcases h with rfl | rfl
  · exact hname.1
  · exact hname.2

/-- A key spells one regular name at most. -/
theorem eq_of_spells
    {name name' key : String} (hname : Regular name) (hname' : Regular name')
    (h : Spells name key) (h' : Spells name' key) : name = name' :=
  String.toList_inj.1 ((snake_of_spells hname h).symm.trans (snake_of_spells hname' h'))

/-- If a field is given once at most, then its value is that of the first key that spells it. -/
theorem value?_eq_find?
    {name : String} {ms : Json.Members}
    (hms : (ms.filter fun m => Spells name m.1).length ≤ 1) :
    value? name ms = (ms.find? fun m => Spells name m.1).map (·.2) := by
  rw [value?_eq]
  induction ms with
  | nil => rfl
  | cons m rest ih =>
      obtain ⟨key, v⟩ := m
      by_cases hkey : Spells name key
      · have hnone : ∀ k, Spells name k → Json.find? k rest = none := by
          have hrest : rest.filter (fun m => decide (Spells name m.1)) = [] := by
            simpa [hkey] using hms
          intro k hk
          clear ih hms
          induction rest with
          | nil => rfl
          | cons m rest ih =>
              obtain ⟨key', v'⟩ := m
              have hne : key' ≠ k := by
                rintro rfl
                simp [hk] at hrest
              have hfilter : rest.filter (fun m => decide (Spells name m.1)) = [] := by
                simp only [List.filter_cons] at hrest
                split at hrest
                · cases hrest
                · exact hrest
              rw [Json.find?, if_neg hne, ih hfilter]
        rcases hkey with rfl | rfl
        · simp [Json.find?, Spells]
        · have hcamel := hnone _ (.inl rfl)
          by_cases hsame : key = camel key
          · simp [Json.find?, Spells, ← hsame]
          · simp [Json.find?, Spells, hsame, hcamel]
      · have hcamel : key ≠ camel name := fun h => hkey (.inl h)
        have hname : key ≠ name := fun h => hkey (.inr h)
        have hrest : (rest.filter fun m => decide (Spells name m.1)).length ≤ 1 := by
          simpa [hkey] using hms
        simpa [Json.find?, hcamel, hname, hkey] using ih hrest

end FieldName

/-- A relation between values that say the same. -/
abbrev Likeness : Type := Json → Json → Prop

/-- The fields of objects of a sort: those with plain values, and those with values that may have
fields themselves. -/
structure Fields where
  plain : List String
  nested : List (String × Likeness)

namespace Fields

/-- The names of the fields. -/
def names (f : Fields) : List String := f.plain ++ f.nested.map (·.1)

/-- The fields but for some of those with plain values. -/
def without (f : Fields) (kept : String → Bool) : Fields :=
  { f with plain := f.plain.filter fun name => !kept name }

/-- Members give no field twice. -/
def Once (f : Fields) (ms : Json.Members) : Prop :=
  ∀ name ∈ f.names, (ms.filter fun m => FieldName.Spells name m.1).length ≤ 1

instance (f : Fields) (ms : Json.Members) : Decidable (f.Once ms) :=
  inferInstanceAs (Decidable (∀ name ∈ f.names, _))

/-- Each key spells one field at most, and none is the key of the children. -/
structure Proper (f : Fields) : Prop where
  regular : ∀ name ∈ f.names, FieldName.Regular name
  childless : "children" ∉ f.names
  apart : ∀ name ∈ f.nested.map (·.1), name ∉ f.plain
  distinct : (f.nested.map (·.1)).Nodup

instance (f : Fields) : Decidable f.Proper :=
  decidable_of_iff (_ ∧ _ ∧ _ ∧ _)
    ⟨fun ⟨h₁, h₂, h₃, h₄⟩ => ⟨h₁, h₂, h₃, h₄⟩, fun ⟨h₁, h₂, h₃, h₄⟩ => ⟨h₁, h₂, h₃, h₄⟩⟩

theorem mem_names_of_without {f : Fields} {kept : String → Bool} {name : String}
    (h : name ∈ (f.without kept).names) : name ∈ f.names := by
  rcases List.mem_append.1 h with hplain | hnested
  · exact List.mem_append_left _ (List.mem_filter.1 hplain).1
  · exact List.mem_append_right _ hnested

/-- Proper fields stay proper when some are left out. -/
theorem Proper.without {f : Fields} (hf : f.Proper) (kept : String → Bool) :
    (f.without kept).Proper := by
  constructor
  · exact fun name hname => hf.regular name (mem_names_of_without hname)
  · exact fun h => hf.childless (mem_names_of_without h)
  · exact fun name hname hplain => hf.apart name hname (List.mem_filter.1 hplain).1
  · exact hf.distinct

end Fields

/-- An entry with its key spelled otherwise. Keys that spell no field stay. -/
inductive EntryAlike (f : Fields) : String × Json → String × Json → Prop
  | plain {name key key' : String} {v : Json} :
      name ∈ f.plain → FieldName.Spells name key → FieldName.Spells name key' →
      EntryAlike f (key, v) (key', v)
  | nested {name key key' : String} {like : Likeness} {v v' : Json} :
      (name, like) ∈ f.nested → FieldName.Spells name key → FieldName.Spells name key' →
      like v v' → EntryAlike f (key, v) (key', v')
  | other {key : String} {v : Json} :
      (∀ name ∈ f.names, ¬ FieldName.Spells name key) → EntryAlike f (key, v) (key, v)

/-- Objects that spell their fields otherwise, each of which they give once. Other values are the
same. -/
inductive ObjectAlike (f : Fields) : Likeness
  | same (v : Json) : ObjectAlike f v v
  | members {ms ns : Json.Members} :
      f.Once ms → List.Forall₂ (EntryAlike f) ms ns → ObjectAlike f (.obj ms) (.obj ns)

/-- Lists of values that are alike. Other values are the same. -/
inductive ListAlike (like : Likeness) : Likeness
  | same (v : Json) : ListAlike like v v
  | items {vs ws : List Json} :
      List.Forall₂ like vs ws → ListAlike like (.arr vs) (.arr ws)

/-- Members that have the same under every field, however it is spelled, and under all other
keys, apart from that of the children. -/
structure Agree (f : Fields) (ms ns : Json.Members) : Prop where
  plain : ∀ name ∈ f.plain, FieldName.value? name ns = FieldName.value? name ms
  nested : ∀ e ∈ f.nested,
    Option.Rel e.2 (FieldName.value? e.1 ms) (FieldName.value? e.1 ns)
  other : ∀ key, key ≠ "children" → (∀ name ∈ f.names, ¬ FieldName.Spells name key) →
    Json.find? key ns = Json.find? key ms

/-- Entries that are alike, or that are both of the children. -/
def MemberAlike (f : Fields) (m m' : String × Json) : Prop :=
  EntryAlike f m m' ∨ m.1 = "children" ∧ m'.1 = "children"

section

variable {f : Fields} {ms ns : Json.Members}

/-- Members that are alike spell the same fields. -/
theorem spells_iff_of_memberAlike
    (hf : f.Proper) {m m' : String × Json} (h : MemberAlike f m m') {name : String}
    (hname : name ∈ f.names) :
    FieldName.Spells name m.1 ↔ FieldName.Spells name m'.1 := by
  -- A key that spells one field of the object spells no other one.
  have hone : ∀ name' ∈ f.names, ∀ key key', FieldName.Spells name' key →
      FieldName.Spells name' key' → FieldName.Spells name key → FieldName.Spells name key' := by
    intro name' hname' key key' hkey hkey' h
    have hsame : name' = name :=
      FieldName.eq_of_spells (hf.regular name' hname') (hf.regular name hname) hkey h
    exact hsame ▸ hkey'
  rcases h with h | ⟨hleft, hright⟩
  · cases h with
    | plain hmem hkey hkey' =>
        have hmem' := List.mem_append_left (f.nested.map (·.1)) hmem
        exact ⟨hone _ hmem' _ _ hkey hkey', hone _ hmem' _ _ hkey' hkey⟩
    | nested hmem hkey hkey' _ =>
        have hmem' := List.mem_append_right f.plain (List.mem_map_of_mem (f := (·.1)) hmem)
        exact ⟨hone _ hmem' _ _ hkey hkey', hone _ hmem' _ _ hkey' hkey⟩
    | other => exact Iff.rfl
  · rw [hleft, hright]

/-- A key spells one of the proper fields at most. -/
theorem eq_of_spells_both
    (hf : f.Proper) {name name' key : String} (hname : name ∈ f.names) (hname' : name' ∈ f.names)
    (h : FieldName.Spells name key) (h' : FieldName.Spells name' key) : name = name' :=
  FieldName.eq_of_spells (hf.regular name hname) (hf.regular name' hname') h h'

/-- No field is spelled like the children. -/
theorem not_spells_children (hf : f.Proper) {name : String} (hname : name ∈ f.names) :
    ¬ FieldName.Spells name "children" := by
  intro h
  have hregular : FieldName.Regular "children" := by decide
  have hsame := FieldName.eq_of_spells (hf.regular name hname) hregular h (.inr rfl)
  exact hf.childless (hsame ▸ hname)

/-- Among items that are alike, those that are found first are alike. -/
theorem find?_rel_of_forall₂
    {α : Type} {R : α → α → Prop} {p : α → Bool} {xs ys : List α}
    (h : List.Forall₂ R xs ys) (hp : ∀ x y, R x y → p x = p y) :
    Option.Rel (fun x y => R x y ∧ p x = true) (xs.find? p) (ys.find? p) := by
  induction h with
  | nil => exact .none
  | @cons x y xs ys hxy _ ih =>
      cases hx : p x with
      | true => simpa [List.find?_cons, hx, ← hp x y hxy] using hxy
      | false => simpa [List.find?_cons, hx, ← hp x y hxy] using ih

theorem length_filter_of_forall₂
    {α : Type} {R : α → α → Prop} {p : α → Bool} {xs ys : List α}
    (h : List.Forall₂ R xs ys) (hp : ∀ x y, R x y → p x = p y) :
    (ys.filter p).length = (xs.filter p).length := by
  induction h with
  | nil => rfl
  | @cons x y xs ys hxy _ ih => cases hx : p x <;> simp [hx, ← hp x y hxy, ih]

/-- What entries that are alike give for a field. -/
theorem value?_rel
    (hf : f.Proper) (honce : f.Once ms) (h : List.Forall₂ (MemberAlike f) ms ns) {name : String}
    (hname : name ∈ f.names) :
    Option.Rel (fun v w => ∃ key key', MemberAlike f (key, v) (key', w) ∧ FieldName.Spells name key)
      (FieldName.value? name ms) (FieldName.value? name ns) := by
  have hspells : ∀ m m', MemberAlike f m m' →
      decide (FieldName.Spells name m.1) = decide (FieldName.Spells name m'.1) :=
    fun m m' hm => decide_eq_decide.2 (spells_iff_of_memberAlike hf hm hname)
  have hms := honce name hname
  have hns : (ns.filter fun m => decide (FieldName.Spells name m.1)).length ≤ 1 := by
    rw [length_filter_of_forall₂ h hspells]
    exact hms
  rw [FieldName.value?_eq_find? hms, FieldName.value?_eq_find? hns]
  have hfound := find?_rel_of_forall₂ h hspells
  generalize ms.find? (fun m => decide (FieldName.Spells name m.1)) = x at hfound ⊢
  generalize ns.find? (fun m => decide (FieldName.Spells name m.1)) = y at hfound ⊢
  cases hfound with
  | none => exact .none
  | some hm => exact .some ⟨_, _, hm.1, by simpa using hm.2⟩

/-- **Members with entries that are alike agree**, if no field is given twice. -/
theorem agree_of_entries
    (hf : f.Proper) (honce : f.Once ms) (h : List.Forall₂ (MemberAlike f) ms ns) :
    Agree f ms ns where
  plain name hname := by
    have hmem := List.mem_append_left (f.nested.map (·.1)) hname
    have hrel := value?_rel hf honce h hmem
    generalize FieldName.value? name ms = x at hrel ⊢
    generalize FieldName.value? name ns = y at hrel ⊢
    cases hrel with
    | none => rfl
    | some hm =>
        obtain ⟨key, key', hm, hkey⟩ := hm
        rcases hm with hm | ⟨rfl, -⟩
        · cases hm with
          | plain => rfl
          | nested hnested hother =>
              have hnames := List.mem_map_of_mem (f := (·.1)) hnested
              have hsame :=
                eq_of_spells_both hf hmem (List.mem_append_right _ hnames) hkey hother
              exact absurd hname (hsame ▸ hf.apart _ hnames)
          | other hnot => exact absurd hkey (hnot name hmem)
        · exact absurd hkey (not_spells_children hf hmem)
  nested e he := by
    have hnames := List.mem_map_of_mem (f := (·.1)) he
    have hmem := List.mem_append_right f.plain hnames
    have hrel := value?_rel hf honce h hmem
    generalize FieldName.value? e.1 ms = x at hrel ⊢
    generalize FieldName.value? e.1 ns = y at hrel ⊢
    cases hrel with
    | none => exact .none
    | some hm =>
        obtain ⟨key, key', hm, hkey⟩ := hm
        rcases hm with hm | ⟨rfl, -⟩
        · cases hm with
          | plain hplain hother =>
              have hsame :=
                eq_of_spells_both hf hmem (List.mem_append_left _ hplain) hkey hother
              exact absurd (hsame ▸ hplain) (hf.apart _ hnames)
          | @nested name _ _ like _ _ hnested hother _ hlike =>
              have hother' := List.mem_map_of_mem (f := (·.1)) hnested
              have hsame : e.1 = name :=
                eq_of_spells_both hf hmem (List.mem_append_right _ hother') hkey hother
              have heq : e = (name, like) := List.inj_on_of_nodup_map hf.distinct he hnested hsame
              exact .some (heq ▸ hlike)
          | other hnot => exact absurd hkey (hnot _ hmem)
        · exact absurd hkey (not_spells_children hf hmem)
  other key hchildren hkey := by
    induction h with
    | nil => rfl
    | @cons m m' ms ns hm _ ih =>
        have hrest : f.Once ms := by
          intro name hname
          refine Nat.le_trans ?_ (honce name hname)
          exact ((List.sublist_cons_self m ms).filter _).length_le
        have hne : ∀ name ∈ f.names, ∀ k, FieldName.Spells name k → k ≠ key := by
          rintro name hname k hk rfl
          exact hkey name hname hk
        rcases hm with hm | ⟨hleft, hright⟩
        · cases hm with
          | plain hplain h h' =>
              have hmem := List.mem_append_left (f.nested.map (·.1)) hplain
              rw [Json.find?, Json.find?, if_neg (hne _ hmem _ h), if_neg (hne _ hmem _ h'),
                ih hrest]
          | nested hnested h h' =>
              have hmem := List.mem_append_right f.plain (List.mem_map_of_mem (f := (·.1)) hnested)
              rw [Json.find?, Json.find?, if_neg (hne _ hmem _ h), if_neg (hne _ hmem _ h'),
                ih hrest]
          | other => rw [Json.find?, Json.find?, ih hrest]
        · obtain ⟨k, v⟩ := m
          obtain ⟨k', v'⟩ := m'
          obtain rfl : k = "children" := hleft
          obtain rfl : k' = "children" := hright
          rw [Json.find?, Json.find?, if_neg (Ne.symm hchildren), if_neg (Ne.symm hchildren),
            ih hrest]

end

/-- The same is accepted, if anything is, of values that are alike. -/
def Faithful {α : Type} (like : Likeness) (read : Json → Reading α) : Prop :=
  ∀ v w, like v w → (read w).accepted = (read v).accepted

/-- Null is like itself only. -/
def Nullable (like : Likeness) : Prop := ∀ v w, like v w → (v = .null ↔ w = .null)

section

variable {α : Type} {like : Likeness} {f : Fields}

theorem ObjectAlike.nullable (f : Fields) : Nullable (ObjectAlike f) := by
  rintro v w (_ | _)
  · exact Iff.rfl
  · simp

theorem ListAlike.nullable (like : Likeness) : Nullable (ListAlike like) := by
  rintro v w (_ | _)
  · exact Iff.rfl
  · simp

/-- A faithful reading stays so when null is read as well. -/
theorem Faithful.nullable
    {read : Json → Reading α} (hlike : Nullable like) (hread : Faithful like read) :
    Faithful like (Reading.nullable read) := by
  intro v w h
  have hnull : ∀ u, u ≠ .null → Reading.nullable read u = (read u).map some := by
    intro u hu
    cases u with
    | null => exact absurd rfl hu
    | _ => rfl
  by_cases hv : v = .null
  · obtain rfl := (hlike v w h).1 hv
    rw [hv]
  · have hw : w ≠ .null := fun hw => hv ((hlike v w h).2 hw)
    rw [hnull v hv, hnull w hw, Reading.accepted_map, Reading.accepted_map, hread v w h]

/-- An object is read faithfully if its members are. -/
theorem faithful_object
    {read : Json.Members → Reading α} (hf : f.Proper)
    (hread : ∀ ms ns, Agree f ms ns → (read ns).accepted = (read ms).accepted) :
    Faithful (ObjectAlike f) (Reading.object read) := by
  rintro v w (_ | ⟨honce, hentries⟩)
  · rfl
  · exact hread _ _ (agree_of_entries hf honce (hentries.imp fun _ _ h => .inl h))

theorem accepted_each
    {read : Json → Reading α} (hread : Faithful like read) {vs ws : List Json}
    (h : List.Forall₂ like vs ws) (position : Nat) :
    (Reading.each read position ws).accepted = (Reading.each read position vs).accepted := by
  induction h generalizing position with
  | nil => rfl
  | cons hhead _ ih =>
      simp only [Reading.each, Reading.accepted_both, Reading.accepted_map,
        Reading.accepted_within, hread _ _ hhead, ih]

theorem faithful_list {read : Json → Reading α} (hread : Faithful like read) :
    Faithful (ListAlike like) (Reading.list read) := by
  rintro v w (_ | hitems)
  · rfl
  · exact accepted_each hread hitems 0

end

/-- Some fields have the same values. -/
def SameValues (names : List String) (ms ns : Json.Members) : Prop :=
  ∀ name ∈ names, FieldName.value? name ns = FieldName.value? name ms

namespace SameValues

variable {α : Type} {names : List String} {ms ns : Json.Members}

theorem withDefault
    (h : SameValues names ms ns) (name : String) (hname : name ∈ names) (default : α)
    (read : Json → Reading α) :
    (Reading.withDefault name default read ns).accepted =
      (Reading.withDefault name default read ms).accepted := by
  rw [Reading.accepted_withDefault, Reading.accepted_withDefault, h name hname]

theorem optional
    (h : SameValues names ms ns) (name : String) (hname : name ∈ names)
    (read : Json → Reading α) :
    (Reading.optional name read ns).accepted = (Reading.optional name read ms).accepted :=
  h.withDefault name hname none _

theorem required
    (h : SameValues names ms ns) (name : String) (hname : name ∈ names)
    (read : Json → Reading α) :
    (Reading.required name read ns).accepted = (Reading.required name read ms).accepted := by
  rw [Reading.accepted_required, Reading.accepted_required, h name hname]

end SameValues

namespace Agree

variable {α : Type} {f : Fields} {ms ns : Json.Members}

/-- Objects that agree have the same values under plain names. -/
theorem sameValues (h : Agree f ms ns) : SameValues f.plain ms ns :=
  h.plain

theorem withDefault
    (h : Agree f ms ns) {name : String} {like : Likeness} (hname : (name, like) ∈ f.nested)
    {read : Json → Reading α} (hread : Faithful like read) (default : α) :
    (Reading.withDefault name default read ns).accepted =
      (Reading.withDefault name default read ms).accepted := by
  rw [Reading.accepted_withDefault, Reading.accepted_withDefault]
  have hrel := h.nested _ hname
  generalize FieldName.value? name ms = x at hrel ⊢
  generalize FieldName.value? name ns = y at hrel ⊢
  cases hrel with
  | none => rfl
  | some hlike => exact hread _ _ hlike

theorem optional
    (h : Agree f ms ns) {name : String} {like : Likeness} (hname : (name, like) ∈ f.nested)
    {read : Json → Reading α} (hnull : Nullable like) (hread : Faithful like read) :
    (Reading.optional name read ns).accepted = (Reading.optional name read ms).accepted :=
  h.withDefault hname (hread.nullable hnull) none

theorem required
    (h : Agree f ms ns) {name : String} {like : Likeness} (hname : (name, like) ∈ f.nested)
    {read : Json → Reading α} (hread : Faithful like read) :
    (Reading.required name read ns).accepted = (Reading.required name read ms).accepted := by
  rw [Reading.accepted_required, Reading.accepted_required]
  have hrel := h.nested _ hname
  generalize FieldName.value? name ms = x at hrel ⊢
  generalize FieldName.value? name ns = y at hrel ⊢
  cases hrel with
  | none => rfl
  | some hlike => exact hread _ _ hlike

/-- A change under a key that spells no field keeps members in agreement. -/
theorem change
    (h : Agree f ms ns) {key : String} (hkey : ∀ name ∈ f.names, ¬ FieldName.Spells name key)
    {g : Json.Members → Json.Members} {found : Option Json}
    (hg : ∀ k ms, Json.find? k (g ms) = if key = k then found else Json.find? k ms) :
    Agree f (g ms) (g ns) := by
  have hvalue : ∀ name ∈ f.names, ∀ ms, FieldName.value? name (g ms) =
      FieldName.value? name ms := by
    intro name hname ms
    have hcamel : key ≠ FieldName.camel name := fun heq => hkey name hname (.inl heq)
    have hsnake : key ≠ name := fun heq => hkey name hname (.inr heq)
    rw [FieldName.value?_eq, FieldName.value?_eq, hg, hg, if_neg hcamel, if_neg hsnake]
  constructor
  · intro name hname
    have hmem := List.mem_append_left (f.nested.map (·.1)) hname
    rw [hvalue name hmem, hvalue name hmem, h.plain name hname]
  · intro e he
    have hmem := List.mem_append_right f.plain (List.mem_map_of_mem (f := (·.1)) he)
    rw [hvalue _ hmem, hvalue _ hmem]
    exact h.nested e he
  · intro k hchildren hk
    rw [hg, hg, h.other k hchildren hk]

theorem insert
    (h : Agree f ms ns) {key : String} (hkey : ∀ name ∈ f.names, ¬ FieldName.Spells name key)
    (v : Json) : Agree f (Json.insert key v ms) (Json.insert key v ns) :=
  h.change hkey fun k ms => Json.find?_insert k key v ms

theorem erase
    (h : Agree f ms ns) {key : String} (hkey : ∀ name ∈ f.names, ¬ FieldName.Spells name key) :
    Agree f (Json.erase key ms) (Json.erase key ns) :=
  h.change hkey fun k ms => Json.find?_erase k key ms

/-- Members that agree but for some fields, with all other keys the same, agree on these as well. -/
theorem of_without
    {kept : String → Bool} (h : Agree (f.without kept) ms ns) (hf : f.Proper) : Agree f ms ns where
  plain name hname := by
    by_cases hkept : kept name = true
    · have hmem := List.mem_append_left (f.nested.map (·.1)) hname
      -- A kept field has spellings that no other field has.
      have hfound : ∀ key, FieldName.Spells name key → Json.find? key ns = Json.find? key ms := by
        intro key hkey
        refine h.other key ?_ ?_
        · rintro rfl
          exact not_spells_children hf hmem hkey
        · intro name' hname' hkey'
          have hmem' := Fields.mem_names_of_without hname'
          obtain rfl := eq_of_spells_both hf hmem hmem' hkey hkey'
          rcases List.mem_append.1 hname' with hplain | hnested
          · simp [Fields.without, hkept] at hplain
          · exact hf.apart name hnested hname
      rw [FieldName.value?_eq, FieldName.value?_eq, hfound _ (.inl rfl), hfound _ (.inr rfl)]
    · exact h.plain name (List.mem_filter.2 ⟨hname, by simpa using hkept⟩)
  nested := h.nested
  other key hchildren hkey :=
    h.other key hchildren fun name hname => hkey name (Fields.mem_names_of_without hname)

end Agree
end SceneMarkup
