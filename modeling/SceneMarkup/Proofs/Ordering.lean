import SceneMarkup.Proofs.Grammar

/-!
# Declarations in order

An element may declare a property once only. The lines of a block that are not remarks are
declarations, and this file shows that they follow the order in which a class lists its properties,
each of them at most once.

The names of a block are a part of `order`, which has each name once (`order_nodup`). A property
writes a part of its own names (`Writes.allotted`), and parts that stand in the order of the
properties make up a part of all names (`allotted_flatten`). Radii are the one exception: they are
declared under one name or under those of the corners, but never under both.
-/

namespace SceneMarkup

/-- Each element of the second row has a partner in the first one. -/
theorem exists_of_forall₂ {α β : Type} {R : α → β → Prop} :
    ∀ {l : List α} {m : List β}, List.Forall₂ R l m → ∀ b ∈ m, ∃ a ∈ l, R a b
  | [], _, .nil => nofun
  | a :: l, _, .cons hhead hrest => by
      refine List.forall_mem_cons.2 ⟨⟨a, List.mem_cons_self, hhead⟩, ?_⟩
      intro b hb
      obtain ⟨a', ha', hrelated⟩ := exists_of_forall₂ hrest b hb
      exact ⟨a', List.mem_cons_of_mem a ha', hrelated⟩

namespace Property

/-- A remark starts with two slashes. -/
def isRemark (line : String) : Bool := ['/', '/'].isPrefixOf line.toList

/-- The lines that are not remarks. -/
def declarations (lines : List String) : List String := lines.filter fun line => !isRemark line

/-- A line declares a value under a name. Only an alignment may be followed by a note. -/
inductive Declares : String → String → Prop
  | plain {name value : String} : IsValue value → Declares name (declaration name value)
  | justified {value : String} :
      IsValue value →
      Declares horizontalAlignment.name
        (declaration horizontalAlignment.name value ++ " " ++ justifiedNote)

theorem isRemark_append {s : String} (hs : isRemark s = true) (t : String) :
    isRemark (s ++ t) = true := by
  rw [isRemark, List.isPrefixOf_iff_prefix] at hs ⊢
  rw [String.toList_append]
  exact hs.trans (List.prefix_append _ _)

theorem isRemark_append_of_head
    {s : String} {c : Char} {cs : List Char} (hs : s.toList = c :: cs) (hc : c ≠ '/') (t : String) :
    isRemark (s ++ t) = false := by
  have hne : ('/' == c) = false := by simpa using hc.symm
  simp [isRemark, hs, List.isPrefixOf, hne]

theorem name_head (p : Property) : ∃ c cs, p.name.toList = c :: cs ∧ c ≠ '/' := by
  cases p <;> exact ⟨_, _, rfl, by decide⟩

theorem name_inline (p : Property) : Inline p.name := by
  cases p <;> decide

theorem corner_name_head (c : Corner) : ∃ d ds, c.name.toList = d :: ds ∧ d ≠ '/' := by
  cases c <;> exact ⟨_, _, rfl, by decide⟩

/-- A declaration is no remark, since its name does not start with a slash. -/
theorem isRemark_declaration
    {name : String} {c : Char} {cs : List Char} (hname : name.toList = c :: cs) (hc : c ≠ '/')
    (value : String) :
    isRemark (declaration name value) = false := by
  simp only [declaration, String.append_assoc]
  exact isRemark_append_of_head hname hc _

/-- A remark on a fault is a remark. -/
theorem isRemark_faultRemark (p : Property) (f : Fault) : isRemark (p.faultRemark f) = true := by
  have hhead : isRemark "// Error processing " = true := by decide
  exact isRemark_append (isRemark_append (isRemark_append hhead p.name) ": ") f.message

/-- The names under which a property is declared. Radii are declared in one or are split over the
corners. -/
def declaredNames (split : Bool) : Property → List String
  | borderRadius => if split then Corner.all.map Corner.name else [borderRadius.name]
  | p => [p.name]

/-- Only the radius may be declared under other names. -/
theorem declaredNames_of_ne {p : Property} (hp : p ≠ borderRadius) (split : Bool) :
    declaredNames split p = [p.name] := by
  cases p with
  | borderRadius => exact absurd rfl hp
  | _ => rfl

theorem declaredNames_whole (p : Property) : declaredNames false p = [p.name] := by
  cases p <;> rfl

theorem declaredNames_inline {split : Bool} {p : Property} {name : String}
    (h : name ∈ declaredNames split p) : Inline name := by
  by_cases hp : p = borderRadius
  · subst hp
    have hradii : ∀ b, ∀ s ∈ declaredNames b borderRadius, Inline s := by decide
    exact hradii split name h
  · rw [declaredNames_of_ne hp, List.mem_singleton] at h
    subst h
    exact name_inline p

/-- The names in `names` are declared by the lines in `part` that are not remarks, in order. -/
def Names (names part : List String) : Prop := List.Forall₂ Declares names (declarations part)

theorem names_nil {part : List String} (h : ∀ line ∈ part, isRemark line = true) :
    Names [] part := by
  have hnone : declarations part = [] := by
    rw [declarations, List.filter_eq_nil_iff]
    intro line hline
    simp [h line hline]
  rw [Names, hnone]
  exact .nil

/-- Parts have their names one after the other. -/
theorem names_append
    {names names' part part' : List String} (h : Names names part) (h' : Names names' part') :
    Names (names ++ names') (part ++ part') := by
  rw [Names, declarations, List.filter_append]
  exact List.rel_append h h'

/-- Corners are declared one by one. -/
theorem names_corners
    {rows : List (Corner × String)} (hvalues : ∀ row ∈ rows, IsValue row.2) :
    Names (rows.map fun row => row.1.name) (rows.map fun row => declaration row.1.name row.2) := by
  have hkept :
      declarations (rows.map fun row => declaration row.1.name row.2) =
        rows.map fun row => declaration row.1.name row.2 := by
    rw [declarations, List.filter_eq_self]
    intro line hline
    obtain ⟨row, -, rfl⟩ := List.mem_map.1 hline
    obtain ⟨d, ds, hname, hd⟩ := corner_name_head row.1
    simp [isRemark_declaration hname hd]
  rw [Names, hkept, List.forall₂_map_left_iff, List.forall₂_map_right_iff, List.forall₂_same]
  intro row hrow
  exact .plain (hvalues row hrow)

/-- What a property writes declares some of its names, in order. -/
theorem Writes.allotted
    {Q : String → Prop} {p : Property} {part : List String} (h : Writes Q p part) :
    ∃ names, Names names part ∧ ∃ split, names.Sublist (declaredNames split p) := by
  cases h with
  | nothing => exact ⟨[], .nil, false, List.nil_sublist _⟩
  | declared hv =>
      obtain ⟨c, cs, hname, hc⟩ := name_head p
      refine ⟨[p.name], ?_, false, ?_⟩
      · simpa [Names, declarations, isRemark_declaration hname hc] using Declares.plain hv
      · rw [declaredNames_whole]
  | @corners rows hsublist hvalues =>
      refine ⟨_, names_corners hvalues, true, ?_⟩
      have hnames := hsublist.map Corner.name
      rwa [List.map_map] at hnames
  | justified =>
      refine ⟨[horizontalAlignment.name], ?_, false, ?_⟩
      · exact .cons (.justified ⟨by decide, by decide⟩) .nil
      · rw [declaredNames_whole]
  | @notDrawn message _ =>
      refine ⟨[], names_nil ?_, false, List.nil_sublist _⟩
      have hhead : isRemark "// Error exporting SVG: " = true := by decide
      simpa using isRemark_append hhead message
  | @noCommands svg =>
      refine ⟨[], names_nil ?_, false, List.nil_sublist _⟩
      have hhead : isRemark "// Could not extract path commands from SVG" = true := by decide
      have hmark : isRemark "// " = true := by decide
      simp [hhead, isRemark_append hmark]
  | @stopped p f _ =>
      refine ⟨[], names_nil ?_, false, List.nil_sublist _⟩
      simpa using isRemark_faultRemark p f

/-- The parts of properties that are all declared under one name do not depend on `split`. -/
theorem allotted_flatten_of_notMem {Q : String → Prop} (split : Bool) :
    ∀ {ps : List Property} {parts : List (List String)},
      borderRadius ∉ ps → List.Forall₂ (Writes Q) ps parts →
        ∃ names, Names names parts.flatten ∧ names.Sublist (ps.flatMap (declaredNames split))
  | [], _, _, .nil => ⟨[], .nil, List.Sublist.slnil⟩
  | p :: ps, _, hps, .cons hpart hparts => by
      have hp : p ≠ borderRadius := fun h => hps (h ▸ List.mem_cons_self)
      have hrestOnly : borderRadius ∉ ps := fun h => hps (List.mem_cons_of_mem p h)
      obtain ⟨names, hnames, splitHere, hsublist⟩ := hpart.allotted
      obtain ⟨rest, hrest, hrestSublist⟩ := allotted_flatten_of_notMem split hrestOnly hparts
      rw [declaredNames_of_ne hp, ← declaredNames_of_ne hp split] at hsublist
      exact ⟨names ++ rest, names_append hnames hrest, hsublist.append hrestSublist⟩

/-- The parts of properties without repetition declare some of their names, in order. -/
theorem allotted_flatten {Q : String → Prop} :
    ∀ {ps : List Property} {parts : List (List String)},
      ps.Nodup → List.Forall₂ (Writes Q) ps parts →
        ∃ names, Names names parts.flatten ∧
          ∃ split, names.Sublist (ps.flatMap (declaredNames split))
  | [], _, _, .nil => ⟨[], .nil, false, List.Sublist.slnil⟩
  | p :: ps, _, hps, .cons hpart hparts => by
      obtain ⟨hp, hps⟩ := List.nodup_cons.1 hps
      obtain ⟨names, hnames, splitHere, hsublist⟩ := hpart.allotted
      by_cases hradius : p = borderRadius
      · -- The radii decide, since they occur only here.
        subst hradius
        obtain ⟨rest, hrest, hrestSublist⟩ := allotted_flatten_of_notMem splitHere hp hparts
        exact ⟨names ++ rest, names_append hnames hrest, splitHere, hsublist.append hrestSublist⟩
      · obtain ⟨rest, hrest, split, hrestSublist⟩ := allotted_flatten hps hparts
        rw [declaredNames_of_ne hradius, ← declaredNames_of_ne hradius split] at hsublist
        exact ⟨names ++ rest, names_append hnames hrest, split, hsublist.append hrestSublist⟩

theorem Declares.inline {name line : String} (hname : Inline name) (h : Declares name line) :
    Inline line := by
  have hmarks : Inline ": " ∧ Inline ";" ∧ Inline " " ∧ Inline justifiedNote := by decide
  cases h with
  | plain hv => simp [declaration, hname, hv.inline, hmarks]
  | justified hv =>
      have halignment : Inline horizontalAlignment.name := by decide
      simp [declaration, halignment, hv.inline, hmarks]

end Property

namespace Snippet

open Property (Declares declarations declaredNames)

/-- The names that a class of nodes can declare, in the order of its properties. -/
def order (split : Bool) (c : NodeClass) : List String :=
  (properties c).flatMap (declaredNames split)

theorem properties_mem (c : NodeClass) :
    properties c ∈ [[], Property.ofRectangle, Property.ofText, Property.ofPath].map
      (Property.shared ++ ·) := by
  cases c <;> simp [properties, Property.ofClass]

/-- No class has a property twice. -/
theorem properties_nodup (c : NodeClass) : (properties c).Nodup := by
  have hall : ∀ ps ∈ [[], Property.ofRectangle, Property.ofText, Property.ofPath].map
      (Property.shared ++ ·), ps.Nodup := by
    decide
  exact hall _ (properties_mem c)

/-- The order of names has no name twice. -/
theorem order_nodup (split : Bool) (c : NodeClass) : (order split c).Nodup := by
  have hall : ∀ ps ∈ [[], Property.ofRectangle, Property.ofText, Property.ofPath].map
      (Property.shared ++ ·), ∀ b, (ps.flatMap (declaredNames b)).Nodup := by
    decide
  exact hall _ (properties_mem c) split

theorem order_inline (split : Bool) (c : NodeClass) : ∀ name ∈ order split c, Inline name := by
  intro name hname
  obtain ⟨p, -, hp⟩ := List.mem_flatMap.1 hname
  exact Property.declaredNames_inline hp

/-- The lines of the properties of a node that are not remarks declare values under names of
the class, each at most once and in order. -/
structure InOrder (c : NodeClass) (lines : List String) : Prop where
  ordered :
    ∃ names, List.Forall₂ Declares names (declarations lines) ∧ names.Nodup ∧
      ∃ split, names.Sublist (order split c)
  inline : ∀ line ∈ declarations lines, Inline line

/-- What is written for a class is in its order. -/
theorem inOrder_of_written
    {Q : String → Prop} {c : NodeClass} {lines : List String} (h : Written Q c lines) :
    InOrder c lines := by
  obtain ⟨parts, hparts, rfl⟩ := h
  obtain ⟨names, hnames, split, hsublist⟩ :=
    Property.allotted_flatten (properties_nodup c) hparts
  constructor
  · exact ⟨names, hnames, hsublist.nodup (order_nodup split c), split, hsublist⟩
  · intro line hline
    obtain ⟨name, hname, hdeclares⟩ := exists_of_forall₂ hnames line hline
    exact hdeclares.inline (order_inline split c name (hsublist.subset hname))

/-- **The declarations of every block are distinct and in order**, against every host, in every
node of a scene. -/
theorem declarations_ordered
    {σ : Type} (host : Host σ) (state : σ) (followed : Bool) (n : Node) :
    ∃ b, ((block followed n).run host state).outcome = .ok b ∧ Fits InOrder n b := by
  -- Nothing is asked of the host, so its faults may say anything.
  have hquiet : ∀ t ∈ (block followed n).turns host state, t.FaultsIn fun _ => True :=
    fun _ _ _ _ _ => True.intro
  obtain ⟨b, hb, hfits⟩ :=
    block_written (fun _ _ => True.intro) host state followed n hquiet
  exact ⟨b, hb, hfits.imp fun _ _ => inOrder_of_written⟩

end Snippet
end SceneMarkup
