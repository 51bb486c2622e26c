import Mathlib.Data.List.Nodup
import SceneMarkup.Proofs.Degradation
import SceneMarkup.Proofs.Recovery
import SceneMarkup.Proofs.Unfollowed

/-!
# Radii that are not written

A rectangle may bind some of its corners to variables and have radii of its own at all of them. Once
a binding has given a line, no radius of the rectangle's own is written any more. The corners that
are not bound are then named in a warning. A corner that is bound to a variable which the host lacks
gets neither a line nor a warning.

* `Script.Yields`: what a script comes to against a host that answers all lookups.
* `Property.radii_accounted`: each corner with a radius of its own is set by a line, or named in the
  warning, or lost in this one way.
-/

namespace SceneMarkup

namespace Script

variable {α β σ : Type}

/-- Whatever a host answers to lookups, a script which asks nothing else ends in a result. The
conversation, the notices and the result satisfy `post`. -/
def Yields : Script α → (List Turn → List Notice → α → Prop) → Prop
  | done a, post => post [] [] a
  | fail _, _ => False
  | note x rest, post => Yields rest fun log xs => post log (x :: xs)
  | ask q next, post =>
    q.IsLookup ∧ ∀ a : q.Answer, Yields (next (.ok a)) fun log => post (⟨q, .ok a⟩ :: log)

theorem Yields.imp
    {s : Script α} {post post' : List Turn → List Notice → α → Prop}
    (h : s.Yields post) (himp : ∀ log xs a, post log xs a → post' log xs a) :
    s.Yields post' := by
  induction s generalizing post post' with
  | done a => exact himp [] [] a h
  | fail f => exact h
  | note x rest ih => exact ih h fun log xs => himp log (x :: xs)
  | ask q next ih => exact ⟨h.1, fun a => ih (.ok a) (h.2 a) fun log => himp (⟨q, .ok a⟩ :: log)⟩

/-- What two scripts leave behind stands in the order of the scripts. -/
theorem Yields.bind
    {s : Script α} {k : α → Script β} {post : List Turn → List Notice → β → Prop}
    (h : s.Yields fun log xs a => (k a).Yields fun log' xs' => post (log ++ log') (xs ++ xs')) :
    (s.bind k).Yields post := by
  induction s generalizing post with
  | done a => exact h
  | fail f => exact h
  | note x rest ih => exact ih h
  | ask q next ih => exact ⟨h.1, fun a => ih (.ok a) (h.2 a)⟩

theorem Yields.run
    {s : Script α} {post : List Turn → List Notice → α → Prop} (h : s.Yields post)
    {host : Host σ} (hhost : ∀ q : Query, q.IsLookup → ∀ state, ∃ a, (host q state).1 = .ok a)
    (state : σ) :
    ∃ a,
      (s.run host state).outcome = .ok a ∧
      post (s.turns host state) (s.run host state).notices a := by
  induction s generalizing post state with
  | done a => exact ⟨a, rfl, h⟩
  | fail f => exact h.elim
  | note x rest ih => exact ih h state
  | ask q next ih =>
      obtain ⟨a, ha⟩ := hhost q h.1 state
      simp only [Script.run, turns, ha]
      exact ih (.ok a) (h.2 a) (host q state).2

/-- A script that goes on to its own result comes to the same. -/
theorem run_bind_of_done
    {host : Host σ} {state : σ} {s : Script α} {k : α → Script α} {a : α}
    (hs : (s.run host state).outcome = .ok a) (hk : k a = done a) :
    (s.bind k).run host state = s.run host state := by
  rw [bind_eq_resume, run_resume]
  generalize s.run host state = t at hs ⊢
  cases t
  cases hs
  simp [Transcript.andThen, onResult, hk, Script.run]

/-- What scripts collect is made of one part for each of them, with what the conversation of the
part tells. -/
theorem Yields.collect
    [DecidableEq α]
    {f : α → Script (List β)} {quiet : Notice → Prop} {rel : List Turn → α → List β → Prop}
    (hf : ∀ a, (f a).Yields fun log xs bs => (∀ x ∈ xs, quiet x) ∧ rel log a bs)
    (hmono : ∀ a bs log log', log ⊆ log' → rel log a bs → rel log' a bs)
    {l : List α} (hnodup : l.Nodup) :
    (collect f l).Yields fun log xs bs =>
      (∀ x ∈ xs, quiet x) ∧ ∃ g : α → List β, (∀ a ∈ l, rel log a (g a)) ∧ bs = l.flatMap g := by
  induction l with
  | nil => exact ⟨List.forall_mem_nil _, fun _ => [], nofun, rfl⟩
  | cons a rest ih =>
      obtain ⟨hnotMem, hrest⟩ := List.nodup_cons.1 hnodup
      refine Yields.bind ((hf a).imp ?_)
      rintro log xs bs ⟨hxs, hbs⟩
      refine Yields.bind ((ih hrest).imp ?_)
      rintro log' xs' _ ⟨hxs', g, hg, rfl⟩
      have hne : ∀ b ∈ rest, b ≠ a := fun b hb h => hnotMem (h ▸ hb)
      refine ⟨?_, Function.update g a bs, ?_, ?_⟩
      · simpa using List.forall_mem_append.2 ⟨hxs, hxs'⟩
      · rw [List.forall_mem_cons, Function.update_self]
        refine ⟨hmono a bs log _ (by simp) hbs, ?_⟩
        intro b hb
        rw [Function.update_of_ne (hne b hb)]
        exact hmono b _ log' _ (by simp) (hg b hb)
      · have hsame : rest.flatMap (Function.update g a bs) = rest.flatMap g :=
          List.flatMap_congr fun b hb => Function.update_of_ne (hne b hb) bs g
        rw [List.flatMap_cons, Function.update_self, hsame]

end Script

/-- In a conversation the host lacked a variable, or the collection of it. -/
def Lacks (log : List Script.Turn) (id : String) : Prop :=
  ⟨.variableById id, .ok none⟩ ∈ log ∨
    ∃ v : Variable,
      ⟨.variableById id, .ok (some v)⟩ ∈ log ∧ ⟨.collectionById v.collectionId, .ok none⟩ ∈ log

theorem Lacks.mono {log log' : List Script.Turn} {id : String} (h : Lacks log id)
    (hsubset : log ⊆ log') :
    Lacks log' id := by
  rcases h with h | ⟨v, hv, hc⟩
  · exact .inl (hsubset h)
  · exact .inr ⟨v, hsubset hv, hsubset hc⟩

/-- The corners that a notice names as not written. -/
def Notice.named : Notice → List Corner
  | cornersDropped _ _ corners => corners
  | _ => []

/-- A resolution names no corners, and finds nothing only where the host lacks something. -/
theorem Reference.resolve_yields (id : String) :
    (resolve id).Yields fun log xs found =>
      (∀ x ∈ xs, x.named = []) ∧ (found = none → Lacks log id) := by
  rw [← Script.bind_done (resolve id), resolve_bind]
  refine ⟨trivial, ?_⟩
  rintro (_ | (v : Variable))
  · exact ⟨List.forall_mem_nil _, fun _ => .inl List.mem_cons_self⟩
  · refine ⟨trivial, ?_⟩
    rintro (_ | c)
    · refine ⟨by simp [Notice.named], fun _ => .inr ⟨v, ?_, ?_⟩⟩
      · exact List.mem_cons_self
      · exact List.mem_cons_of_mem _ List.mem_cons_self
    · exact ⟨List.forall_mem_nil _, nofun⟩

namespace Property

/-- A declaration tells its name. -/
theorem declaration_name_inj
    {p q v w : String} (hp : IsName p) (hq : IsName q) (h : declaration p v = declaration q w) :
    p = q := by
  have hcolon : Text.isKebabChar ':' = false := by decide
  have hname : ∀ {s t : String}, IsName s →
      (declaration s t).toList.takeWhile Text.isKebabChar = s.toList := by
    intro s t hs
    have hlist : (declaration s t).toList = s.toList ++ ':' :: (" " ++ t ++ ";").toList := by
      simp [declaration]
    rw [hlist, (span_eq hs.chars hcolon _).1]
  rw [← String.toList_inj, ← hname hp, h, hname hq]

/-- A line sets the radius of a corner, either for itself or for all corners. -/
def Sets (lines : List String) (c : Corner) : Prop :=
  ∃ name ∈ [borderRadius.name, c.name], ∃ value, declaration name value ∈ lines

theorem sets_shorthand (value : String) (c : Corner) :
    Sets [declaration borderRadius.name value] c :=
  ⟨borderRadius.name, List.mem_cons_self, value, List.mem_singleton_self _⟩

/-- The line of a corner sets no other corner. -/
theorem name_of_sets_corner
    {c d : Corner} {name value v : String} (hname : name ∈ [borderRadius.name, c.name])
    (h : declaration d.name v = declaration name value) :
    d = c := by
  have hidentifier : IsName name := by
    rcases List.mem_pair.1 hname with rfl | rfl
    · exact name_isName borderRadius
    · exact corner_isName c
  have heq : d.name = name := declaration_name_inj (corner_isName d) hidentifier h
  rw [← heq] at hname
  have hnames : ∀ c d : Corner, d.name ∈ [borderRadius.name, c.name] → d = c := by
    intro c d
    cases c <;> cases d <;> decide
  exact hnames c d hname

/-- What a bound corner contributes: its line, or nothing where the host lacks its variable. -/
def CornerLines (log : List Script.Turn) (c : Corner × VariableRef) (lines : List String) : Prop :=
  (∃ path, lines = [declaration c.1.name path]) ∨ lines = [] ∧ Lacks log c.2.id

theorem CornerLines.mono
    {c : Corner × VariableRef} {lines : List String} {log log' : List Script.Turn}
    (hsubset : log ⊆ log') (h : CornerLines log c lines) :
    CornerLines log' c lines :=
  h.imp_right fun ⟨hnil, hlacks⟩ => ⟨hnil, hlacks.mono hsubset⟩

theorem boundCorner_yields (c : Corner × VariableRef) :
    (boundCorner c).Yields fun log xs lines =>
      (∀ x ∈ xs, x.named = []) ∧ CornerLines log c lines := by
  refine Script.Yields.bind ((Reference.resolve_yields c.2.id).imp ?_)
  rintro log xs (_ | path) ⟨hxs, hlacks⟩
  · refine ⟨by simpa using hxs, .inr ⟨rfl, (hlacks rfl).mono (by simp)⟩⟩
  · exact ⟨by simpa using hxs, .inl ⟨path, rfl⟩⟩

theorem boundCorners_nodup (bs : Bindings) : (boundCorners bs).Nodup := by
  have hkeys : ((boundCorners bs).map (·.1)).Nodup :=
    (boundCorners_sublist bs).nodup (by decide)
  exact List.Nodup.of_map _ hkeys

theorem mem_boundCorners {bs : Bindings} {c : Corner} {r : VariableRef}
    (h : bs.get? c.bindable = some r) : (c, r) ∈ boundCorners bs := by
  refine List.mem_filterMap.2 ⟨c, ?_, by simp [h]⟩
  cases c <;> decide

/-- A warning names a corner of a node as not written. -/
def Warns (xs : List Notice) (n : Node) (c : Corner) : Prop :=
  ∃ corners, .cornersDropped n.name n.id corners ∈ xs ∧ c ∈ corners

/-- Notices that name no corners do not warn. -/
theorem warns_append
    {xs : List Notice} (hxs : ∀ x ∈ xs, x.named = []) (xs' : List Notice) (n : Node) (c : Corner) :
    Warns (xs ++ xs') n c ↔ Warns xs' n c := by
  constructor
  · rintro ⟨corners, hmem, hc⟩
    rcases List.mem_append.1 hmem with hmem | hmem
    · obtain rfl : corners = [] := hxs _ hmem
      cases hc
    · exact ⟨corners, hmem, hc⟩
  · rintro ⟨corners, hmem, hc⟩
    exact ⟨corners, List.mem_append_right xs hmem, hc⟩

/-- The warning names the corners that are not bound and have a radius of their own. -/
theorem reportDropped_yields {n : Node} {radii : Radii} (hn : n.kind.radii? = some radii) :
    (reportDropped n).Yields fun _ xs _ =>
      ∀ c, Warns xs n c ↔ c ∈ droppedCorners n.attributes.bindings radii := by
  unfold reportDropped
  rw [hn]
  dsimp only
  split
  · show ∀ c, Warns [_] n c ↔ _
    intro c
    simp [Warns]
  next hnone =>
    show ∀ c, Warns [] n c ↔ _
    rw [not_not] at hnone
    simp [Warns, hnone]

/-- What the bound corners of a node come to: each its own part, and a warning about the others. -/
structure CornersWritten
    (n : Node) (radii : Radii) (log : List Script.Turn) (xs : List Notice) (lines : List String)
    (part : Corner × VariableRef → List String) : Prop where
  parts : ∀ c ∈ boundCorners n.attributes.bindings, CornerLines log c (part c)
  lines_eq : lines = (boundCorners n.attributes.bindings).flatMap part
  warns_iff : ∀ c, Warns xs n c ↔ c ∈ droppedCorners n.attributes.bindings radii

/-- What is asked and told before does not matter to the corners, if it names none. -/
theorem CornersWritten.after
    {n : Node} {radii : Radii} {log : List Script.Turn} {xs : List Notice} {lines : List String}
    {part : Corner × VariableRef → List String} (h : CornersWritten n radii log xs lines part)
    (before : List Script.Turn) {told : List Notice} (htold : ∀ x ∈ told, x.named = []) :
    CornersWritten n radii (before ++ log) (told ++ xs) lines part where
  parts c hc := (h.parts c hc).mono (by simp)
  lines_eq := h.lines_eq
  warns_iff c := by rw [warns_append htold, h.warns_iff c]

theorem boundCornerLines_yields {n : Node} {radii : Radii} (hn : n.kind.radii? = some radii) :
    (boundCornerLines n (boundCorners n.attributes.bindings)).Yields fun log xs lines =>
      lines ≠ [] → ∃ part, CornersWritten n radii log xs lines part := by
  have hcorners := Script.Yields.collect boundCorner_yields (fun _ _ _ _ => CornerLines.mono)
    (boundCorners_nodup n.attributes.bindings)
  rw [boundCornerLines_eq]
  refine Script.Yields.bind (hcorners.imp ?_)
  rintro log xs lines ⟨hxs, part, hpart, hlines⟩
  refine Script.Yields.bind ?_
  by_cases hnil : lines = []
  · simp only [hnil, ne_eq, not_true, if_false]
    exact fun h => absurd rfl h
  · rw [if_pos hnil]
    refine (reportDropped_yields hn).imp ?_
    intro log' xs' _ hwarns _
    refine ⟨part, ?_, hlines, ?_⟩
    · exact fun c hc => (hpart c hc).mono (by simp)
    · intro c
      rw [warns_append hxs, List.append_nil, hwarns c]

/-- A corner is bound to a variable which the host lacked; no line sets it and no warning names
it. -/
structure Lost
    (n : Node) (log : List Script.Turn) (xs : List Notice) (lines : List String) (c : Corner) :
    Prop where
  lacked : ∃ r, n.attributes.bindings.get? c.bindable = some r ∧ Lacks log r.id
  not_set : ¬ Sets lines c
  not_named : ¬ Warns xs n c

/-- What becomes of a corner. -/
def Accounted
    (n : Node) (log : List Script.Turn) (xs : List Notice) (lines : List String)
    (c : Corner) : Prop :=
  Sets lines c ∨ Warns xs n c ∨ Lost n log xs lines c

theorem CornersWritten.accounted
    {n : Node} {radii : Radii} {log : List Script.Turn} {xs : List Notice} {lines : List String}
    {part : Corner × VariableRef → List String} (h : CornersWritten n radii log xs lines part)
    {c : Corner} (hc : isPositive (radii.corner c) = true) :
    Accounted n log xs lines c := by
  cases hbound : n.attributes.bindings.get? c.bindable with
  | none =>
      refine .inr (.inl ((h.warns_iff c).2 (List.mem_filter.2 ⟨?_, by simp [hbound, hc]⟩)))
      cases c <;> decide
  | some r =>
      have hmem : (c, r) ∈ boundCorners n.attributes.bindings := mem_boundCorners hbound
      rcases h.parts _ hmem with ⟨path, hpath⟩ | ⟨hnil, hlacks⟩
      · refine .inl ⟨c.name, by simp, path, ?_⟩
        rw [h.lines_eq, List.mem_flatMap]
        exact ⟨(c, r), hmem, by simp [hpath]⟩
      · refine .inr (.inr ⟨⟨r, hbound, hlacks⟩, ?_, ?_⟩)
        · -- A line that sets the corner would be its own part, which is empty.
          rintro ⟨name, hname, value, hline⟩
          rw [h.lines_eq, List.mem_flatMap] at hline
          obtain ⟨⟨d, r'⟩, hd, hline⟩ := hline
          rcases h.parts _ hd with ⟨path, hpath⟩ | ⟨hnil', -⟩
          · rw [hpath, List.mem_singleton] at hline
            obtain rfl := name_of_sets_corner hname hline.symm
            obtain rfl : r' = r := by simpa [hbound] using (boundCorners_mem hd).symm
            simp [hnil] at hpath
          · simp [hnil'] at hline
        · intro hwarns
          have hunbound := (List.mem_filter.1 ((h.warns_iff c).1 hwarns)).2
          simp [hbound] at hunbound

theorem reference_yields (binding : Option VariableRef) :
    (reference true binding).Yields fun _ xs _ => ∀ x ∈ xs, x.named = [] := by
  cases binding with
  | none => exact fun _ hx => nomatch hx
  | some r => exact (Reference.resolve_yields r.id).imp fun _ _ _ h => h.1

theorem boundRadius_yields {n : Node} {radii : Radii} (hn : n.kind.radii? = some radii) :
    (boundRadius n).Yields fun log xs lines =>
      lines ≠ [] → ∀ c, isPositive (radii.corner c) = true → Accounted n log xs lines c := by
  refine Script.Yields.bind ((reference_yields _).imp ?_)
  rintro log xs (_ | path) hxs
  · dsimp only
    cases sharedCorner? (boundCorners n.attributes.bindings) with
    | some r =>
        refine Script.Yields.bind ((Reference.resolve_yields r.id).imp ?_)
        rintro log' xs' (_ | path) _
        · exact fun h => absurd rfl h
        · exact fun _ c _ => .inl (sets_shorthand path c)
    | none =>
        refine (boundCornerLines_yields hn).imp ?_
        intro log' xs' lines hwritten hlines c hc
        obtain ⟨part, hpart⟩ := hwritten hlines
        exact (hpart.after log hxs).accounted hc
  · exact fun _ c _ => .inl (sets_shorthand path c)

/-- **No radius is lost but behind a missing variable.** Against a host that answers lookups the
bindings of a node never fault. If they give lines, these are the radii of the node, and each corner
with a radius of its own is set by one of them or named in a warning, unless it is bound to a
variable which the host lacked. In this case it is neither set nor named. -/
theorem radii_accounted
    {σ : Type} {n : Node} {form : Shape} {paints : Paints} {radii : Radii}
    (hn : n.kind = .shape form paints radii) (hform : form ≠ .ellipse)
    {host : Host σ} (hhost : ∀ q : Query, q.IsLookup → ∀ state, ∃ a, (host q state).1 = .ok a)
    (state : σ) :
    ∃ lines,
      ((boundRadius n).run host state).outcome = .ok lines ∧
      (lines ≠ [] →
        (radiusLines true n).run host state = (boundRadius n).run host state ∧
        ∀ c, isPositive (radii.corner c) = true →
          Accounted n ((boundRadius n).turns host state) ((boundRadius n).run host state).notices
            lines c) := by
  have hradii : n.kind.radii? = some radii := by rw [hn]; rfl
  obtain ⟨lines, hlines, haccounted⟩ := (boundRadius_yields hradii).run hhost state
  refine ⟨lines, hlines, fun hne => ⟨?_, haccounted hne⟩⟩
  have hshape : ∀ paints radii, n.kind ≠ .shape .ellipse paints radii := by
    intro paints' radii' h
    rw [hn] at h
    cases h
    exact hform rfl
  rw [radiusLines_eq true hshape, if_pos rfl]
  exact Script.run_bind_of_done hlines (if_neg hne)

/-- Tables answer every lookup. -/
theorem tables_answer (t : Tables) :
    ∀ q : Query, q.IsLookup → ∀ state, ∃ a, (t.host q state).1 = .ok a := by
  intro q hq state
  cases q with
  | variableById id => exact ⟨_, rfl⟩
  | collectionById id => exact ⟨_, rfl⟩
  | componentOf n => exact ⟨_, rfl⟩
  | drawingOf n => exact hq.elim

/-- A box with radii of its own, two corners of which are bound. -/
def halfBound : Node :=
  .mk
    (.bare "1:1" "Box"
      ⟨[(.topLeftRadius, ⟨"round", "VARIABLE_ALIAS"⟩),
        (.topRightRadius, ⟨"lost", "VARIABLE_ALIAS"⟩)]⟩)
    (.shape .rectangle ⟨[], [], none⟩ ⟨none, some .one, some .one, some .one, none⟩) []

/-- A design with the variable of the first corner, but not with that of the second. -/
def oneRadius : Tables :=
  { Tables.empty with
    known := [("round", ⟨"round", "radius", "theme"⟩)]
    collections := [("theme", ⟨"theme", "Theme", []⟩)] }

/-- The first corner of the box is set and the third one named. -/
theorem radii_accounted_halfBound :
    halfBound.kind =
      .shape .rectangle ⟨[], [], none⟩ ⟨none, some .one, some .one, some .one, none⟩ ∧
    Shape.rectangle ≠ .ellipse ∧
    (∀ q : Query, q.IsLookup → ∀ state, ∃ a, (oneRadius.host q state).1 = .ok a) ∧
    ∃ lines,
      ((boundRadius halfBound).run oneRadius.host ()).outcome = .ok lines ∧
      (lines ≠ [] →
        (radiusLines true halfBound).run oneRadius.host () =
            (boundRadius halfBound).run oneRadius.host () ∧
        ∀ c, isPositive (Radii.corner ⟨none, some .one, some .one, some .one, none⟩ c) = true →
          Accounted halfBound ((boundRadius halfBound).turns oneRadius.host ())
            ((boundRadius halfBound).run oneRadius.host ()).notices lines c) :=
  ⟨rfl, by decide, tables_answer oneRadius,
    radii_accounted rfl (by decide) (tables_answer oneRadius) ()⟩

/-- The second corner of the box has a radius of its own, and is neither set nor named. -/
theorem second_corner_lost :
    ∃ lines radii,
      ((radiusLines true halfBound).run oneRadius.host ()).outcome = .ok lines ∧
      lines = [declaration Corner.topLeft.name "Theme.radius"] ∧
      halfBound.kind.radii? = some radii ∧ isPositive (radii.corner .topRight) = true ∧
      ¬ Sets lines .topRight ∧
      ¬ Warns ((radiusLines true halfBound).run oneRadius.host ()).notices halfBound .topRight := by
  have hoffer : ((radiusLines true halfBound).run oneRadius.host ()).outcome =
      .ok [declaration Corner.topLeft.name "Theme.radius"] := by
    decide +kernel
  have hnamed : ∀ x ∈ ((radiusLines true halfBound).run oneRadius.host ()).notices,
      Corner.topRight ∉ x.named := by
    decide +kernel
  refine ⟨_, _, hoffer, rfl, rfl, by decide +kernel, ?_, ?_⟩
  · rintro ⟨name, hname, value, hline⟩
    have hcorner := name_of_sets_corner hname (List.mem_singleton.1 hline).symm
    cases hcorner
  · rintro ⟨corners, hmem, hc⟩
    exact hnamed _ hmem hc

end Property

end SceneMarkup
