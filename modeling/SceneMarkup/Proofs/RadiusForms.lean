import SceneMarkup.Proofs.CornerLiterals
import SceneMarkup.Proofs.Radii

/-!
# Forms and sources of radii

The radii of a rectangle are written in one line for all corners, or corner by corner, but never in
both forms. They come from variables or from literals, but never from both.

* `SetFrom`: radii in one form from one source.
* `boundRadius_setFrom`, `literalRadius_setFrom`: the two sources.
* `Property.radius_forms`: literals are written if no variable of a radius is there. A variable that
  is bound to each single corner is written as if it was bound to all of them at once.
-/

namespace SceneMarkup

/-- All corners are bound to one variable. -/
def SharesCorners (bs : Bindings) (id : String) : Prop :=
  ∀ c : Corner, ∃ r, bs.get? c.bindable = some r ∧ r.id = id

theorem SharesCorners.unique {bs : Bindings} {id id' : String} (h : SharesCorners bs id)
    (h' : SharesCorners bs id') :
    id = id' := by
  obtain ⟨r, hr, rfl⟩ := h .topLeft
  obtain ⟨r', hr', rfl⟩ := h' .topLeft
  rw [Option.some.inj (hr.symm.trans hr')]

/-- All corners are bound to one variable, and the radius for all of them is not bound. -/
structure BindsCorners (bs : Bindings) (id : String) : Prop where
  uniform : bs.get? .cornerRadius = none
  corners : SharesCorners bs id

/-- The radius for all corners is bound to a variable, and no single corner is bound. -/
structure BindsUniform (bs : Bindings) (id : String) : Prop where
  uniform : ∃ r, bs.get? .cornerRadius = some r ∧ r.id = id
  corners : ∀ c : Corner, bs.get? c.bindable = none

namespace Property

/-- The lines of a source that has values for all corners at once, `whole`, or values for single
ones. A value for all corners is the only line. If there is none, each corner that has a value gets
a line of its own, in the order of the corners. -/
inductive SetFrom (whole : String → Prop) (single : Corner → String → Prop) : List String → Prop
  | shorthand {v : String} : whole v → SetFrom whole single [declaration borderRadius.name v]
  | corners {value : Corner → Option String} :
      (∀ v, ¬ whole v) →
      (∀ c v, value c = some v ↔ single c v) →
      SetFrom whole single (Corner.all.filterMap fun c => (value c).map (declaration c.name))

section Sources

variable {whole : String → Prop} {single : Corner → String → Prop} {lines : List String}

theorem SetFrom.nil (hwhole : ∀ v, ¬ whole v) (hsingle : ∀ c v, ¬ single c v) :
    SetFrom whole single [] :=
  @SetFrom.corners whole single (fun _ => none) hwhole fun c v => iff_of_false nofun (hsingle c v)

/-- A source that has a value gives a line. -/
theorem SetFrom.ne_nil_iff (h : SetFrom whole single lines) :
    lines ≠ [] ↔ (∃ v, whole v) ∨ ∃ c v, single c v := by
  cases h with
  | @shorthand v hv => exact iff_of_true (List.cons_ne_nil _ _) (.inl ⟨v, hv⟩)
  | @corners value hwhole hsingle =>
      rw [ne_eq, List.filterMap_eq_nil_iff, or_iff_right (not_exists.2 hwhole)]
      simp only [← hsingle, ← Option.ne_none_iff_exists', Option.map_eq_none_iff]
      simp [Corner.mem_all]

end Sources

section Variables

variable {reply : (q : Query) → q.Reply} {bs : Bindings}

/-- A variable that is read for all corners: that of the radius for all of them or, where this one
is not there, the one that they share. -/
inductive BoundWhole (reply : (q : Query) → q.Reply) (bs : Bindings) (path : String) : Prop
  | uniform {r : VariableRef} :
      bs.get? .cornerRadius = some r → Finds reply r.id path → BoundWhole reply bs path
  | shared {id : String} :
      ¬ Resolves reply (bs.get? .cornerRadius) → SharesCorners bs id → Finds reply id path →
      BoundWhole reply bs path

/-- A variable that is read for a single corner. -/
def BoundSingle (reply : (q : Query) → q.Reply) (bs : Bindings) (c : Corner) (path : String) :
    Prop :=
  ∃ r, bs.get? c.bindable = some r ∧ Finds reply r.id path

theorem sharedCorner?_of_shares {id : String} (h : SharesCorners bs id) :
    ∃ r, sharedCorner? (boundCorners bs) = some r ∧ r.id = id := by
  choose r hr hid using h
  have hbound : boundCorners bs = Corner.all.map fun c => (c, r c) := by
    simp [boundCorners, hr]
  refine ⟨r .topLeft, ?_, hid .topLeft⟩
  rw [hbound]
  simp [sharedCorner?, Corner.all, hid]

theorem shares_of_sharedCorner? {r : VariableRef} (h : sharedCorner? (boundCorners bs) = some r) :
    SharesCorners bs r.id := by
  have hall : (boundCorners bs).length = Corner.all.length ∧
      ∀ p ∈ boundCorners bs, p.2.id = r.id := by
    generalize boundCorners bs = corners at h
    cases corners with
    | nil => cases h
    | cons p rest =>
        simp only [sharedCorner?] at h
        split at h
        next hsame =>
          cases h
          exact ⟨hsame.1, List.forall_mem_cons.2 ⟨rfl, by simpa using hsame.2⟩⟩
        next => cases h
  intro c
  have hbound := List.filterMap_length_eq_length.1 hall.1 c c.mem_all
  rw [Option.isSome_map] at hbound
  obtain ⟨s, hs⟩ := Option.isSome_iff_exists.1 hbound
  exact ⟨s, hs, hall.2 _ (mem_boundCorners hs)⟩

/-- A host that answers lookups has a variable or misses it. -/
theorem finds_or_misses (hreply : ∀ q : Query, q.IsLookup → ∃ a, reply q = .ok a) (id : String) :
    (∃ path, Finds reply id path) ∨ Misses reply id := by
  obtain ⟨answer, hvariable⟩ := hreply (.variableById id) trivial
  rcases answer with _ | (v : Variable)
  · exact .inr (.inl hvariable)
  · obtain ⟨answer, hcollection⟩ := hreply (.collectionById v.collectionId) trivial
    rcases answer with _ | (c : VariableCollection)
    · exact .inr (.inr ⟨v, hvariable, hcollection⟩)
    · exact .inl ⟨_, v, c, hvariable, hcollection, rfl⟩

/-- A resolution tells the path of a variable, or that it is missing. -/
theorem resolve_finds (hreply : ∀ q : Query, q.IsLookup → ∃ a, reply q = .ok a) (id : String) :
    ∃ found, (Reference.resolve id).answer reply = .ok found ∧
      ∀ path, found = some path ↔ Finds reply id path := by
  rcases finds_or_misses hreply id with ⟨path, hfinds⟩ | hmisses
  · refine ⟨some path, hfinds.resolve_answer, fun other => ⟨?_, fun h => ?_⟩⟩
    · rintro ⟨⟩
      exact hfinds
    · exact Except.ok.inj (hfinds.resolve_answer.symm.trans h.resolve_answer)
  · refine ⟨none, hmisses.resolve_answer, fun path => iff_of_false nofun fun h => ?_⟩
    cases hmisses.resolve_answer.symm.trans h.resolve_answer

theorem reference_finds
    (hreply : ∀ q : Query, q.IsLookup → ∃ a, reply q = .ok a) (binding : Option VariableRef) :
    ∃ found, (reference true binding).answer reply = .ok found ∧
      ∀ path, found = some path ↔ ∃ r, binding = some r ∧ Finds reply r.id path := by
  cases binding with
  | none => exact ⟨none, rfl, fun path => iff_of_false nofun (by rintro ⟨r, ⟨⟩, -⟩)⟩
  | some r =>
      obtain ⟨found, hfound, hpath⟩ := resolve_finds hreply r.id
      exact ⟨found, hfound, fun path => (hpath path).trans (by simp)⟩

/-- Corners that are looked at one by one each have the line of their variable. -/
theorem boundCornerLines_answer
    {n : Node} {radii : Radii} (hradii : n.kind.radii? = some radii)
    {found : String → Option String}
    (hfound : ∀ id, (Reference.resolve id).answer reply = .ok (found id)) :
    (boundCornerLines n (boundCorners bs)).answer reply =
      .ok (Corner.all.filterMap fun c =>
        ((bs.get? c.bindable).bind fun r => found r.id).map (declaration c.name)) := by
  have hcorner : ∀ p ∈ boundCorners bs, (boundCorner p).answer reply =
      .ok ((found p.2.id).map (declaration p.1.name)).toList := by
    intro p _
    unfold boundCorner
    rw [Script.bind_eq_bind, Script.answer_bind_of_ok (hfound p.2.id)]
    cases found p.2.id with
    | none => rfl
    | some path => rfl
  have hreport : (reportDropped n).answer reply = .ok () := by
    unfold reportDropped
    rw [hradii]
    dsimp only
    split
    · rfl
    · rfl
  have hlines :
      ((boundCorners bs).flatMap fun p => ((found p.2.id).map (declaration p.1.name)).toList) =
      Corner.all.filterMap fun c =>
        ((bs.get? c.bindable).bind fun r => found r.id).map (declaration c.name) := by
    rw [← List.filterMap_eq_flatMap_toList, boundCorners, List.filterMap_filterMap]
    congr 1
    funext c
    cases bs.get? c.bindable with
    | none => rfl
    | some r => rfl
  rw [boundCornerLines_eq, Script.answer_bind_of_ok (Script.answer_collect hcorner), hlines]
  split
  · rw [Script.answer_bind_of_ok hreport, Script.answer_done]
  · rfl

theorem not_boundWhole
    (hmissing : ¬ Resolves reply (bs.get? .cornerRadius))
    (hshared : ∀ id path, SharesCorners bs id → ¬ Finds reply id path) (path : String) :
    ¬ BoundWhole reply bs path := by
  rintro (⟨hr, hfinds⟩ | ⟨-, hshares, hfinds⟩)
  · exact hmissing ⟨_, path, hr, hfinds⟩
  · exact hshared _ path hshares hfinds

/-- What is read from variables is set in one form. -/
theorem boundRadius_setFrom
    {n : Node} {radii : Radii} (hradii : n.kind.radii? = some radii)
    (hreply : ∀ q : Query, q.IsLookup → ∃ a, reply q = .ok a) :
    ∃ lines, (boundRadius n).answer reply = .ok lines ∧
      SetFrom (BoundWhole reply n.attributes.bindings)
        (BoundSingle reply n.attributes.bindings) lines := by
  generalize hbs : n.attributes.bindings = bs
  choose found hfound hfinds using resolve_finds hreply
  obtain ⟨uniform, huniform, hpath⟩ := reference_finds hreply (bs.get? .cornerRadius)
  unfold boundRadius
  rw [hbs, Script.bind_eq_bind, Script.answer_bind_of_ok huniform]
  cases uniform with
  | some path =>
      obtain ⟨r, hr, hpath⟩ := (hpath path).1 rfl
      exact ⟨_, rfl, .shorthand (.uniform hr hpath)⟩
  | none =>
      have hmissing : ¬ Resolves reply (bs.get? .cornerRadius) := by
        rintro ⟨r, path, hr, hfinds⟩
        cases (hpath path).2 ⟨r, hr, hfinds⟩
      dsimp only
      cases hshared : sharedCorner? (boundCorners bs) with
      | some r =>
          have hshares := shares_of_sharedCorner? hshared
          dsimp only
          rw [Script.bind_eq_bind, Script.answer_bind_of_ok (hfound r.id)]
          cases hr : found r.id with
          | some path =>
              exact ⟨_, rfl, .shorthand (.shared hmissing hshares ((hfinds r.id path).1 hr))⟩
          | none =>
              -- No corner falls back on a variable of its own: it is bound to the missing one.
              have hlost : ∀ path, ¬ Finds reply r.id path := by
                intro path h
                cases hr.symm.trans ((hfinds r.id path).2 h)
              refine ⟨_, rfl, .nil (not_boundWhole hmissing fun id path hid => ?_) ?_⟩
              · rw [hid.unique hshares]
                exact hlost path
              · rintro c path ⟨s, hs, h⟩
                obtain ⟨s', hs', hid⟩ := hshares c
                cases hs.symm.trans hs'
                exact hlost path (hid ▸ h)
      | none =>
          refine ⟨_, boundCornerLines_answer hradii hfound,
            .corners (not_boundWhole hmissing ?_) ?_⟩
          · intro id path hshares
            obtain ⟨r, hr, -⟩ := sharedCorner?_of_shares hshares
            cases hshared.symm.trans hr
          · intro c path
            rw [Option.bind_eq_some_iff]
            exact exists_congr fun r => and_congr_right fun _ => hfinds r.id path

/-- A variable of a radius is there if one is read. -/
theorem boundRadius_resolves_iff :
    ((∃ path, BoundWhole reply bs path) ∨ ∃ c path, BoundSingle reply bs c path) ↔
      ∃ b ∈ Bindable.radii, Resolves reply (bs.get? b) := by
  constructor
  · rintro (⟨path, ⟨hr, hfinds⟩ | ⟨-, hshares, hfinds⟩⟩ | ⟨c, path, r, hr, hfinds⟩)
    · exact ⟨_, List.mem_cons_self, _, path, hr, hfinds⟩
    · obtain ⟨r, hr, rfl⟩ := hshares .topLeft
      exact ⟨_, Corner.topLeft.bindable_mem_radii, r, path, hr, hfinds⟩
    · exact ⟨_, c.bindable_mem_radii, r, path, hr, hfinds⟩
  · rintro ⟨b, hb, r, path, hr, hfinds⟩
    rcases List.mem_cons.1 hb with rfl | hb
    · exact .inl ⟨path, .uniform hr hfinds⟩
    · obtain ⟨c, -, rfl⟩ := List.mem_map.1 hb
      exact .inr ⟨c, path, r, hr, hfinds⟩

end Variables

section Literals

variable {n : Node} {radii : Radii}

/-- A radius for all corners. -/
def LiteralWhole (radii : Radii) (text : String) : Prop :=
  ∃ r, radii.uniform = some r ∧ r.px = .ok (some text)

/-- What is written for the literal of a single corner where there is none for all corners: the
length of a positive radius, or a word that is no length where the radius vanishes. -/
inductive LiteralSingle (radii : Radii) (c : Corner) : String → Prop
  | length {r : Binary64} {text : String} :
      radii.uniform = none → radii.corner c = some r → 0 < r.value → r.px = .ok (some text) →
      LiteralSingle radii c text
  | vanishing : radii.uniform = none → Vanishes (radii.corner c) → LiteralSingle radii c "None"

theorem LiteralSingle.uniform {c : Corner} {text : String} (h : LiteralSingle radii c text) :
    radii.uniform = none := by
  cases h with
  | length huniform => exact huniform
  | vanishing huniform => exact huniform

/-- A positive radius has its length, or the word for none where it vanishes. -/
theorem literalSingle_of_pos
    {c : Corner} {r : Binary64} (huniform : radii.uniform = none) (hr : radii.corner c = some r)
    (hfinite : r.isFinite = true) (hpos : 0 < r.value) :
    ∃ length?, r.px = .ok length? ∧
      ∀ text, some (length?.getD "None") = some text ↔ LiteralSingle radii c text := by
  obtain ⟨k, hk, ⟨rfl, hpx⟩ | ⟨hne, t, -, hpx⟩⟩ := r.px_eq hfinite
  · refine ⟨none, hpx, fun text => ⟨?_, fun h => ?_⟩⟩
    · rintro ⟨⟩
      exact .vanishing huniform (by rw [hr]; exact ⟨hpos, hk⟩)
    · cases h with
      | length _ hs _ hother =>
          cases hr.symm.trans hs
          cases hpx.symm.trans hother
      | vanishing => rfl
  · refine ⟨some _, hpx, fun text => ⟨?_, fun h => ?_⟩⟩
    · rintro ⟨⟩
      exact .length huniform hr hpos hpx
    · cases h with
      | length _ hs _ hother =>
          cases hr.symm.trans hs
          cases hpx.symm.trans hother
          rfl
      | vanishing _ hvanishes =>
          rw [hr] at hvanishes
          exact absurd (hk.eq_zero hvanishes.2) hne

/-- A corner without a radius for all corners has one line at most. -/
theorem literalCorner_setFrom
    {c : Corner} (huniform : radii.uniform = none)
    (hfinite : ∀ r, radii.corner c = some r → r.isFinite = true) :
    ∃ value : Option String, literalCorner radii c = .done (value.map (declaration c.name)).toList ∧
      ∀ text, value = some text ↔ LiteralSingle radii c text := by
  by_cases hpos : ∃ r, radii.corner c = some r ∧ 0 < r.value
  · obtain ⟨r, hr, hpos⟩ := hpos
    obtain ⟨length?, hpx, htext⟩ := literalSingle_of_pos huniform hr (hfinite r hr) hpos
    have hlarger : isPositive (some r) = true := (Binary64.zero_lt_iff (hfinite r hr)).2 hpos
    exact ⟨some (length?.getD "None"), literalCorner_of_positive hr hlarger hpx, htext⟩
  · refine ⟨none, literalCorner_of_not_positive ?_, fun text => iff_of_false nofun fun h => ?_⟩
    · cases hr : radii.corner c with
      | none => rfl
      | some r =>
          rw [← Bool.not_eq_true]
          exact fun h => hpos ⟨r, hr, (Binary64.zero_lt_iff (hfinite r hr)).1 h⟩
    · cases h with
      | length _ hr hr' => exact hpos ⟨_, hr, hr'⟩
      | vanishing _ hvanishes =>
          cases hr : radii.corner c with
          | none =>
              rw [hr] at hvanishes
              exact hvanishes
          | some r =>
              rw [hr] at hvanishes
              exact hpos ⟨r, hr, hvanishes.1⟩

/-- What is written from literals is set in one form. -/
theorem literalRadius_setFrom
    (hradii : n.kind.radii? = some radii)
    (huniform : ∀ r, radii.uniform = some r → r.isFinite = true)
    (hfinite : ∀ c r, radii.corner c = some r → r.isFinite = true) (reply : (q : Query) → q.Reply) :
    ∃ lines, (literalRadius n).answer reply = .ok lines ∧
      SetFrom (LiteralWhole radii) (LiteralSingle radii) lines := by
  unfold literalRadius
  rw [hradii]
  dsimp only
  cases hu : radii.uniform with
  | some r =>
      have hsingle : ∀ c text, ¬ LiteralSingle radii c text := by
        intro c text h
        cases h.uniform.symm.trans hu
      dsimp only
      obtain ⟨-, -, ⟨-, hpx⟩ | ⟨-, _, -, hpx⟩⟩ := r.px_eq (huniform r hu)
      · refine ⟨[], ?_, .nil ?_ hsingle⟩
        · rw [pixels, hpx]
          rfl
        · rintro text ⟨s, hs, hother⟩
          cases hu.symm.trans hs
          cases hpx.symm.trans hother
      · refine ⟨_, ?_, .shorthand ⟨r, hu, hpx⟩⟩
        rw [pixels, hpx]
        show Except.ok (declare? borderRadius (some _)) = _
        rw [declare?, if_neg (Binary64.px_isValue hpx).ne_empty]
  | none =>
      choose value hvalue hsingle using fun c => literalCorner_setFrom hu (hfinite c)
      have hcorners : (Script.collect (literalCorner radii) Corner.all).answer reply =
          .ok (Corner.all.filterMap fun c => (value c).map (declaration c.name)) := by
        rw [List.filterMap_eq_flatMap_toList]
        refine Script.answer_collect ?_
        intro c _
        rw [hvalue, Script.answer_done]
      refine ⟨_, hcorners, .corners ?_ hsingle⟩
      rintro text ⟨r, hr, -⟩
      cases hu.symm.trans hr

end Literals

section Shared

variable {n : Node} {id : String}

theorem boundRadius_of_bindsCorners (h : BindsCorners n.attributes.bindings id) :
    boundRadius n =
      (Reference.resolve id).bind fun found =>
          .done (found.map (declaration borderRadius.name)).toList := by
  obtain ⟨r, hr, rfl⟩ := sharedCorner?_of_shares h.corners
  rw [boundRadius, h.uniform]
  simp only [reference, Script.pure_eq_done, Script.bind_eq_bind, Script.done_bind, hr]
  congr 1
  funext found
  cases found with
  | none => rfl
  | some path => rfl

theorem boundRadius_of_bindsUniform (h : BindsUniform n.attributes.bindings id) :
    boundRadius n =
      (Reference.resolve id).bind fun found =>
          .done (found.map (declaration borderRadius.name)).toList := by
  obtain ⟨r, hr, rfl⟩ := h.uniform
  have hcorners : boundCorners n.attributes.bindings = [] := by
    simp [boundCorners, h.corners]
  unfold boundRadius
  rw [hr, hcorners]
  show Script.bind _ _ = Script.bind _ _
  congr 1
  funext found
  cases found with
  | none => rfl
  | some path => rfl

/-- The radii depend on the bindings only through what the bindings give. -/
theorem radiusLines_congr
    {n' : Node} (hkind : n'.kind = n.kind) (hbound : boundRadius n = boundRadius n')
    (followed : Bool) :
    radiusLines followed n = radiusLines followed n' := by
  have hliteral : literalRadius n = literalRadius n' := by
    rw [literalRadius, literalRadius, lacking, lacking, hkind]
  rw [radiusLines, radiusLines, hkind, hbound, hliteral]

end Shared

/-- Variables are followed, and one of a radius is there. -/
def ReadsVariable (reply : (q : Query) → q.Reply) (followed : Bool) (bs : Bindings) : Prop :=
  followed = true ∧ ∃ b ∈ Bindable.radii, Resolves reply (bs.get? b)

/-- **Radii are set in one form, from one source.** Whether variables are followed or not, the radii
of a rectangle are at most one line for all corners, or lines for single corners in their order. If
variables are followed and one of a radius is there, they are read from variables, and there is a
line. Otherwise they are literals, and a corner of which the radius vanishes is the one that has a
line without a length. A variable at each single corner has the same script, and so the same lines
and calls, as the variable at all of them. -/
theorem radius_forms
    {n : Node} {form : Shape} {paints : Paints} {radii : Radii}
    (hn : n.kind = .shape form paints radii) (hform : form ≠ .ellipse) (followed : Bool) :
    (∀ reply : (q : Query) → q.Reply,
      (∀ q : Query, q.IsLookup → ∃ a, reply q = .ok a) →
      (∀ r, radii.uniform = some r → r.isFinite = true) →
      (∀ c r, radii.corner c = some r → r.isFinite = true) →
      ∃ lines, (borderRadius.lines followed n).answer reply = .ok lines ∧
        (ReadsVariable reply followed n.attributes.bindings →
          lines ≠ [] ∧
          SetFrom (BoundWhole reply n.attributes.bindings) (BoundSingle reply n.attributes.bindings)
            lines) ∧
        (¬ ReadsVariable reply followed n.attributes.bindings →
          SetFrom (LiteralWhole radii) (LiteralSingle radii) lines)) ∧
    ∀ (n' : Node) (id : String),
      n'.kind = n.kind →
      BindsCorners n.attributes.bindings id →
      BindsUniform n'.attributes.bindings id →
      borderRadius.lines followed n = borderRadius.lines followed n' := by
  have hradii : n.kind.radii? = some radii := by rw [hn]; rfl
  constructor
  · intro reply hreply huniform hfinite
    obtain ⟨bound, hbound, hset⟩ := boundRadius_setFrom hradii hreply
    obtain ⟨literal, hliteral, hset'⟩ := literalRadius_setFrom hradii huniform hfinite reply
    have hread : bound ≠ [] ↔ ∃ b ∈ Bindable.radii, Resolves reply (n.attributes.bindings.get? b) :=
      hset.ne_nil_iff.trans boundRadius_resolves_iff
    show ∃ lines, (radiusLines followed n).answer reply = .ok lines ∧ _
    rw [radiusLines_eq followed (ne_ellipse hn hform)]
    cases followed with
    | false => exact ⟨literal, hliteral, fun h => absurd h.1 Bool.false_ne_true, fun _ => hset'⟩
    | true =>
        rw [if_pos rfl, Script.answer_bind_of_ok hbound]
        by_cases hnil : bound = []
        · refine ⟨literal, by rw [if_pos hnil, hliteral], fun h => ?_, fun _ => hset'⟩
          exact absurd hnil (hread.2 h.2)
        · refine ⟨bound, by rw [if_neg hnil, Script.answer_done], fun _ => ⟨hnil, hset⟩,
            fun h => ?_⟩
          exact absurd ⟨rfl, hread.1 hnil⟩ h
  · intro n' id hkind hcorners huniform
    refine radiusLines_congr hkind ?_ followed
    rw [boundRadius_of_bindsCorners hcorners, boundRadius_of_bindsUniform huniform]

/-- Bindings of these attributes to the variable of `oneRadius`. -/
def roundBindings (bs : List Bindable) : Bindings :=
  ⟨bs.map fun b => (b, ⟨"round", "VARIABLE_ALIAS"⟩)⟩

/-- A box of which every corner is bound. -/
def cornersBox : Node := roundedBox (roundBindings (Corner.all.map Corner.bindable)) mixedRadii

/-- The same box, bound at all corners at once. -/
def uniformBox : Node := roundedBox (roundBindings [.cornerRadius]) mixedRadii

/-- Both boxes read the variable. -/
theorem radius_forms_boxes :
    cornersBox.kind = .shape .rectangle ⟨[], [], none⟩ mixedRadii ∧
    Shape.rectangle ≠ .ellipse ∧
    (∀ q : Query, q.IsLookup → ∃ a, oneRadius.reply q = .ok a) ∧
    (∀ r, mixedRadii.uniform = some r → r.isFinite = true) ∧
    (∀ c r, mixedRadii.corner c = some r → r.isFinite = true) ∧
    ReadsVariable oneRadius.reply true cornersBox.attributes.bindings ∧
    uniformBox.kind = cornersBox.kind ∧
    BindsCorners cornersBox.attributes.bindings "round" ∧
    BindsUniform uniformBox.attributes.bindings "round" ∧
    (∃ lines, (borderRadius.lines true cornersBox).answer oneRadius.reply = .ok lines ∧
      lines ≠ [] ∧
      SetFrom (BoundWhole oneRadius.reply cornersBox.attributes.bindings)
        (BoundSingle oneRadius.reply cornersBox.attributes.bindings) lines) ∧
    borderRadius.lines true cornersBox = borderRadius.lines true uniformBox := by
  have hhost : ∀ q : Query, q.IsLookup → ∃ a, oneRadius.reply q = .ok a :=
    fun q hq => tables_answer oneRadius q hq ()
  have huniform : ∀ r, mixedRadii.uniform = some r → r.isFinite = true := by rintro _ ⟨⟩
  have hread : ReadsVariable oneRadius.reply true cornersBox.attributes.bindings := by
    have hfinds : ∃ path, Finds oneRadius.reply "round" path := ⟨_, _, _, rfl, rfl, rfl⟩
    obtain ⟨path, hpath⟩ := hfinds
    exact ⟨rfl, .topLeftRadius, by decide, ⟨"round", "VARIABLE_ALIAS"⟩, path, rfl, hpath⟩
  have hcorners : BindsCorners cornersBox.attributes.bindings "round" := by
    refine ⟨rfl, fun c => ?_⟩
    cases c <;> exact ⟨_, rfl, rfl⟩
  have huniformly : BindsUniform uniformBox.attributes.bindings "round" := by
    refine ⟨⟨_, rfl, rfl⟩, fun c => ?_⟩
    cases c <;> rfl
  obtain ⟨hforms, hshared⟩ := radius_forms (n := cornersBox) rfl (by decide) true
  obtain ⟨lines, hlines, hset, -⟩ := hforms oneRadius.reply hhost huniform mixedRadii_finite
  exact ⟨rfl, by decide, hhost, huniform, mixedRadii_finite, hread, rfl, hcorners, huniformly,
    ⟨lines, hlines, hset hread⟩, hshared uniformBox "round" rfl hcorners huniformly⟩

end Property
end SceneMarkup
