import SceneMarkup.Proofs.Degradation
import SceneMarkup.Proofs.Places

/-!
# The radii of single corners

A rectangle without a radius for all corners and without bindings that lead anywhere writes a radius
of its own for each corner. A radius that is zero when rounded to three places should not be
written, and a positive one as a length.

* `ZeroRule`: what should be written for a corner.
* `Vanishes`: the radius is positive, but rounds to zero.
* `Property.corners_zeroRule`: the rule is kept at each corner but for those where the radius
  vanishes. They are written without a length.
-/

namespace SceneMarkup

theorem isNearest_zero {q : ℚ} (hq : |q| < 1 / 2) : IsNearest q 0 := by
  have hfar : ∀ j : ℤ, j ≠ 0 → |q| < |q - j| := by
    intro j hj
    have hone : (1 : ℚ) ≤ |(j : ℚ)| := by exact_mod_cast Int.one_le_abs hj
    have htriangle : |(j : ℚ)| - |q| ≤ |(j : ℚ) - q| := abs_sub_abs_le_abs_sub _ _
    rw [abs_sub_comm] at htriangle
    linarith
  constructor
  · intro j
    rw [Int.cast_zero, sub_zero]
    by_cases hj : j = 0
    · rw [hj, Int.cast_zero, sub_zero]
    · exact (hfar j hj).le
  · intro j hj
    rw [Int.cast_zero, sub_zero] at hj
    by_contra hne
    have hj0 : j ≠ 0 := by
      rintro rfl
      exact hne le_rfl
    exact (hfar j hj0).ne' hj

namespace IsNearest

variable {q : ℚ} {k : ℤ}

/-- A number nearest to zero is nearest to no other integer. -/
theorem eq_zero (h : IsNearest q k) (hzero : IsNearest q 0) : k = 0 :=
  abs_nonpos_iff.1 (hzero.away k (le_antisymm (h.near 0) (hzero.near k)))

theorem nonneg (h : IsNearest q k) (hq : 0 ≤ q) : 0 ≤ k := by
  by_contra hneg
  have hk : (k : ℚ) < 0 := by exact_mod_cast not_le.1 hneg
  have hnear := h.near 0
  rw [Int.cast_zero, sub_zero, abs_of_nonneg hq, abs_of_nonneg (by linarith)] at hnear
  linarith

theorem nonpos (h : IsNearest q k) (hq : q ≤ 0) : k ≤ 0 :=
  neg_nonneg.1 (h.neg.nonneg (neg_nonneg.2 hq))

end IsNearest

namespace Binary64

variable {x : Binary64}

/-- The decimal that a finite number is written with. -/
def decimal : Binary64 → Decimal
  | finite s m e _ => Decimal.shortest s m e
  | _ => ⟨false, 0, 0⟩

/-- Finite numbers are compared by their exact values. -/
theorem lt_iff {y : Binary64} (hy : y.isFinite = true) (hx : x.isFinite = true) :
    y.lt x = true ↔ y.value < x.value := by
  have hxunit : 0 < (x.ratio.2 : ℚ) := Nat.cast_pos.2 x.ratio_pos
  have hyunit : 0 < (y.ratio.2 : ℚ) := Nat.cast_pos.2 y.ratio_pos
  have hcompared : y.lt x = decide (y.ratio.1 * (x.ratio.2 : ℤ) < x.ratio.1 * (y.ratio.2 : ℤ)) := by
    cases y with
    | nan => cases hy
    | infinite t => cases hy
    | finite t u f hcanonical =>
        cases x with
        | nan => cases hx
        | infinite s => cases hx
        | finite s m e h => rfl
  rw [hcompared, decide_eq_true_iff, value, value, div_lt_div_iff₀ hyunit hxunit]
  exact_mod_cast Iff.rfl

/-- The comparison with zero sees the exact value. -/
theorem zero_lt_iff (hx : x.isFinite = true) : (zero false).lt x = true ↔ 0 < x.value := by
  rw [lt_iff rfl hx, value_zero]

theorem shortest_negative (s : Bool) (m : ℕ) (e : ℤ) : (Decimal.shortest s m e).negative = s := by
  unfold Decimal.shortest
  split
  · rfl
  · rfl

/-- The decimal of a positive number is not negative. -/
theorem decimal_nonneg (h : 0 < x.value) : 0 ≤ x.decimal.value := by
  cases x with
  | nan => simp [decimal, Decimal.value]
  | infinite s => simp [decimal, Decimal.value]
  | finite s m e hcanonical =>
      have hmagnitude : (0 : ℚ) ≤ m * 2 ^ e := mul_nonneg (Nat.cast_nonneg m) (two_zpow_pos e).le
      rw [value_finite] at h
      cases s with
      | true =>
          rw [signum, if_pos rfl] at h
          linarith
      | false =>
          rw [decimal, Decimal.value, shortest_negative, ← Decimal.abs_value, signum,
            if_neg Bool.false_ne_true, one_mul]
          exact abs_nonneg _

/-- The decimal of a number that is not positive is not positive. -/
theorem decimal_nonpos (h : ¬ 0 < x.value) : x.decimal.value ≤ 0 := by
  cases x with
  | nan => simp [decimal, Decimal.value]
  | infinite s => simp [decimal, Decimal.value]
  | finite s m e hcanonical =>
      rw [value_finite] at h
      cases s with
      | true =>
          rw [decimal, Decimal.value, shortest_negative, ← Decimal.abs_value, signum, if_pos rfl,
            neg_one_mul]
          exact neg_nonpos.2 (abs_nonneg _)
      | false =>
          have hzero : m = 0 := by
            by_contra hne
            have hm : (0 : ℚ) < m := by exact_mod_cast Nat.pos_of_ne_zero hne
            rw [signum, if_neg Bool.false_ne_true, one_mul] at h
            exact h (mul_pos hm (two_zpow_pos e))
          subst hzero
          simp [decimal, Decimal.shortest, Decimal.value]

/-- A finite number has a length in pixels, in thousandths, if its nearest number of thousandths is
not zero. -/
theorem px_eq (hx : x.isFinite = true) :
    ∃ k, IsNearest (x.decimal.value * 10 ^ 3) k ∧
      (k = 0 ∧ x.px = .ok none ∨
        k ≠ 0 ∧ ∃ t : PlainNumeral, t.value = k / 10 ^ 3 ∧ x.px = .ok (some (t.text ++ "px"))) := by
  cases x with
  | nan => cases hx
  | infinite s => cases hx
  | finite s m e h =>
      obtain ⟨result, hresult, hrounded⟩ := (Decimal.shortest s m e).toPlaces_rounded 3
      have hplaces : (finite s m e h).toPlaces markupPlaces = .ok result := hresult
      rw [px, hplaces]
      cases hrounded with
      | nothing hsmall =>
          refine ⟨0, isNearest_zero ?_, .inl ⟨rfl, rfl⟩⟩
          rwa [abs_mul, abs_of_pos (by norm_num : (0 : ℚ) < 10 ^ 3)]
      | @numeral t k _ hnearest hvalue hne =>
          refine ⟨k, hnearest, .inr ⟨?_, t, hvalue, rfl⟩⟩
          rintro rfl
          exact hne (by rw [hvalue, Int.cast_zero, zero_div])

end Binary64

namespace Script

variable {α β σ : Type} {host : Host σ}

/-- Against a host, whatever its state, a script comes to a result. -/
def Returns (host : Host σ) (s : Script α) (a : α) : Prop :=
  ∀ state, (s.run host state).outcome = .ok a

theorem Returns.bind
    {s : Script α} {k : α → Script β} {a : α} {b : β}
    (hs : s.Returns host a) (hk : (k a).Returns host b) :
    (s.bind k).Returns host b := by
  intro state
  rw [bind_eq_resume, run_resume, Transcript.andThen, hs state]
  exact hk _

theorem Returns.collect
    {f : α → Script (List β)} {g : α → List β} {l : List α}
    (hf : ∀ a ∈ l, (f a).Returns host (g a)) :
    (collect f l).Returns host (l.flatMap g) := by
  induction l with
  | nil => exact fun _ => rfl
  | cons a rest ih =>
      obtain ⟨hhead, hrest⟩ := List.forall_mem_cons.1 hf
      exact hhead.bind ((ih hrest).bind fun _ => rfl)

end Script

/-- The attributes of a node that bind its radii. -/
def Bindable.radii : List Bindable := .cornerRadius :: Corner.all.map Corner.bindable

theorem Corner.mem_all (c : Corner) : c ∈ Corner.all := by
  cases c <;> decide

theorem Corner.bindable_mem_radii (c : Corner) : c.bindable ∈ Bindable.radii :=
  List.mem_cons_of_mem _ (List.mem_map_of_mem c.mem_all)

/-- No binding of a radius leads to a variable that the host has. -/
def Unresolved {σ : Type} (host : Host σ) (bs : Bindings) : Prop :=
  ∀ b ∈ Bindable.radii, ∀ r, bs.get? b = some r → (Reference.resolve r.id).Returns host none

/-- A bound corner leads nowhere where no binding of a radius does. -/
theorem Unresolved.corner
    {σ : Type} {host : Host σ} {bs : Bindings} (h : Unresolved host bs) {c : Corner}
    {r : VariableRef}
    (hr : (c, r) ∈ Property.boundCorners bs) :
    (Reference.resolve r.id).Returns host none :=
  h c.bindable c.bindable_mem_radii r (Property.boundCorners_mem hr)

namespace Property

/-- Where no binding of a radius leads anywhere there are no bound lines. -/
theorem boundRadius_unresolved
    {σ : Type} {host : Host σ} {n : Node} (h : Unresolved host n.attributes.bindings) :
    (boundRadius n).Returns host [] := by
  have huniform :
      (reference true (n.attributes.bindings.get? .cornerRadius)).Returns host none := by
    cases hbound : n.attributes.bindings.get? .cornerRadius with
    | none => exact fun _ => rfl
    | some r => exact h _ List.mem_cons_self r hbound
  refine huniform.bind ?_
  dsimp only
  cases hshared : sharedCorner? (boundCorners n.attributes.bindings) with
  | some r =>
      obtain ⟨c, hc⟩ := sharedCorner?_mem hshared
      exact (h.corner hc).bind fun _ => rfl
  | none =>
      have hcorners : (Script.collect boundCorner (boundCorners n.attributes.bindings)).Returns host
          ((boundCorners n.attributes.bindings).flatMap fun _ => []) :=
        Script.Returns.collect fun c hc => (h.corner hc).bind fun _ => rfl
      have hnone :
          ((boundCorners n.attributes.bindings).flatMap fun _ => ([] : List String)) = [] := by
        simp
      rw [hnone] at hcorners
      dsimp only
      rw [boundCornerLines_eq]
      exact hcorners.bind fun _ => rfl

section Corners

variable {radii : Radii} {c : Corner}

/-- A corner without a positive radius has no line. -/
theorem literalCorner_of_not_positive (h : isPositive (radii.corner c) = false) :
    literalCorner radii c = .done [] := by
  unfold literalCorner
  split
  · rfl
  next r hr =>
    rw [hr] at h
    rw [if_neg (by rw [h]; exact Bool.false_ne_true)]
    rfl

/-- A corner with a positive radius has a line, with a length or without one. -/
theorem literalCorner_of_positive
    {x : Binary64} {t : Option String} (hx : radii.corner c = some x)
    (hpos : isPositive (some x) = true)
    (ht : x.px = .ok t) :
    literalCorner radii c = .done [declaration c.name (t.getD "None")] := by
  unfold literalCorner
  rw [hx]
  dsimp only
  rw [if_pos hpos, ht]
  rfl

/-- What should be written for a corner with this radius of its own, if any: nothing where it is at
most zero when rounded to thousandths, and otherwise a length. -/
inductive ZeroRule (c : Corner) : Option Binary64 → List String → Prop
  | absent : ZeroRule c none []
  | nothing {x : Binary64} {k : ℤ}
      (hnearest : IsNearest (x.decimal.value * 10 ^ 3) k) (hk : k ≤ 0) :
      ZeroRule c (some x) []
  | length {x : Binary64} {k : ℤ} {t : PlainNumeral}
      (hnearest : IsNearest (x.decimal.value * 10 ^ 3) k) (hk : 0 < k)
      (hvalue : t.value = k / 10 ^ 3) :
      ZeroRule c (some x) [declaration c.name (t.text ++ "px")]

/-- A radius is greater than zero, and zero when rounded to thousandths. -/
def Vanishes : Option Binary64 → Prop
  | none => False
  | some r => 0 < r.value ∧ IsNearest (r.decimal.value * 10 ^ 3) 0

/-- A corner follows the zero rule unless its radius vanishes, and has no length then. -/
theorem literalCorner_zeroRule (hfinite : ∀ x, radii.corner c = some x → x.isFinite = true) :
    ∃ lines, literalCorner radii c = .done lines ∧
      (ZeroRule c (radii.corner c) lines ↔ ¬ Vanishes (radii.corner c)) ∧
      (Vanishes (radii.corner c) → lines = [declaration c.name "None"]) := by
  cases hr : radii.corner c with
  | none =>
      have hnothing : literalCorner radii c = .done [] :=
        literalCorner_of_not_positive (by rw [hr]; rfl)
      exact ⟨[], hnothing, iff_of_true .absent id, False.elim⟩
  | some x =>
      have hx := hfinite x hr
      obtain ⟨k, hk, hpx⟩ := x.px_eq hx
      by_cases hpos : 0 < x.value
      · have hlarger : isPositive (some x) = true := (Binary64.zero_lt_iff hx).2 hpos
        rcases hpx with ⟨rfl, hpx⟩ | ⟨hne, t, ht, hpx⟩
        · -- The comparison sees the radius before it is rounded, so there is a line, but no length.
          refine ⟨_, literalCorner_of_positive hr hlarger hpx, ?_, fun _ => rfl⟩
          refine iff_of_false ?_ (not_not.2 ⟨hpos, hk⟩)
          generalize hlines : [declaration c.name ((none : Option String).getD "None")] = lines
          rintro (_ | _ | ⟨hnearest, hkpos, -⟩)
          · cases hlines
          · exact hkpos.ne' (hnearest.eq_zero hk)
        · have hthousandths : 0 ≤ x.decimal.value * 10 ^ 3 :=
            mul_nonneg (Binary64.decimal_nonneg hpos) (by norm_num)
          have hkpos : 0 < k := lt_of_le_of_ne (hk.nonneg hthousandths) hne.symm
          have hstays : ¬ Vanishes (some x) := fun h => hne (hk.eq_zero h.2)
          refine ⟨_, literalCorner_of_positive hr hlarger hpx, ?_, fun h => absurd h hstays⟩
          exact iff_of_true (.length hk hkpos ht) hstays
      · have hnothing : literalCorner radii c = .done [] := by
          refine literalCorner_of_not_positive ?_
          rw [hr, ← Bool.not_eq_true]
          exact fun h => hpos ((Binary64.zero_lt_iff hx).1 h)
        have hthousandths : x.decimal.value * 10 ^ 3 ≤ 0 :=
          mul_nonpos_of_nonpos_of_nonneg (Binary64.decimal_nonpos hpos) (by norm_num)
        refine ⟨[], hnothing, ?_, fun h => absurd h.1 hpos⟩
        exact iff_of_true (.nothing hk (hk.nonpos hthousandths)) fun h => hpos h.1

end Corners

theorem ne_ellipse {n : Node} {form : Shape} {paints : Paints} {radii : Radii}
    (hn : n.kind = .shape form paints radii) (hform : form ≠ .ellipse) :
    ∀ paints radii, n.kind ≠ .shape .ellipse paints radii := by
  intro paints' radii' h
  rw [hn] at h
  cases h
  exact hform rfl

/-- **The zero rule for single corners, and where it is broken.** Where no binding of a radius leads
anywhere and there is no radius for all corners, each corner contributes a part of its own, in the
order of the corners. The part follows the zero rule, unless the radius is positive and rounds to
zero. It then declares no length. -/
theorem corners_zeroRule
    {σ : Type} {host : Host σ} {n : Node} {form : Shape} {paints : Paints} {radii : Radii}
    (hn : n.kind = .shape form paints radii) (hform : form ≠ .ellipse)
    (huniform : radii.uniform = none)
    (hfinite : ∀ c x, radii.corner c = some x → x.isFinite = true)
    {followed : Bool} (hunresolved : followed = true → Unresolved host n.attributes.bindings)
    (state : σ) :
    ∃ part : Corner → List String,
      ((borderRadius.lines followed n).run host state).outcome = .ok (Corner.all.flatMap part) ∧
      ∀ c,
        (ZeroRule c (radii.corner c) (part c) ↔ ¬ Vanishes (radii.corner c)) ∧
        (Vanishes (radii.corner c) → part c = [declaration c.name "None"]) := by
  choose part hpart hrule using fun c => literalCorner_zeroRule (hfinite c)
  refine ⟨part, ?_, hrule⟩
  have hbound : (if followed then boundRadius n else .done []).Returns host [] := by
    cases followed with
    | false => exact fun _ => rfl
    | true => exact boundRadius_unresolved (hunresolved rfl)
  have hliteral : (literalRadius n).Returns host (Corner.all.flatMap part) := by
    have hradii : n.kind.radii? = some radii := by rw [hn]; rfl
    unfold literalRadius
    rw [hradii]
    dsimp only
    rw [huniform]
    refine Script.Returns.collect ?_
    intro c _
    rw [hpart]
    exact fun _ => rfl
  have hlines : (borderRadius.lines followed n).Returns host (Corner.all.flatMap part) := by
    show (radiusLines followed n).Returns host _
    rw [radiusLines_eq followed (ne_ellipse hn hform)]
    exact hbound.bind hliteral
  exact hlines state

/-- A radius of 0.0004. -/
def hairline : Binary64 := .ofDecimal false 4 (-4)

/-- A radius of less than half a thousandth vanishes. -/
theorem hairline_vanishes : Vanishes (some hairline) := by
  have hfinite : hairline.isFinite = true := by decide +kernel
  have hpositive : (Binary64.zero false).lt hairline = true := by decide +kernel
  have hdecimal : hairline.decimal = ⟨false, 4, -4⟩ := by decide +kernel
  refine ⟨(Binary64.zero_lt_iff hfinite).1 hpositive, isNearest_zero ?_⟩
  rw [hdecimal, Decimal.value]
  norm_num [Binary64.signum, abs_of_pos]

/-- A box with these bindings and radii. -/
def roundedBox (bindings : Bindings) (radii : Radii) : Node :=
  .mk (.bare "1:1" "Box" bindings) (.shape .rectangle ⟨[], [], none⟩ radii) []

/-- A corner that vanishes, a round one, and two that are not round. -/
def mixedRadii : Radii := ⟨none, some hairline, some .one, some (.zero false), none⟩

theorem mixedRadii_finite : ∀ c x, mixedRadii.corner c = some x → x.isFinite = true := by
  rintro (_ | _ | _ | _) _ ⟨⟩ <;> decide +kernel

/-- A box with such corners, one of which is bound to a variable that is missing. -/
def mixedBox : Node := roundedBox ⟨[(.topRightRadius, ⟨"lost", "VARIABLE_ALIAS"⟩)]⟩ mixedRadii

theorem corners_zeroRule_mixedBox :
    mixedBox.kind = .shape .rectangle ⟨[], [], none⟩ mixedRadii ∧
    Shape.rectangle ≠ .ellipse ∧
    mixedRadii.uniform = none ∧
    (∀ c x, mixedRadii.corner c = some x → x.isFinite = true) ∧
    Unresolved Tables.empty.host mixedBox.attributes.bindings ∧
    ∃ part : Corner → List String,
      ((borderRadius.lines true mixedBox).run Tables.empty.host ()).outcome =
        .ok (Corner.all.flatMap part) ∧
      ∀ c,
        (ZeroRule c (mixedRadii.corner c) (part c) ↔ ¬ Vanishes (mixedRadii.corner c)) ∧
        (Vanishes (mixedRadii.corner c) → part c = [declaration c.name "None"]) := by
  have hunresolved : Unresolved Tables.empty.host mixedBox.attributes.bindings :=
    fun _ _ _ _ _ => rfl
  exact ⟨rfl, by decide, rfl, mixedRadii_finite, hunresolved,
    corners_zeroRule rfl (by decide) rfl mixedRadii_finite (fun _ => hunresolved) ()⟩

/-- A radius of 0.0004 at one corner and none elsewhere. -/
def loneRadius : Radii := ⟨none, some hairline, none, none, none⟩

/-- The corner is written, which breaks the zero rule, and it is written without a length. -/
theorem loneRadius_written :
    ((borderRadius.lines true (roundedBox .empty loneRadius)).run Tables.empty.host ()).outcome =
      .ok [declaration Corner.topLeft.name "None"] ∧
    ¬ ∃ part : Corner → List String,
      [declaration Corner.topLeft.name "None"] = Corner.all.flatMap part ∧
      ∀ c, ZeroRule c (loneRadius.corner c) (part c) := by
  refine ⟨by decide +kernel, ?_⟩
  rintro ⟨part, hlines, hrule⟩
  have hnothing : ∀ c, part c = [] := by
    intro c
    have hcorner := hrule c
    generalize part c = lines at hcorner
    cases c with
    | topLeft =>
        rcases hcorner with _ | _ | ⟨hnearest, hpos, -⟩
        · rfl
        · exact absurd (hnearest.eq_zero hairline_vanishes.2) hpos.ne'
    | topRight | bottomLeft | bottomRight =>
        cases hcorner
        rfl
  rw [List.flatMap_eq_nil_iff.2 fun c _ => hnothing c] at hlines
  cases hlines

end Property
end SceneMarkup
