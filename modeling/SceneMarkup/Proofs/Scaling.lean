import SceneMarkup.Proofs.Nearest

/-!
# Shares of a number of steps

A number between zero and one is written as a whole number of steps: a channel in 255 of them, a
position in one hundred. The product is rounded, and so is the sum with one half. Each of the two
roundings keeps the order of numbers, so the number of steps does not leave its range and never goes
down when the share goes up.

* `Rounds.mono`: rounding keeps the order.
* `Canonical.rounds`: a binary number rounds to itself.
* `mul_rounds`: a positive product is rounded once.
* `Share`: so many steps are a share of all steps. `Share.mono`, `Share.zero`, `Steps.share_one` say
  how their number depends on the share.
* `Steps.nearestInt_mul`: this is what is computed.
-/

namespace SceneMarkup

namespace Binary64

theorem IsNearestEven.mono {q q' : ℚ} {m m' : ℕ} (h : IsNearestEven q m) (h' : IsNearestEven q' m')
    (hle : q ≤ q') :
    m ≤ m' := by
  by_contra hless
  have hnext : (m' : ℚ) + 1 ≤ m := by exact_mod_cast not_le.1 hless
  have hlow := (abs_le.1 h.near).1
  have hhigh := (abs_le.1 h'.near).2
  -- Both numbers are halfway between two integers, and only one of these is even.
  have hsame : q = m' + 1 / 2 := by linarith
  have hsame' : q' = m' + 1 / 2 := by linarith
  have hm : m = m' + 1 := by
    have hcast : (m : ℚ) = m' + 1 := by linarith
    exact_mod_cast hcast
  have heven : m % 2 = 0 := h.even (by rw [hsame, hm, abs_of_nonpos] <;> push_cast <;> linarith)
  have heven' : m' % 2 = 0 := h'.even (by rw [hsame', abs_of_nonneg] <;> linarith)
  omega

theorem Rounds.mono {q q' : ℚ} {m m' : ℕ} {e e' : ℤ} (h : Rounds q m e) (h' : Rounds q' m' e')
    (hle : q ≤ q') :
    (m : ℚ) * 2 ^ e ≤ m' * 2 ^ e' := by
  rcases lt_trichotomy e e' with hless | rfl | hmore
  · have hm : (m : ℚ) ≤ 2 ^ 53 := by exact_mod_cast h.le
    have hm' : (2 ^ 52 : ℚ) ≤ m' := by exact_mod_cast h'.ge (by have := h.least; omega)
    calc (m : ℚ) * 2 ^ e ≤ 2 ^ 53 * 2 ^ e := mul_le_mul_of_nonneg_right hm (two_zpow_pos e).le
      _ = 2 ^ 52 * 2 ^ (e + 1) := by
          rw [zpow_add_one₀ two_ne_zero]
          ring
      _ ≤ 2 ^ 52 * 2 ^ e' := by
          refine mul_le_mul_of_nonneg_left ?_ (by positivity)
          exact zpow_le_zpow_right₀ one_le_two (by omega)
      _ ≤ m' * 2 ^ e' := mul_le_mul_of_nonneg_right hm' (two_zpow_pos e').le
  · have hunits : q / 2 ^ e ≤ q' / 2 ^ e := div_le_div_of_nonneg_right hle (two_zpow_pos e).le
    refine mul_le_mul_of_nonneg_right ?_ (two_zpow_pos e).le
    exact_mod_cast h.nearest.mono h'.nearest hunits
  · have hlow : (2 : ℚ) ^ (e + 52) ≤ q := h.lower.resolve_left (by have := h'.least; omega)
    have hunits : (2 : ℚ) ^ (e' + 53) ≤ 2 ^ (e + 52) := zpow_le_zpow_right₀ one_le_two (by omega)
    have hupper := h'.upper
    linarith

/-- A binary number rounds to itself. -/
theorem Canonical.rounds {m : ℕ} {e : ℤ} (h : Canonical m e) : Rounds (m * 2 ^ e) m e := by
  obtain ⟨hupper, hleast, -, hlower⟩ := h
  have hnearest : (m : ℚ) * 2 ^ e / 2 ^ e = m := mul_div_cancel_right₀ _ (two_zpow_pos e).ne'
  refine ⟨hleast, ?_, hlower.imp_right fun hlarge => ?_, ?_⟩
  · have hm : (m : ℚ) < 2 ^ 53 := by exact_mod_cast hupper
    rw [add_comm, zpow_add₀ two_ne_zero]
    exact mul_lt_mul_of_pos_right hm (two_zpow_pos e)
  · have hm : (2 ^ 52 : ℚ) ≤ m := by exact_mod_cast hlarge
    rw [add_comm, zpow_add₀ two_ne_zero]
    exact mul_le_mul_of_nonneg_right hm (two_zpow_pos e).le
  · rw [hnearest]
    constructor
    · norm_num
    · norm_num

theorem Rounds.unique {q : ℚ} {m m' : ℕ} {e e' : ℤ} (h : Rounds q m e) (h' : Rounds q m' e') :
    (m : ℚ) * 2 ^ e = m' * 2 ^ e' :=
  le_antisymm (h.mono h' le_rfl) (h'.mono h le_rfl)

theorem rounds_half : Rounds (1 / 2) 4503599627370496 (-53) := by
  have hcanonical : Canonical 4503599627370496 (-53) := by decide
  convert hcanonical.rounds using 1
  norm_num

theorem magnitude_eq (x : Binary64) : (x.magnitude.1 : ℚ) / x.magnitude.2 = |x.value| := by
  have hratio : |(x.ratio.1 : ℚ)| = x.magnitude.1 := by
    unfold ratio
    dsimp only
    split
    · rw [Int.cast_neg, abs_neg, Int.cast_natCast, Nat.abs_cast]
    · rw [Int.cast_natCast, Nat.abs_cast]
  rw [value, abs_div, hratio, Nat.abs_cast]
  rfl

theorem value_sign {x : Binary64} (hx : x.isFinite = true) :
    x.value = signum x.isNegative * |x.value| := by
  cases x with
  | nan => cases hx
  | infinite s => cases hx
  | finite s m e h =>
      have hmagnitude : (0 : ℚ) ≤ m * 2 ^ e := mul_nonneg (Nat.cast_nonneg m) (two_zpow_pos e).le
      rw [value_finite, abs_mul, abs_signum, one_mul, abs_of_nonneg hmagnitude]
      rfl

theorem signum_mul_of_ne {s t : Bool} (h : s ≠ t) : signum s * signum t = -1 := by
  cases s <;> cases t <;> simp_all [signum]

theorem mul_of_finite {x y : Binary64} (hx : x.isFinite = true) (hy : y.isFinite = true) :
    x.mul y = ofRatio (x.isNegative != y.isNegative) (x.magnitude.1 * y.magnitude.1)
      (x.magnitude.2 * y.magnitude.2) := by
  cases x with
  | nan => cases hx
  | infinite s => cases hx
  | finite s m e h =>
      cases y with
      | nan => cases hy
      | infinite t => cases hy
      | finite t n f k => rfl

/-- A positive product of finite numbers is rounded once. -/
theorem mul_rounds
    {x y : Binary64} (hx : x.isFinite = true) (hy : y.isFinite = true)
    (hpos : 0 < x.value * y.value) :
    ∃ m e, Rounds (x.value * y.value) m e ∧
      ((m : ℚ) * 2 ^ e < 2 ^ (1024 : ℤ) →
        ∃ m' e' h, x.mul y = finite false m' e' h ∧ (m' : ℚ) * 2 ^ e' = m * 2 ^ e) := by
  have hproduct : x.value * y.value =
      ((x.magnitude.1 * y.magnitude.1 : ℕ) : ℚ) / (x.magnitude.2 * y.magnitude.2 : ℕ) := by
    rw [← abs_of_pos hpos, abs_mul, ← magnitude_eq, ← magnitude_eq, div_mul_div_comm, Nat.cast_mul,
      Nat.cast_mul]
  have hsigns : (x.isNegative != y.isNegative) = false := by
    rw [bne_eq_false_iff_eq]
    by_contra hne
    have hnonpos : x.value * y.value = -(|x.value| * |y.value|) := by
      conv_lhs => rw [value_sign hx, value_sign hy, mul_mul_mul_comm, signum_mul_of_ne hne,
        neg_one_mul]
    have hmagnitudes : 0 ≤ |x.value| * |y.value| := mul_nonneg (abs_nonneg _) (abs_nonneg _)
    linarith
  have hdpos : 0 < x.magnitude.2 * y.magnitude.2 := Nat.mul_pos x.ratio_pos y.ratio_pos
  rw [hproduct] at hpos
  rw [mul_of_finite hx hy, hproduct, hsigns]
  have hdq : (0 : ℚ) < (x.magnitude.2 * y.magnitude.2 : ℕ) := by exact_mod_cast hdpos
  have hn : 0 < x.magnitude.1 * y.magnitude.1 := by
    exact_mod_cast (div_pos_iff_of_pos_right hdq).1 hpos
  exact ofRatio_rounds hn hdpos false

/-- A number between zero and one. -/
structure InUnit (x : Binary64) : Prop where
  isFinite : x.isFinite = true
  nonneg : 0 ≤ x.value
  le_one : x.value ≤ 1

/-- A positive number of steps. It is a binary number, and so is one half more. -/
structure Steps (scale : Binary64) (c : ℕ) : Prop where
  isFinite : scale.isFinite = true
  value_eq : scale.value = c
  pos : 0 < c
  whole : ∃ m e, Canonical m e ∧ (m : ℚ) * 2 ^ e = c
  halfway : ∃ m e, Canonical m e ∧ (m : ℚ) * 2 ^ e = c + 1 / 2

/-- `k` steps are the share `q` of `c` steps. The product is rounded, one half is added to it, and
the floor of the rounded sum is taken. -/
def Share (c : ℕ) (q : ℚ) (k : ℤ) : Prop :=
  ∃ m e m' e', Rounds (q * c) m e ∧ Rounds ((m : ℚ) * 2 ^ e + 1 / 2) m' e' ∧ k = ⌊(m' : ℚ) * 2 ^ e'⌋

namespace Share

variable {c : ℕ} {q q' : ℚ} {k k' : ℤ}

theorem mono (h : Share c q k) (h' : Share c q' k') (hle : q ≤ q') : k ≤ k' := by
  obtain ⟨m, e, n, f, hproduct, hsum, rfl⟩ := h
  obtain ⟨m', e', n', f', hproduct', hsum', rfl⟩ := h'
  have hproducts : (m : ℚ) * 2 ^ e ≤ m' * 2 ^ e' :=
    hproduct.mono hproduct' (mul_le_mul_of_nonneg_right hle (Nat.cast_nonneg c))
  exact Int.floor_le_floor (hsum.mono hsum' (by linarith))

theorem unique (h : Share c q k) (h' : Share c q k') : k = k' :=
  le_antisymm (h.mono h' le_rfl) (h'.mono h le_rfl)

/-- No share takes no step. -/
theorem zero (c : ℕ) : Share c 0 0 := by
  have hzero : Canonical 0 (-1074) := by decide
  refine ⟨0, -1074, 4503599627370496, -53, ?_, ?_, ?_⟩
  · simpa using hzero.rounds
  · simpa using rounds_half
  · norm_num

end Share

namespace Steps

variable {scale x : Binary64} {c : ℕ} {k : ℤ}

/-- A positive binary number is a number of steps, if one half more is a binary number as well. -/
theorem of_finite {m : ℕ} {e : ℤ} {h : Canonical m e} (hscale : scale = finite false m e h)
    (hvalue : (m : ℚ) * 2 ^ e = c) (hpos : 0 < c)
    (hhalfway : ∃ n f, Canonical n f ∧ (n : ℚ) * 2 ^ f = c + 1 / 2) : Steps scale c where
  isFinite := by rw [hscale]; rfl
  value_eq := by rw [hscale, value_finite, ← hvalue, signum, if_neg Bool.false_ne_true, one_mul]
  pos := hpos
  whole := ⟨m, e, h, hvalue⟩
  halfway := hhalfway

/-- The whole share takes all steps. -/
theorem share_one (h : Steps scale c) : Share c 1 c := by
  obtain ⟨m, e, hwhole, hc⟩ := h.whole
  obtain ⟨m', e', hhalfway, hc'⟩ := h.halfway
  refine ⟨m, e, m', e', ?_, ?_, ?_⟩
  · rw [one_mul, ← hc]
    exact hwhole.rounds
  · rw [hc, ← hc']
    exact hhalfway.rounds
  · rw [hc', eq_comm, Int.floor_eq_iff]
    push_cast
    constructor <;> linarith

/-- A share does not leave the range of steps. -/
theorem share_bounds (h : Steps scale c) (hx : x.InUnit) (hk : Share c x.value k) : 0 ≤ k ∧ k ≤ c :=
  ⟨(Share.zero c).mono hk hx.nonneg, hk.mono h.share_one hx.le_one⟩

/-- The product of a number between zero and one with the number of steps is rounded once. It is
never negative, but a zero may have a sign. -/
theorem mul_eq (h : Steps scale c) (hx : x.InUnit) :
    ∃ s m e hcanonical n f, x.mul scale = finite s m e hcanonical ∧ (s = true → m = 0) ∧
      Rounds (x.value * c) n f ∧ (m : ℚ) * 2 ^ e = n * 2 ^ f := by
  rcases hx.nonneg.lt_or_eq with hpos | hzero
  · have hproduct : 0 < x.value * scale.value := by
      rw [h.value_eq]
      exact mul_pos hpos (by exact_mod_cast h.pos)
    obtain ⟨n, f, hrounds, hresult⟩ := mul_rounds hx.isFinite h.isFinite hproduct
    rw [h.value_eq] at hrounds
    obtain ⟨m, e, hwhole, hc⟩ := h.whole
    have hbound : (n : ℚ) * 2 ^ f ≤ m * 2 ^ e := by
      refine hrounds.mono hwhole.rounds ?_
      rw [hc]
      exact mul_le_of_le_one_left (Nat.cast_nonneg c) hx.le_one
    obtain ⟨m', e', hcanonical, hmul, hexact⟩ :=
      hresult (hbound.trans_lt (lt_two_zpow_of_canonical hwhole))
    exact ⟨false, m', e', hcanonical, n, f, hmul, nofun, hrounds, hexact⟩
  · have hnumerator : x.magnitude.1 = 0 := by
      have hratio := magnitude_eq x
      rw [← hzero, abs_zero, div_eq_zero_iff] at hratio
      have hdenominator : (x.magnitude.2 : ℚ) ≠ 0 := by exact_mod_cast x.ratio_pos.ne'
      exact_mod_cast hratio.resolve_right hdenominator
    have hmul : x.mul scale = zero (x.isNegative != scale.isNegative) := by
      rw [mul_of_finite hx.isFinite h.isFinite, hnumerator, zero_mul, ofRatio, if_pos rfl]
    refine ⟨_, 0, -1074, by decide, 0, -1074, hmul, fun _ => rfl, ?_, rfl⟩
    have hcanonical : Canonical 0 (-1074) := by decide
    rw [← hzero, zero_mul]
    simpa using hcanonical.rounds

/-- The nearest integer to the product is the share of the steps. -/
theorem nearestInt_mul (h : Steps scale c) (hx : x.InUnit) :
    ∃ k, (x.mul scale).nearestInt = .ok k ∧ Share c x.value k := by
  obtain ⟨s, m, e, hcanonical, n, f, hmul, hsign, hrounds, hexact⟩ := h.mul_eq hx
  obtain ⟨n', f', hsum, hfloor⟩ := add_half_rounds hcanonical
  rw [hexact] at hsum
  refine ⟨_, ?_, n, f, n', f', hrounds, hsum, rfl⟩
  have hnearest : (finite s m e hcanonical).nearestInt =
      .ok (if s then -(add (finite false m e hcanonical) half).floor
        else (add (finite false m e hcanonical) half).floor) := rfl
  rw [hmul, hnearest, hfloor]
  cases s with
  | false => rfl
  | true =>
      -- The sign of a zero does not show.
      have hzero : (n : ℚ) * 2 ^ f = 0 := by
        rw [← hexact, hsign rfl, Nat.cast_zero, zero_mul]
      rw [hzero, zero_add] at hsum
      rw [hsum.unique rounds_half]
      norm_num

end Steps

end Binary64
end SceneMarkup
