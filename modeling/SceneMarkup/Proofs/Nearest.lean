import Mathlib.Algebra.Order.Round
import SceneMarkup.Proofs.Binary

/-!
# Nearest integers

The nearest integer is computed by adding one half and taking the floor. The sum is rounded like
every sum, and so it can reach an integer that the exact sum does not reach. This file finds out
where it does.

* `IsNearest`: the nearest integer, with ties going away from zero.
* `Rounds.carry_iff`: the rounded sum reaches the next integer at the largest number below one half,
  and at odd integers so large that one half is half a unit. `Overshoots` names these numbers.
* `nearestInt_eq`: what is computed is the nearest integer, except for the numbers that overshoot.
  These come out one too far from zero.
-/

namespace SceneMarkup

/-- `k` is an integer nearest to `q`, and the one farther from zero if there are two. -/
structure IsNearest (q : ℚ) (k : ℤ) : Prop where
  near : ∀ j : ℤ, |q - k| ≤ |q - j|
  away : ∀ j : ℤ, |q - j| = |q - k| → |j| ≤ |k|

theorem IsNearest.neg {q : ℚ} {k : ℤ} (h : IsNearest q k) : IsNearest (-q) (-k) := by
  have habs : ∀ j : ℤ, |-q - j| = |q - (-j : ℤ)| := by
    intro j
    rw [← abs_neg]
    congr 1
    push_cast
    ring
  constructor
  · intro j
    rw [habs, habs, neg_neg]
    exact h.near (-j)
  · intro j hj
    rw [habs, habs, neg_neg] at hj
    rw [← abs_neg j, abs_neg k]
    exact h.away (-j) hj

theorem isNearest_round {q : ℚ} (hq : 0 ≤ q) : IsNearest q (round q) := by
  have hlow : (round q : ℚ) ≤ q + 1 / 2 := by
    rw [round_eq]
    exact Int.floor_le _
  have hhigh : q + 1 / 2 < round q + 1 := by
    rw [round_eq]
    exact Int.lt_floor_add_one _
  have hround : 0 ≤ round q := by
    rw [round_eq]
    exact Int.floor_nonneg.2 (by linarith)
  refine ⟨round_le q, fun j hj => ?_⟩
  rw [abs_of_nonneg hround]
  have hbelow : j ≤ round q := by
    by_contra habove
    have hnext : (round q : ℚ) + 1 ≤ j := by exact_mod_cast not_le.1 habove
    have hnear : |q - round q| ≤ 1 / 2 := abs_sub_round q
    rw [← hj, abs_of_nonpos (by linarith)] at hnear
    linarith
  refine abs_le.2 ⟨?_, hbelow⟩
  by_contra hfar
  have hpast : (j : ℚ) < -round q := by exact_mod_cast not_le.1 hfar
  have hcast : (0 : ℚ) ≤ round q := by exact_mod_cast hround
  rw [abs_of_nonneg (by linarith)] at hj
  rcases abs_cases (q - round q) with ⟨habs, -⟩ | ⟨habs, -⟩ <;> linarith

namespace Binary64

namespace IsNearestEven

variable {q : ℚ} {m c : ℕ}

theorem le (h : IsNearestEven q m) (hc : (c : ℚ) ≤ q) : c ≤ m := by
  by_contra hless
  have hcast : (m : ℚ) + 1 ≤ c := by exact_mod_cast not_le.1 hless
  have hnear := (abs_le.1 h.near).2
  linarith

theorem ge (h : IsNearestEven q m) (hc : q ≤ c) : m ≤ c := by
  by_contra hmore
  have hcast : (c : ℚ) + 1 ≤ m := by exact_mod_cast not_le.1 hmore
  have hnear := (abs_le.1 h.near).1
  linarith

/-- A number rounds up to a bound of it when it is closer than one half, or at one half from an even
one. -/
theorem eq_iff (h : IsNearestEven q m) (hc : q ≤ c) :
    m = c ↔ c - q < 1 / 2 ∨ (c - q = 1 / 2 ∧ c % 2 = 0) := by
  constructor
  · rintro rfl
    have hnear := h.near
    have heven := h.even
    rw [abs_sub_comm, abs_of_nonneg (by linarith)] at hnear heven
    exact hnear.lt_or_eq.imp id fun htie => ⟨htie, heven htie⟩
  · intro hclose
    by_contra hne
    have hless : m + 1 ≤ c := Nat.lt_of_le_of_ne (h.ge hc) hne
    have hcast : (m : ℚ) + 1 ≤ c := by exact_mod_cast hless
    have hnear := (abs_le.1 h.near).2
    rcases hclose with hcloser | ⟨htie, heven⟩
    · linarith
    · have hm : (m : ℚ) + 1 = c := by linarith
      have hmN : m + 1 = c := by exact_mod_cast hm
      have hodd := h.even (by rw [abs_of_nonneg] <;> linarith)
      omega

end IsNearestEven

/-- The numbers that are carried over the next integer when one half is added. -/
def Overshoots (q : ℚ) : Prop :=
  |q| = 1 / 2 - 1 / 2 ^ 54 ∨ ∃ n : ℕ, |q| = n ∧ n % 2 = 1 ∧ 2 ^ 52 ≤ n ∧ n < 2 ^ 53

theorem overshoots_abs {q : ℚ} : Overshoots |q| ↔ Overshoots q := by
  rw [Overshoots, abs_abs, Overshoots]

theorem Overshoots.bounds {q : ℚ} (h : Overshoots q) (hq : 0 ≤ q) :
    (0 < q ∧ q < 1 / 2) ∨ (2 ^ 52 ≤ q ∧ q < 2 ^ 53) := by
  rw [Overshoots, abs_of_nonneg hq] at h
  rcases h with h | ⟨n, h, -, hlow, hhigh⟩
  · left
    rw [h]
    norm_num
  · right
    rw [h]
    constructor
    · exact_mod_cast hlow
    · exact_mod_cast hhigh

namespace Rounds

section Fraction

variable {q s : ℚ} {m k N : ℕ}

theorem nearest_mul (h : Rounds s m (-(k : ℤ))) : IsNearestEven (s * 2 ^ k) m := by
  have hnearest := h.nearest
  rwa [zpow_neg, div_inv_eq_mul, zpow_natCast] at hnearest

theorem lt_two_pow (h : Rounds s m (-(k : ℤ))) {b : ℕ} (hb : k + b = 53) : s < 2 ^ b := by
  have hupper := h.upper
  rwa [show -(k : ℤ) + 53 = b by omega, zpow_natCast] at hupper

theorem two_pow_le (h : Rounds s m (-(k : ℤ))) {b : ℕ} (hb : k + b = 52) : 2 ^ b ≤ s := by
  have hlower := h.lower.resolve_left (by omega)
  rwa [show -(k : ℤ) + 52 = b by omega, zpow_natCast] at hlower

/-- Below the next integer the floor does not change. -/
theorem floor_of_ne
    (h : Rounds s m (-(k : ℤ))) (hlow : (N : ℚ) ≤ s) (hhigh : s < N + 1)
    (hne : m ≠ (N + 1) * 2 ^ k) :
    ⌊(m : ℚ) * 2 ^ (-(k : ℤ))⌋ = N := by
  have hunit : (0 : ℚ) < 2 ^ k := by positivity
  have hge : N * 2 ^ k ≤ m := by
    refine h.nearest_mul.le ?_
    push_cast
    exact mul_le_mul_of_nonneg_right hlow hunit.le
  have hle : m ≤ (N + 1) * 2 ^ k := by
    refine h.nearest_mul.ge ?_
    push_cast
    exact mul_le_mul_of_nonneg_right hhigh.le hunit.le
  have hlt : m < (N + 1) * 2 ^ k := lt_of_le_of_ne hle hne
  rw [Int.floor_eq_iff, zpow_neg, zpow_natCast, ← div_eq_mul_inv]
  constructor
  · rw [le_div_iff₀ hunit]
    exact_mod_cast hge
  · rw [div_lt_iff₀ hunit]
    exact_mod_cast hlt

/-- What is more than half a unit below the next integer is not carried over it. -/
theorem ne_of_lt
    (h : Rounds s m (-(k : ℤ))) (hfar : 1 / 2 < ((N : ℚ) + 1 - s) * 2 ^ k) :
    m ≠ (N + 1) * 2 ^ k := by
  have hdistance : ((N + 1) * 2 ^ k : ℕ) - s * 2 ^ k = ((N : ℚ) + 1 - s) * 2 ^ k := by
    push_cast
    ring
  have hbelow : s * 2 ^ k ≤ ((N + 1) * 2 ^ k : ℕ) := by linarith
  rw [ne_eq, h.nearest_mul.eq_iff hbelow, hdistance]
  rintro (hless | ⟨htie, -⟩) <;> linarith

/-- With 53 places behind the point only the last number below one half is carried over an
integer. -/
theorem carry_iff_half
    (hq : 0 ≤ q) (hrepresented : Represented q) (h : Rounds (q + 1 / 2) m (-(53 : ℕ))) :
    m = 2 ^ 53 ↔ Overshoots q := by
  have hupper : q + 1 / 2 < 2 ^ 0 := h.lt_two_pow rfl
  rw [h.nearest_mul.eq_iff (by push_cast; linarith)]
  push_cast
  constructor
  · intro hclose
    have hlow : 1 / 2 - 1 / 2 ^ 54 ≤ q := by
      rcases hclose with hcloser | ⟨htie, -⟩ <;> linarith
    -- Numbers that large are multiples of half a unit, so there is one at most.
    obtain ⟨t, ht⟩ := hrepresented.multiple (j := -2) (by norm_num at hlow ⊢; linarith)
    norm_num at ht
    have hge : (2 ^ 53 : ℚ) ≤ t + 1 := by linarith
    have hlt : (t : ℚ) < 2 ^ 53 := by linarith
    have hgeN : 2 ^ 53 ≤ t + 1 := by exact_mod_cast hge
    have hltN : t < 2 ^ 53 := by exact_mod_cast hlt
    obtain rfl : t = 2 ^ 53 - 1 := by omega
    left
    rw [abs_of_nonneg hq, ht]
    norm_num
  · intro hover
    rcases hover with hhalf | ⟨n, hn, -, hlow, -⟩
    · rw [abs_of_nonneg hq] at hhalf
      right
      rw [hhalf]
      norm_num
    · have hlarge : (2 ^ 52 : ℚ) ≤ n := by exact_mod_cast hlow
      rw [abs_of_nonneg hq] at hn
      linarith

/-- In units of one, odd integers are carried over the next integer. -/
theorem carry_iff_odd
    (hq : 2 ^ 52 ≤ q) (hrepresented : Represented q) (h : Rounds (q + 1 / 2) m (-(0 : ℕ)))
    (hlow : (N : ℚ) ≤ q + 1 / 2) (hhigh : q + 1 / 2 < N + 1) :
    m = N + 1 ↔ Overshoots q := by
  obtain ⟨t, ht⟩ := hrepresented.multiple (j := 52) (by exact_mod_cast hq)
  rw [sub_self, zpow_zero, mul_one] at ht
  subst ht
  obtain rfl : t = N := by
    have hle : (N : ℚ) < t + 1 := by linarith
    have hge : (t : ℚ) < N + 1 := by linarith
    have hleN : N < t + 1 := by exact_mod_cast hle
    have hgeN : t < N + 1 := by exact_mod_cast hge
    omega
  have hupper : (t : ℚ) < 2 ^ 53 := by
    have hsum := h.lt_two_pow (b := 53) rfl
    linarith
  have hupperN : t < 2 ^ 53 := by exact_mod_cast hupper
  have hlowerN : 2 ^ 52 ≤ t := by exact_mod_cast hq
  have htie : (((t + 1 : ℕ) : ℚ) - (t + 1 / 2) * 2 ^ 0) = 1 / 2 := by
    push_cast
    ring
  rw [h.nearest_mul.eq_iff (by push_cast; linarith), htie, Overshoots,
    abs_of_nonneg (by positivity)]
  constructor
  · rintro (hfalse | ⟨-, heven⟩)
    · exact absurd hfalse (lt_irrefl _)
    · exact .inr ⟨t, rfl, by omega, hlowerN, hupperN⟩
  · rintro (hhalf | ⟨n, hn, hodd, -, -⟩)
    · linarith
    · obtain rfl : t = n := by exact_mod_cast hn
      exact .inr ⟨rfl, by omega⟩

/-- In smaller units the sum is a multiple of the unit, and below the next integer by one at
least. -/
theorem far_of_fraction
    {b : ℕ} (hb : k + 1 + b = 52) (hq : 2 ^ b ≤ q) (hrepresented : Represented q)
    (hhigh : q + 1 / 2 < N + 1) :
    1 / 2 < ((N : ℚ) + 1 - (q + 1 / 2)) * 2 ^ (k + 1) := by
  obtain ⟨t, ht⟩ := hrepresented.multiple (j := b) (by exact_mod_cast hq)
  rw [show (b : ℤ) - 52 = -((k + 1 : ℕ) : ℤ) by omega, zpow_neg, zpow_natCast,
    ← div_eq_mul_inv, eq_div_iff (by positivity)] at ht
  have hwhole : ((N : ℚ) + 1 - (q + 1 / 2)) * 2 ^ (k + 1) = ((2 * N + 1) * 2 ^ k : ℕ) - t := by
    rw [← ht]
    push_cast
    ring
  have hpos : (0 : ℚ) < ((2 * N + 1) * 2 ^ k : ℕ) - t := by
    rw [← hwhole]
    exact mul_pos (by linarith) (by positivity)
  have hless : t < (2 * N + 1) * 2 ^ k := by exact_mod_cast sub_pos.1 hpos
  have hnext : (t : ℚ) + 1 ≤ ((2 * N + 1) * 2 ^ k : ℕ) := by exact_mod_cast hless
  rw [hwhole]
  linarith

/-- Where one half leads to a larger unit, the sum is just above an integer. -/
theorem far_of_crossing
    {b : ℕ} (hq : q < 2 ^ b) (hsum : 2 ^ b ≤ q + 1 / 2) (hhigh : q + 1 / 2 < N + 1) :
    1 / 2 < ((N : ℚ) + 1 - (q + 1 / 2)) * 2 ^ k := by
  have hreach : (2 ^ b : ℚ) ≤ N := by
    have hless : (2 ^ b : ℚ) < N + 1 := hsum.trans_lt hhigh
    have hlessN : 2 ^ b < N + 1 := by exact_mod_cast hless
    exact_mod_cast Nat.lt_succ_iff.1 hlessN
  have hunit : (1 : ℚ) ≤ 2 ^ k := one_le_pow₀ one_le_two
  calc (1 / 2 : ℚ) < (N : ℚ) + 1 - (q + 1 / 2) := by linarith
    _ ≤ ((N : ℚ) + 1 - (q + 1 / 2)) * 2 ^ k := le_mul_of_one_le_right (by linarith) hunit

/-- Wherever the unit is one or a fraction, only numbers that overshoot are carried over the next
integer. -/
theorem carry_iff
    (hq : 0 ≤ q) (hrepresented : Represented q) (h : Rounds (q + 1 / 2) m (-(k : ℤ)))
    (hlow : (N : ℚ) ≤ q + 1 / 2) (hhigh : q + 1 / 2 < N + 1) :
    m = (N + 1) * 2 ^ k ↔ Overshoots q := by
  have hk : k ≤ 53 := by
    by_contra hfine
    have hupper := h.upper
    have hpow : (2 : ℚ) ^ (-(k : ℤ) + 53) ≤ 2 ^ (-1 : ℤ) :=
      zpow_le_zpow_right₀ one_le_two (by omega)
    norm_num at hpow
    linarith
  obtain rfl | ⟨b, hb⟩ : k = 53 ∨ ∃ b, k + b = 52 := by
    by_cases hlast : k = 53
    · exact .inl hlast
    · exact .inr ⟨52 - k, by omega⟩
  · obtain rfl : N = 0 := by
      have hupper : q + 1 / 2 < 2 ^ 0 := h.lt_two_pow rfl
      have hless : (N : ℚ) < 1 := by linarith
      have hlessN : N < 1 := by exact_mod_cast hless
      omega
    rw [zero_add, one_mul]
    exact carry_iff_half hq hrepresented h
  have hlower : 2 ^ b ≤ q + 1 / 2 := h.two_pow_le hb
  have hupper : q + 1 / 2 < 2 ^ (b + 1) := h.lt_two_pow (by omega)
  have hbase : (1 : ℚ) ≤ 2 ^ b := one_le_pow₀ one_le_two
  have hstays : q < 2 ^ 52 → ¬ Overshoots q := by
    intro hsmall hover
    rcases hover.bounds hq with ⟨-, hhalf⟩ | ⟨hlarge, -⟩ <;> linarith
  by_cases hcrossing : q < 2 ^ b
  · have htop : (2 : ℚ) ^ b ≤ 2 ^ 52 := pow_le_pow_right₀ one_le_two (by omega)
    exact iff_of_false (h.ne_of_lt (far_of_crossing hcrossing hlower hhigh))
      (hstays (hcrossing.trans_le htop))
  cases k with
  | zero =>
      obtain rfl : b = 52 := by omega
      rw [pow_zero, mul_one]
      exact carry_iff_odd (not_lt.1 hcrossing) hrepresented h hlow hhigh
  | succ k =>
      have htop : (2 : ℚ) ^ (b + 1) ≤ 2 ^ 52 := pow_le_pow_right₀ one_le_two (by omega)
      exact iff_of_false (h.ne_of_lt (far_of_fraction hb (not_lt.1 hcrossing) hrepresented hhigh))
        (hstays (by linarith))

/-- With a unit above one, one half is lost. -/
theorem eq_of_large
    (hrepresented : Represented q) (h : Rounds (q + 1 / 2) m (k + 1 : ℕ)) :
    (m : ℚ) * 2 ^ ((k + 1 : ℕ) : ℤ) = q ∧ 2 ^ 53 ≤ q ∧ ∃ t : ℕ, q = t := by
  have hlower : (2 : ℚ) ^ (k + 53) ≤ q + 1 / 2 := by
    have hlower := h.lower.resolve_left (by omega)
    rwa [show ((k + 1 : ℕ) : ℤ) + 52 = (k + 53 : ℕ) by omega, zpow_natCast] at hlower
  have hbase : (1 : ℚ) ≤ 2 ^ (k + 52) := one_le_pow₀ one_le_two
  have hhalfway : (2 : ℚ) ^ ((k + 52 : ℕ) : ℤ) ≤ q := by
    rw [pow_succ] at hlower
    rw [zpow_natCast]
    linarith
  obtain ⟨t, ht⟩ := hrepresented.multiple hhalfway
  rw [show ((k + 52 : ℕ) : ℤ) - 52 = (k : ℕ) by omega, zpow_natCast] at ht
  -- An integer that comes that close to a power of two reaches it.
  have hreach : (2 : ℚ) ^ (k + 53) ≤ q := by
    have hless : (2 : ℚ) ^ (k + 53) < (t * 2 ^ k : ℕ) + 1 := by
      push_cast
      linarith
    have hlessN : 2 ^ (k + 53) < t * 2 ^ k + 1 := by exact_mod_cast hless
    rw [ht]
    exact_mod_cast Nat.lt_succ_iff.1 hlessN
  obtain ⟨t', ht'⟩ := hrepresented.multiple (j := (k + 53 : ℕ)) (by rwa [zpow_natCast])
  rw [show ((k + 53 : ℕ) : ℤ) - 52 = (k + 1 : ℕ) by omega] at ht'
  have hm : m = t' := by
    have hnearest := h.nearest
    rw [ht', add_div, mul_div_cancel_right₀ _ (two_zpow_pos _).ne', zpow_natCast] at hnearest
    have hpart : (1 / 2 : ℚ) / 2 ^ (k + 1) < 1 / 2 := by
      exact div_lt_self (by norm_num) (one_lt_pow₀ one_lt_two (by omega))
    have hpos : (0 : ℚ) < 1 / 2 / 2 ^ (k + 1) := by positivity
    have hge : t' ≤ m := hnearest.le (by linarith)
    have hle : (m : ℚ) < t' + 1 := by
      have hnear := (abs_le.1 hnearest.near).1
      linarith
    have hleN : m < t' + 1 := by exact_mod_cast hle
    omega
  refine ⟨by rw [hm, ht'], ?_, t * 2 ^ k, by rw [ht]; push_cast; rfl⟩
  exact le_trans (pow_le_pow_right₀ one_le_two (by omega)) hreach

end Fraction

/-- A sum with one half does not leave the range of binary numbers. -/
theorem lt_range
    {q : ℚ} {m : ℕ} {e : ℤ} (h : Rounds (q + 1 / 2) m e) (hrepresented : Represented q)
    (hq : q < 2 ^ (1024 : ℤ)) :
    (m : ℚ) * 2 ^ e < 2 ^ (1024 : ℤ) := by
  rcases le_or_gt e 0 with hsmall | hlarge
  · have hm : (m : ℚ) ≤ 2 ^ 53 := by exact_mod_cast h.le
    have hunit : (2 : ℚ) ^ e ≤ 2 ^ (0 : ℤ) := zpow_le_zpow_right₀ one_le_two hsmall
    calc (m : ℚ) * 2 ^ e ≤ 2 ^ 53 * 2 ^ (0 : ℤ) :=
          mul_le_mul hm hunit (two_zpow_pos e).le (by positivity)
      _ = 2 ^ (53 : ℤ) := by norm_num
      _ < 2 ^ (1024 : ℤ) := zpow_lt_zpow_right₀ one_lt_two (by norm_num)
  · obtain ⟨k, rfl⟩ : ∃ k : ℕ, e = (k + 1 : ℕ) := ⟨e.toNat - 1, by omega⟩
    rwa [(h.eq_of_large hrepresented).1]

end Rounds

theorem half_eq : half = finite false 4503599627370496 (-53) (by decide) := by
  decide +kernel

theorem value_half : half.value = 1 / 2 := by
  rw [half_eq, value_finite]
  norm_num [signum]

theorem represented_finite {m : ℕ} {e : ℤ} (h : Canonical m e) : Represented (m * 2 ^ e) :=
  ⟨m, e, h.1, rfl⟩

theorem lt_two_zpow_of_canonical {m : ℕ} {e : ℤ} (h : Canonical m e) :
    (m : ℚ) * 2 ^ e < 2 ^ (1024 : ℤ) := by
  have hm : (m : ℚ) < 2 ^ 53 := by exact_mod_cast h.1
  calc (m : ℚ) * 2 ^ e < 2 ^ 53 * 2 ^ e := mul_lt_mul_of_pos_right hm (two_zpow_pos e)
    _ = 2 ^ (53 + e) := by
        rw [zpow_add₀ two_ne_zero]
        norm_cast
    _ ≤ 2 ^ (1024 : ℤ) := zpow_le_zpow_right₀ one_le_two (by have := h.2.2.1; omega)

/-- The rounded sum of a magnitude and one half lies above the nearest integer, and reaches the
next one exactly if the magnitude overshoots. -/
theorem floor_rounds
    {q : ℚ} {m : ℕ} {e : ℤ} (hq : 0 ≤ q) (hrepresented : Represented q)
    (h : Rounds (q + 1 / 2) m e) :
    (¬ Overshoots q → ⌊(m : ℚ) * 2 ^ e⌋ = round q) ∧
      (Overshoots q → ⌊(m : ℚ) * 2 ^ e⌋ = round q + 1) := by
  obtain ⟨N, hN⟩ : ∃ N : ℕ, round q = N := by
    refine Int.eq_ofNat_of_zero_le ?_
    rw [round_eq]
    exact Int.floor_nonneg.2 (by linarith)
  obtain ⟨hlow, hhigh⟩ : (N : ℚ) ≤ q + 1 / 2 ∧ q + 1 / 2 < N + 1 := by
    rw [round_eq, Int.floor_eq_iff] at hN
    exact hN
  rw [hN]
  rcases le_or_gt e 0 with hsmall | hlarge
  · obtain ⟨k, hk⟩ := Int.eq_ofNat_of_zero_le (neg_nonneg.2 hsmall)
    obtain rfl : e = -(k : ℤ) := by omega
    rw [← h.carry_iff hq hrepresented hlow hhigh]
    refine ⟨fun hne => h.floor_of_ne hlow hhigh hne, fun hm => ?_⟩
    rw [hm, zpow_neg, zpow_natCast]
    push_cast
    rw [mul_inv_cancel_right₀ (by positivity)]
    exact_mod_cast Int.floor_intCast ((N : ℤ) + 1)
  · obtain ⟨k, rfl⟩ : ∃ k : ℕ, e = (k + 1 : ℕ) := ⟨e.toNat - 1, by omega⟩
    obtain ⟨hvalue, hmin, t, ht⟩ := h.eq_of_large hrepresented
    have hstays : ¬ Overshoots q := by
      intro hover
      rcases hover.bounds hq with ⟨-, hhalf⟩ | ⟨-, hless⟩ <;> linarith
    refine ⟨fun _ => ?_, fun hover => absurd hover hstays⟩
    rw [hvalue, ← hN, ht, round_natCast, Int.floor_natCast]

/-- The sum that is computed does not leave the range of binary numbers. -/
theorem add_half_rounds {m : ℕ} {e : ℤ} (h : Canonical m e) :
    ∃ m' e', Rounds ((m : ℚ) * 2 ^ e + 1 / 2) m' e' ∧
      (add (finite false m e h) half).floor = ⌊(m' : ℚ) * 2 ^ e'⌋ := by
  have hvalue : (finite false m e h).value = m * 2 ^ e := by
    rw [value_finite]
    exact one_mul _
  have hnonneg : (0 : ℚ) ≤ m * 2 ^ e := mul_nonneg (Nat.cast_nonneg m) (two_zpow_pos e).le
  obtain ⟨m', e', hrounds, hsum⟩ := add_rounds (x := finite false m e h) (y := half) rfl
    (by rw [half_eq]; rfl) (by rw [hvalue, value_half]; linarith)
  rw [hvalue, value_half] at hrounds
  have hrange := hrounds.lt_range (represented_finite h) (lt_two_zpow_of_canonical h)
  obtain ⟨m'', e'', h'', hadd, hexact⟩ := hsum hrange
  refine ⟨m', e', hrounds, ?_⟩
  rw [floor_eq, hadd, value_finite, hexact]
  exact congrArg _ (one_mul _)

theorem floor_add_half
    {m : ℕ} {e : ℤ} (h : Canonical m e) :
    (¬ Overshoots (m * 2 ^ e) → (add (finite false m e h) half).floor = round ((m : ℚ) * 2 ^ e)) ∧
      (Overshoots (m * 2 ^ e) →
        (add (finite false m e h) half).floor = round ((m : ℚ) * 2 ^ e) + 1) := by
  have hnonneg : (0 : ℚ) ≤ m * 2 ^ e := mul_nonneg (Nat.cast_nonneg m) (two_zpow_pos e).le
  obtain ⟨m', e', hrounds, hfloor⟩ := add_half_rounds h
  rw [hfloor]
  exact floor_rounds hnonneg (represented_finite h) hrounds

/-- A finite number has a nearest integer. What is computed is this integer, unless the number
overshoots: then it is the next one away from zero. -/
theorem nearestInt_eq {x : Binary64} (hx : x.isFinite = true) :
    ∃ k, IsNearest x.value k ∧
      (¬ Overshoots x.value → x.nearestInt = .ok k) ∧
      (Overshoots x.value → x.nearestInt = .ok (if x.value < 0 then k - 1 else k + 1)) := by
  cases x with
  | nan => cases hx
  | infinite s => cases hx
  | finite s m e h =>
      obtain ⟨hstays, hover⟩ := floor_add_half h
      have hnonneg : (0 : ℚ) ≤ m * 2 ^ e := mul_nonneg (Nat.cast_nonneg m) (two_zpow_pos e).le
      have hnearest := isNearest_round hnonneg
      have hinteger : (finite s m e h).nearestInt =
          .ok (if s then -(add (finite false m e h) half).floor
            else (add (finite false m e h) half).floor) := rfl
      rw [value_finite, hinteger]
      generalize (m : ℚ) * 2 ^ e = q at *
      cases s with
      | false =>
          rw [signum, if_neg Bool.false_ne_true, one_mul, if_neg Bool.false_ne_true]
          refine ⟨round q, hnearest, fun h => by rw [hstays h], fun h => ?_⟩
          rw [if_neg (not_lt.2 hnonneg), hover h]
      | true =>
          rw [signum, if_pos rfl, neg_one_mul, if_pos rfl, ← overshoots_abs, abs_neg,
            overshoots_abs]
          refine ⟨-round q, hnearest.neg, fun h => by rw [hstays h], fun h => ?_⟩
          have hpos : 0 < q := by
            rcases h.bounds hnonneg with ⟨hpos, -⟩ | ⟨hlarge, -⟩ <;> linarith
          rw [if_pos (neg_lt_zero.2 hpos), hover h, neg_add']

theorem nearestInt_eq_twoAndHalf :
    (finite true 5629499534213120 (-51) (by decide)).isFinite = true ∧
      (finite true 5629499534213120 (-51) (by decide)).nearestInt = .ok (-3) ∧
      IsNearest (finite true 5629499534213120 (-51) (by decide)).value (-3) := by
  have hvalue : (finite true 5629499534213120 (-51) (by decide)).value = -(5 / 2) := by
    rw [value_finite]
    norm_num [signum]
  have hcomputed : (finite true 5629499534213120 (-51) (by decide)).nearestInt = .ok (-3) := by
    decide +kernel
  obtain ⟨k, hk, hstays, -⟩ := nearestInt_eq
    (show (finite true 5629499534213120 (-51) (by decide)).isFinite = true from rfl)
  have hmoderate : ¬ Overshoots (finite true 5629499534213120 (-51) (by decide)).value := by
    rw [hvalue, ← overshoots_abs, abs_neg]
    intro hover
    rcases hover.bounds (abs_nonneg _) with ⟨-, hhalf⟩ | ⟨hlarge, -⟩
    · norm_num at hhalf
    · norm_num at hlarge
  rw [hstays hmoderate] at hcomputed
  cases hcomputed
  exact ⟨rfl, hstays hmoderate, hk⟩

/-- The largest number below one half comes out as one. -/
theorem nearestInt_belowHalf :
    ¬ ∀ x : Binary64, x.isFinite = true → ∃ k, x.nearestInt = .ok k ∧ IsNearest x.value k := by
  intro hclaim
  obtain ⟨k, hk, hnearest⟩ := hclaim (finite false 9007199254740991 (-54) (by decide)) rfl
  have hcomputed : (finite false 9007199254740991 (-54) (by decide)).nearestInt = .ok 1 := by
    decide +kernel
  rw [hcomputed] at hk
  cases hk
  have hcloser := hnearest.near 0
  rw [value_finite] at hcloser
  norm_num [signum, abs_le] at hcloser

end Binary64
end SceneMarkup
