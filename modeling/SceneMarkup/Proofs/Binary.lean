import Mathlib.Data.Rat.Floor
import Mathlib.Tactic.FieldSimp
import Mathlib.Tactic.Linarith
import Mathlib.Tactic.Positivity
import SceneMarkup.Number.Rounding

/-!
# Values of binary numbers

The arithmetic of binary numbers works on ratios of integers. This file says what it comes to as a
statement about rational numbers.

* `Binary64.value`: the number that a finite binary number stands for.
* `Rounds`: a positive number rounds to so many units of a power of two, the unit being as small as
  53 digits allow. `ofRatio_rounds`: this is what `Binary64.ofRatio` gives, if it is in range.
* `add_rounds`, `floor_eq`: a sum is rounded once, and `Binary64.floor` is the floor of the value.
* `Represented.multiple`: above a power of two all binary numbers are multiples of a unit.
-/

namespace SceneMarkup

namespace Binary64

theorem cast_pow2 (k : ℕ) : (pow2 k : ℚ) = 2 ^ k := by
  simp [pow2]

theorem two_zpow_pos (e : ℤ) : (0 : ℚ) < 2 ^ e := zpow_pos (by norm_num) e

theorem inUnits_pos {d : ℕ} (hd : 0 < d) (n : ℕ) (e : ℤ) : 0 < (inUnits n d e).2 := by
  unfold inUnits
  split
  · exact Nat.mul_pos hd (Nat.pow_pos (by decide))
  · exact hd

/-- Measuring in units divides by the unit. -/
theorem inUnits_eq (n d : ℕ) (e : ℤ) :
    ((inUnits n d e).1 : ℚ) / (inUnits n d e).2 = n / d / 2 ^ e := by
  unfold inUnits
  split
  next he =>
    obtain ⟨k, rfl⟩ := Int.eq_ofNat_of_zero_le he
    simp only [Int.toNat_natCast, Nat.cast_mul, cast_pow2, zpow_natCast,
      div_div]
  next he =>
    obtain ⟨k, hk⟩ : ∃ k : ℕ, -e = k := Int.eq_ofNat_of_zero_le (by omega)
    rw [show e = -(k : ℤ) by omega]
    simp only [neg_neg, Int.toNat_natCast, Nat.cast_mul, cast_pow2, zpow_neg, zpow_natCast,
      div_inv_eq_mul]
    ring

/-- The binary logarithm is rounded down. -/
theorem two_zpow_log2_le {n : ℕ} (hn : 0 < n) : (2 : ℚ) ^ (n.log2 : ℤ) ≤ n := by
  rw [zpow_natCast]
  exact_mod_cast Nat.log2_self_le hn.ne'

theorem lt_two_zpow_log2 (n : ℕ) : (n : ℚ) < 2 ^ ((n.log2 : ℤ) + 1) := by
  have h : n < 2 ^ (n.log2 + 1) := Nat.lt_log2_self
  rw [show ((n.log2 : ℤ) + 1) = ((n.log2 + 1 : ℕ) : ℤ) by push_cast; rfl, zpow_natCast]
  exact_mod_cast h

/-- The top exponent is that of the largest power of two that a ratio reaches. -/
theorem topExponent_spec {n d : ℕ} (hn : 0 < n) (hd : 0 < d) :
    (2 : ℚ) ^ topExponent n d ≤ n / d ∧ (n / d : ℚ) < 2 ^ (topExponent n d + 1) := by
  have hdq : (0 : ℚ) < d := by exact_mod_cast hd
  have hlow : (2 : ℚ) ^ ((n.log2 : ℤ) - (d.log2 : ℤ) - 1) ≤ n / d := by
    rw [le_div_iff₀ hdq]
    calc (2 : ℚ) ^ ((n.log2 : ℤ) - (d.log2 : ℤ) - 1) * d
        ≤ 2 ^ ((n.log2 : ℤ) - (d.log2 : ℤ) - 1) * 2 ^ ((d.log2 : ℤ) + 1) := by
          exact mul_le_mul_of_nonneg_left (lt_two_zpow_log2 d).le (two_zpow_pos _).le
      _ = 2 ^ (n.log2 : ℤ) := by
          rw [← zpow_add₀ two_ne_zero]
          congr 1
          ring
      _ ≤ n := two_zpow_log2_le hn
  have hhigh : (n / d : ℚ) < 2 ^ ((n.log2 : ℤ) - (d.log2 : ℤ) + 1) := by
    rw [div_lt_iff₀ hdq]
    calc (n : ℚ) < 2 ^ ((n.log2 : ℤ) + 1) := lt_two_zpow_log2 n
      _ = 2 ^ ((n.log2 : ℤ) - (d.log2 : ℤ) + 1) * 2 ^ (d.log2 : ℤ) := by
          rw [← zpow_add₀ two_ne_zero]
          congr 1
          ring
      _ ≤ 2 ^ ((n.log2 : ℤ) - (d.log2 : ℤ) + 1) * d := by
          exact mul_le_mul_of_nonneg_left (two_zpow_log2_le hd) (two_zpow_pos _).le
  have hratio := inUnits_eq n d ((n.log2 : ℤ) - (d.log2 : ℤ))
  have hpos := inUnits_pos hd n ((n.log2 : ℤ) - (d.log2 : ℤ))
  unfold topExponent
  generalize (n.log2 : ℤ) - (d.log2 : ℤ) = k at hlow hhigh hratio hpos
  -- The comparison in units of `2 ^ k` tells on which side of `2 ^ k` the ratio is.
  have hside : (inUnits n d k).2 ≤ (inUnits n d k).1 ↔ (2 : ℚ) ^ k ≤ n / d := by
    rw [← one_le_div (two_zpow_pos k), ← hratio, one_le_div (by exact_mod_cast hpos)]
    exact_mod_cast Iff.rfl
  dsimp only
  split
  next h => exact ⟨hside.1 h, hhigh⟩
  next h =>
    refine ⟨hlow, ?_⟩
    rw [sub_add_cancel]
    exact not_le.1 (mt hside.2 h)

/-- An integer nearest to `q`, and an even one if there are two. -/
structure IsNearestEven (q : ℚ) (m : ℕ) : Prop where
  near : |q - m| ≤ 1 / 2
  even : |q - m| = 1 / 2 → m % 2 = 0

/-- The division rounds to the nearest integer, a tie to the even one. -/
theorem divNearestEven_spec (n : ℕ) {d : ℕ} (hd : 0 < d) :
    IsNearestEven (n / d) (divNearestEven n d) := by
  have hdq : (0 : ℚ) < d := by exact_mod_cast hd
  have hratio : (n : ℚ) / d = (n / d : ℕ) + (n % d : ℕ) / d := by
    rw [div_eq_iff hdq.ne', add_mul, div_mul_cancel₀ _ hdq.ne']
    exact_mod_cast (Nat.div_add_mod' n d).symm
  have hless : 2 * (n % d) < d ↔ ((n % d : ℕ) : ℚ) / d < 1 / 2 := by
    rw [div_lt_div_iff₀ hdq two_pos, mul_comm, one_mul]
    exact_mod_cast Iff.rfl
  have hmore : d < 2 * (n % d) ↔ 1 / 2 < ((n % d : ℕ) : ℚ) / d := by
    rw [div_lt_div_iff₀ two_pos hdq, mul_comm ((n % d : ℕ) : ℚ), one_mul]
    exact_mod_cast Iff.rfl
  have hnonneg : 0 ≤ ((n % d : ℕ) : ℚ) / d := by positivity
  have hlt : ((n % d : ℕ) : ℚ) / d < 1 := by
    rw [div_lt_one hdq]
    exact_mod_cast Nat.mod_lt n hd
  rw [hratio]
  simp only [divNearestEven, hless, hmore]
  generalize ((n % d : ℕ) : ℚ) / d = part at hnonneg hlt
  generalize n / d = whole
  -- The distances to the integers below and above.
  have hdown : |(whole : ℚ) + part - whole| = part := by
    rw [add_sub_cancel_left, abs_of_nonneg hnonneg]
  have hup : |(whole : ℚ) + part - ((whole + 1 : ℕ) : ℚ)| = 1 - part := by
    rw [abs_sub_comm, abs_of_nonneg]
    · push_cast
      ring
    · push_cast
      linarith
  split_ifs with hbelow habove heven
  · refine ⟨hdown.trans_le hbelow.le, fun h => ?_⟩
    linarith
  · refine ⟨hup.trans_le (by linarith), fun h => ?_⟩
    linarith
  · exact ⟨hdown.trans_le (by linarith), fun _ => heven⟩
  · exact ⟨hup.trans_le (by linarith), fun _ => by omega⟩

/-- `q` rounds to `m` units of `2 ^ e`. The unit is the smallest one that 53 digits allow, and not
smaller than the smallest number. -/
structure Rounds (q : ℚ) (m : ℕ) (e : ℤ) : Prop where
  least : -1074 ≤ e
  upper : q < 2 ^ (e + 53)
  lower : e = -1074 ∨ 2 ^ (e + 52) ≤ q
  nearest : IsNearestEven (q / 2 ^ e) m

/-- A number that is neither infinite nor not-a-number stands for a rational number. -/
def value (x : Binary64) : ℚ := x.ratio.1 / x.ratio.2

/-- The sign of a number as a factor. -/
def signum (negative : Bool) : ℚ := if negative then -1 else 1

theorem abs_signum (negative : Bool) : |signum negative| = 1 := by
  cases negative with
  | false => exact abs_one
  | true => exact (abs_neg 1).trans abs_one

/-- The value of a finite number is its significand at its exponent, with its sign. -/
theorem value_finite (s : Bool) (m : ℕ) (e : ℤ) (h : Canonical m e) :
    (finite s m e h).value = signum s * (m * 2 ^ e) := by
  have hmagnitude : ((finite s m e h).magnitude.1 : ℚ) / (finite s m e h).magnitude.2 =
      m * 2 ^ e := by
    unfold magnitude
    dsimp only
    split
    next he =>
      obtain ⟨k, rfl⟩ := Int.eq_ofNat_of_zero_le he
      simp only [Int.toNat_natCast, Nat.cast_mul, cast_pow2, Nat.cast_one, div_one, zpow_natCast]
    next he =>
      obtain ⟨k, hk⟩ : ∃ k : ℕ, -e = k := Int.eq_ofNat_of_zero_le (by omega)
      rw [show e = -(k : ℤ) by omega]
      simp only [neg_neg, Int.toNat_natCast, cast_pow2, zpow_neg, zpow_natCast, div_eq_mul_inv]
  rw [← hmagnitude]
  cases s with
  | false => simp [value, ratio, isNegative, signum]
  | true => simp [value, ratio, isNegative, signum, neg_div]

theorem value_zero (negative : Bool) : (zero negative).value = 0 := by
  rw [zero, value_finite, Nat.cast_zero, zero_mul, mul_zero]

theorem floor_eq (x : Binary64) : x.floor = ⌊x.value⌋ :=
  (Rat.floor_intCast_div_natCast x.ratio.1 x.ratio.2).symm

namespace Rounds

variable {q : ℚ} {m : ℕ} {e : ℤ}

/-- A rounded significand is 2 to the power of 53 at most. -/
theorem le (h : Rounds q m e) : m ≤ 2 ^ 53 := by
  have hq : q / 2 ^ e < 2 ^ 53 := by
    rw [div_lt_iff₀ (two_zpow_pos e), ← zpow_natCast, ← zpow_add₀ two_ne_zero, add_comm]
    exact h.upper
  have hm := (abs_le.1 h.nearest.near).1
  have hlt : (m : ℚ) < 2 ^ 53 + 1 := by linarith
  have hltN : m < 2 ^ 53 + 1 := by exact_mod_cast hlt
  omega

/-- A rounded significand has 53 bits or more unless the exponent is the least one. -/
theorem ge (h : Rounds q m e) (he : e ≠ -1074) : 2 ^ 52 ≤ m := by
  have hq : 2 ^ 52 ≤ q / 2 ^ e := by
    rw [le_div_iff₀ (two_zpow_pos e), ← zpow_natCast, ← zpow_add₀ two_ne_zero, add_comm]
    exact h.lower.resolve_left he
  have hm := (abs_le.1 h.nearest.near).2
  have hlt : (2 ^ 52 : ℚ) < m + 1 := by linarith
  have hltN : 2 ^ 52 < m + 1 := by exact_mod_cast hlt
  omega

end Rounds

/-- A ratio rounds to a number with its sign, as long as this is in range. -/
theorem ofRatio_rounds {n d : ℕ} (hn : 0 < n) (hd : 0 < d) (negative : Bool) :
    ∃ m e, Rounds (n / d) m e ∧
      ((m : ℚ) * 2 ^ e < 2 ^ (1024 : ℤ) →
        ∃ m' e' h, ofRatio negative n d = finite negative m' e' h ∧
          (m' : ℚ) * 2 ^ e' = m * 2 ^ e) := by
  obtain ⟨hlow, hhigh⟩ := topExponent_spec hn hd
  have hunit := inUnits_eq n d (max (topExponent n d - 52) (-1074))
  have hpos := inUnits_pos hd n (max (topExponent n d - 52) (-1074))
  have hnearest := divNearestEven_spec (inUnits n d (max (topExponent n d - 52) (-1074))).1 hpos
  rw [hunit] at hnearest
  unfold ofRatio
  rw [if_neg hn.ne']
  dsimp only
  generalize he : max (topExponent n d - 52) (-1074) = e at *
  generalize divNearestEven _ _ = m at *
  have hrounds : Rounds (n / d) m e := by
    refine ⟨by omega, ?_, ?_, hnearest⟩
    · refine hhigh.trans_le (zpow_le_zpow_right₀ one_le_two (by omega))
    · by_cases hleast : e = -1074
      · exact .inl hleast
      · rw [show e + 52 = topExponent n d by omega]
        exact .inr hlow
  refine ⟨m, e, hrounds, fun hrange => ?_⟩
  have htop : ∀ k : ℕ, 2 ^ k ≤ m → e + k < 1024 := by
    intro k hk
    rw [← zpow_lt_zpow_iff_right₀ (one_lt_two (α := ℚ)), zpow_add₀ two_ne_zero, mul_comm,
      zpow_natCast]
    refine lt_of_le_of_lt (mul_le_mul_of_nonneg_right ?_ (two_zpow_pos e).le) hrange
    exact_mod_cast hk
  have hle := hrounds.le
  have hleast := hrounds.least
  split
  next hcarry =>
    have hcanonical : Canonical 4503599627370496 (e + 1) := by
      have := htop 53 (by omega)
      unfold Canonical
      omega
    refine ⟨_, _, hcanonical, by rw [ofParts, dif_pos hcanonical], ?_⟩
    rw [hcarry, zpow_add_one₀ two_ne_zero]
    push_cast
    ring
  next hcarry =>
    have hcanonical : Canonical m e := by
      unfold Canonical
      by_cases hsmall : e = -1074
      · omega
      · have hge := hrounds.ge hsmall
        have := htop 52 hge
        omega
    exact ⟨m, e, hcanonical, by rw [ofParts, dif_pos hcanonical], rfl⟩

theorem ratio_pos (x : Binary64) : 0 < x.ratio.2 := by
  cases x with
  | nan => exact Nat.one_pos
  | infinite s => exact Nat.one_pos
  | finite s m e h =>
      show 0 < (magnitude (finite s m e h)).2
      unfold magnitude
      dsimp only
      split
      · exact Nat.one_pos
      · exact Nat.pow_pos (by decide)

/-- The exact sum of two numbers as a ratio. -/
theorem value_add_value (x y : Binary64) :
    x.value + y.value =
      ((x.ratio.1 * y.ratio.2 + y.ratio.1 * x.ratio.2 : ℤ) : ℚ) / (x.ratio.2 * y.ratio.2 : ℕ) := by
  have hxq : (x.ratio.2 : ℚ) ≠ 0 := by exact_mod_cast x.ratio_pos.ne'
  have hyq : (y.ratio.2 : ℚ) ≠ 0 := by exact_mod_cast y.ratio_pos.ne'
  rw [value, value, div_add_div _ _ hxq hyq]
  push_cast
  ring

/-- Finite numbers are added as ratios. -/
theorem add_eq {x y : Binary64} (hx : x.isFinite = true) (hy : y.isFinite = true) :
    x.add y =
      if x.ratio.1 * y.ratio.2 + y.ratio.1 * x.ratio.2 = 0 then zero (x.isNegative && y.isNegative)
      else ofRatio (x.ratio.1 * y.ratio.2 + y.ratio.1 * x.ratio.2 < 0)
        (x.ratio.1 * y.ratio.2 + y.ratio.1 * x.ratio.2).natAbs (x.ratio.2 * y.ratio.2) := by
  cases x with
  | nan => cases hx
  | infinite s => cases hx
  | finite s m e h =>
      cases y with
      | nan => cases hy
      | infinite t => cases hy
      | finite t n f k => rfl

/-- A positive sum of finite numbers is rounded once. -/
theorem add_rounds
    {x y : Binary64} (hx : x.isFinite = true) (hy : y.isFinite = true)
    (hpos : 0 < x.value + y.value) :
    ∃ m e, Rounds (x.value + y.value) m e ∧
      ((m : ℚ) * 2 ^ e < 2 ^ (1024 : ℤ) →
        ∃ m' e' h, x.add y = finite false m' e' h ∧ (m' : ℚ) * 2 ^ e' = m * 2 ^ e) := by
  have hdpos : 0 < x.ratio.2 * y.ratio.2 := Nat.mul_pos x.ratio_pos y.ratio_pos
  rw [value_add_value] at hpos
  rw [add_eq hx hy, value_add_value]
  generalize x.ratio.1 * y.ratio.2 + y.ratio.1 * x.ratio.2 = n at *
  generalize x.ratio.2 * y.ratio.2 = d at *
  have hn : 0 < n := by
    have hdq : (0 : ℚ) < d := by exact_mod_cast hdpos
    have := (div_pos_iff_of_pos_right hdq).1 hpos
    exact_mod_cast this
  obtain ⟨k, rfl⟩ := Int.eq_ofNat_of_zero_le hn.le
  rw [if_neg hn.ne', decide_eq_false (not_lt.2 hn.le)]
  exact ofRatio_rounds (by exact_mod_cast hn) hdpos false

/-- A multiple of a power of two with at most 53 binary digits. -/
def Represented (q : ℚ) : Prop := ∃ (m : ℕ) (e : ℤ), m < 2 ^ 53 ∧ q = m * 2 ^ e

/-- A number of 53 digits that reaches a power of two is a multiple of the unit of its last
digit. -/
theorem Represented.multiple {q : ℚ} (hq : Represented q) {j : ℤ} (hj : 2 ^ j ≤ q) :
    ∃ t : ℕ, q = t * 2 ^ (j - 52) := by
  obtain ⟨m, e, hm, rfl⟩ := hq
  have hexponent : j < e + 53 := by
    rw [← zpow_lt_zpow_iff_right₀ (one_lt_two (α := ℚ)), zpow_add₀ two_ne_zero, mul_comm]
    refine hj.trans_lt (mul_lt_mul_of_pos_right ?_ (two_zpow_pos e))
    exact_mod_cast hm
  obtain ⟨i, hi⟩ : ∃ i : ℕ, e = (j - 52) + i := ⟨(e - (j - 52)).toNat, by omega⟩
  refine ⟨m * 2 ^ i, ?_⟩
  rw [hi, zpow_add₀ two_ne_zero, zpow_natCast]
  push_cast
  ring

end Binary64
end SceneMarkup
