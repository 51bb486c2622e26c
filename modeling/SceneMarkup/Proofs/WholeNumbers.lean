import SceneMarkup.Proofs.Nearest
import SceneMarkup.Scene.Reading

/-!
# Exact arithmetic of whole numbers

A whole number of 53 binary digits at most is a binary number, so neither it nor a sum that comes to
it is rounded.

* `Binary64.IsInt`: a binary number that is an integer. `IsInt.add`, `IsInt.sub`: sums and
  differences.
* `Binary64.Leads`: differences of places that follow each other. `Leads.sum_eq`,
  `Leads.total_isInt`: their sum is the difference of the last place and the first one, also if it
  is rounded after each summand.
* `Json.IsWhole`: an integer in either form of numbers, and what is computed and read from it.
-/

namespace SceneMarkup

namespace Binary64

/-- A finite number that is an integer. -/
structure IsInt (x : Binary64) (k : ℤ) : Prop where
  isFinite : x.isFinite = true
  value : x.value = k

/-- Natural numbers of 53 digits are not changed by rounding. -/
theorem Rounds.eq_of_nat {k m : ℕ} {e : ℤ} (h : Rounds k m e) (hk : k < 2 ^ 53) :
    (m : ℚ) * 2 ^ e = k := by
  have hkq : (k : ℚ) < 2 ^ (53 : ℤ) := by exact_mod_cast hk
  have he : e ≤ 0 := by
    rcases h.lower with hleast | hlower
    · omega
    · have hless : e + 52 < 53 := (zpow_lt_zpow_iff_right₀ one_lt_two).1 (hlower.trans_lt hkq)
      omega
  obtain ⟨j, rfl⟩ : ∃ j : ℕ, e = -(j : ℤ) := ⟨e.natAbs, by omega⟩
  -- In units of one or a fraction of it the number is a whole number of units.
  have hm : m = k * 2 ^ j := by
    refine le_antisymm (h.nearest_mul.ge ?_) (h.nearest_mul.le ?_)
    · push_cast
      exact le_rfl
    · push_cast
      exact le_rfl
  rw [hm, zpow_neg, zpow_natCast, Nat.cast_mul, Nat.cast_pow, Nat.cast_ofNat,
    mul_inv_cancel_right₀ (pow_ne_zero j two_ne_zero)]

theorem ofRatio_isInt
    {n d k : ℕ} (hd : 0 < d) (hratio : (n : ℚ) / d = k) (hk : k < 2 ^ 53) (negative : Bool) :
    IsInt (ofRatio negative n d) (if negative then -k else k) := by
  have hsigned : signum negative * (k : ℚ) = ((if negative then -(k : ℤ) else k : ℤ) : ℚ) := by
    cases negative <;> simp [signum]
  rcases Nat.eq_zero_or_pos n with rfl | hn
  · rw [Nat.cast_zero, zero_div] at hratio
    rw [ofRatio, if_pos rfl]
    refine ⟨rfl, ?_⟩
    rw [value_zero, ← hsigned, ← hratio, mul_zero]
  · obtain ⟨m, e, hrounds, hrange⟩ := ofRatio_rounds hn hd negative
    rw [hratio] at hrounds
    have hexact := hrounds.eq_of_nat hk
    have hkq : (k : ℚ) < 2 ^ (53 : ℤ) := by exact_mod_cast hk
    obtain ⟨m', e', hcanonical, hfinite, heq⟩ :=
      hrange (hexact.trans_lt (hkq.trans (zpow_lt_zpow_right₀ one_lt_two (by norm_num))))
    rw [hfinite]
    exact ⟨rfl, by rw [value_finite, heq, hexact, hsigned]⟩

/-- A ratio of integers that comes to an integer of 53 digits. -/
theorem ofRatio_signed_isInt
    {n k : ℤ} {d : ℕ} (hd : 0 < d) (hratio : (n : ℚ) / d = k) (hk : |k| < 2 ^ 53) :
    IsInt (ofRatio (n < 0) n.natAbs d) k := by
  have hdq : (0 : ℚ) < d := by exact_mod_cast hd
  have habs : (n.natAbs : ℚ) / d = k.natAbs := by
    rw [Nat.cast_natAbs, Nat.cast_natAbs, Int.cast_abs, Int.cast_abs, ← hratio, abs_div,
      abs_of_pos hdq]
  have hsign : n < 0 ↔ k < 0 := by
    rw [← Int.cast_lt_zero (R := ℚ), ← Int.cast_lt_zero (R := ℚ) (n := k), ← hratio,
      div_neg_iff]
    constructor
    · exact fun hn => .inr ⟨hn, hdq⟩
    · rintro (⟨-, hneg⟩ | ⟨hn, -⟩)
      · exact absurd hneg hdq.not_gt
      · exact hn
  rw [abs_lt] at hk
  have hint := ofRatio_isInt hd habs (by omega) (decide (n < 0))
  have hk' : (if decide (n < 0) then -(k.natAbs : ℤ) else k.natAbs) = k := by
    simp only [decide_eq_true_eq, hsign]
    split <;> omega
  rwa [hk'] at hint

/-- An integer of 53 digits is not rounded. -/
theorem ofInt_isInt {n : ℤ} (hn : |n| < 2 ^ 53) : IsInt (ofInt n) n :=
  ofRatio_signed_isInt Nat.one_pos (by rw [Nat.cast_one, div_one]) hn

theorem zero_isInt : IsInt (zero false) 0 :=
  ⟨rfl, by rw [value_zero, Int.cast_zero]⟩

namespace IsInt

variable {x y : Binary64} {m n : ℤ}

theorem neg (hx : x.IsInt m) : x.neg.IsInt (-m) := by
  obtain ⟨hfinite, hvalue⟩ := hx
  cases x with
  | nan => cases hfinite
  | infinite s => cases hfinite
  | finite s u e h =>
      refine ⟨rfl, ?_⟩
      rw [value_finite] at hvalue
      rw [Binary64.neg, value_finite, Int.cast_neg, ← hvalue]
      cases s <;> simp [signum]

theorem add (hx : x.IsInt m) (hy : y.IsInt n) (hsum : |m + n| < 2 ^ 53) :
    (x.add y).IsInt (m + n) := by
  have hvalue := value_add_value x y
  rw [hx.value, hy.value, ← Int.cast_add] at hvalue
  have hdpos : 0 < x.ratio.2 * y.ratio.2 := Nat.mul_pos x.ratio_pos y.ratio_pos
  rw [add_eq hx.isFinite hy.isFinite]
  split
  next hzero =>
    rw [hzero, Int.cast_zero, zero_div] at hvalue
    exact ⟨rfl, by rw [value_zero, hvalue]⟩
  next => exact ofRatio_signed_isInt hdpos hvalue.symm hsum

theorem sub (hx : x.IsInt m) (hy : y.IsInt n) (hdifference : |m - n| < 2 ^ 53) :
    (x.sub y).IsInt (m - n) := by
  rw [sub_eq_add_neg] at hdifference ⊢
  exact hx.add hy.neg hdifference

end IsInt

/-- The sum of a row of numbers, from the first one to the last. -/
def total (xs : List Binary64) : Binary64 := xs.foldl add (zero false)

/-- A row of differences that lead from one place to another: each of them is that of the next place
and the one before, and no place is farther than `2 ^ 51` from the origin. -/
inductive Leads : ℤ → List Binary64 → ℤ → Prop
  | stay (p : ℤ) : Leads p [] p
  | move {p q r : ℤ} {x : Binary64} {xs : List Binary64} :
      x.IsInt (q - p) → |q| < 2 ^ 51 → Leads q xs r → Leads p (x :: xs) r

namespace Leads

variable {p r : ℤ} {xs : List Binary64}

/-- The places on the way cancel. -/
theorem sum_eq (h : Leads p xs r) : (xs.map Binary64.value).sum = ((r - p : ℤ) : ℚ) := by
  induction h with
  | stay p => simp
  | move hx _ _ ih =>
      rw [List.map_cons, List.sum_cons, hx.value, ih]
      push_cast
      ring

/-- The places are so near that no sum on the way is rounded. -/
theorem foldl_isInt (h : Leads p xs r) {o : ℤ} (ho : |o| < 2 ^ 51) {sum : Binary64}
    (hsum : sum.IsInt (p - o)) : (xs.foldl add sum).IsInt (r - o) := by
  induction h generalizing sum with
  | stay p => exact hsum
  | @move p q r x xs hx hq _ ih =>
      refine ih ?_
      have hnext : p - o + (q - p) = q - o := by ring
      rw [abs_lt] at ho hq
      have hadd := hsum.add hx (by rw [hnext, abs_lt]; omega)
      rwa [hnext] at hadd

theorem total_isInt (h : Leads p xs r) (hp : |p| < 2 ^ 51) : (total xs).IsInt (r - p) :=
  h.foldl_isInt hp (by rw [sub_self]; exact zero_isInt)

end Leads

end Binary64

namespace Json

/-- A number that is an integer, in either form. -/
inductive IsWhole : Json → ℤ → Prop
  | exact (n : ℤ) : IsWhole (.int n) n
  | rounded {x : Binary64} {n : ℤ} : x.IsInt n → IsWhole (.float x) n

theorem ofInteger_isInt {n : ℤ} (hn : |n| < 2 ^ 53) :
    ∃ x : Binary64, ofInteger n = .ok x ∧ x.IsInt n := by
  have hint := Binary64.ofInt_isInt hn
  exact ⟨_, if_pos hint.isFinite, hint⟩

namespace IsWhole

variable {v w : Json} {m n : ℤ}

theorem unique (hm : v.IsWhole m) (hn : v.IsWhole n) : m = n := by
  cases hm with
  | exact =>
      cases hn
      rfl
  | rounded hx =>
      cases hn with
      | rounded hy =>
          have hvalue : (m : ℚ) = n := hx.value.symm.trans hy.value
          exact_mod_cast hvalue

/-- The difference of whole numbers is exact, whichever forms they have. -/
theorem sub (hv : v.IsWhole m) (hw : w.IsWhole n) (hm : |m| < 2 ^ 51) (hn : |n| < 2 ^ 51) :
    ∃ u, Json.sub v w = .ok u ∧ u.IsWhole (m - n) := by
  rw [abs_lt] at hm hn
  have hdifference : |m - n| < 2 ^ 53 := by
    rw [abs_lt]
    omega
  cases hv with
  | exact =>
      cases hw with
      | exact => exact ⟨_, rfl, .exact _⟩
      | @rounded y _ hy =>
          obtain ⟨x, hof, hx⟩ := ofInteger_isInt (n := m) (by rw [abs_lt]; omega)
          exact ⟨.float (x.sub y), by simp only [Json.sub, numeric, hof],
            .rounded (hx.sub hy hdifference)⟩
  | @rounded x _ hx =>
      cases hw with
      | exact =>
          obtain ⟨y, hof, hy⟩ := ofInteger_isInt (n := n) (by rw [abs_lt]; omega)
          exact ⟨.float (x.sub y), by simp only [Json.sub, numeric, hof],
            .rounded (hx.sub hy hdifference)⟩
      | @rounded y _ hy => exact ⟨_, rfl, .rounded (hx.sub hy hdifference)⟩

/-- A whole number is read as it is. -/
theorem number (hv : v.IsWhole n) (hn : |n| < 2 ^ 53) :
    ∃ x : Binary64, Reading.nullable Reading.number v = .value (some x) ∧ x.IsInt n := by
  cases hv with
  | exact =>
      obtain ⟨x, hof, hx⟩ := ofInteger_isInt hn
      exact ⟨x, by simp only [Reading.nullable, Reading.number, hof, Reading.map], hx⟩
  | @rounded x _ hx => exact ⟨x, rfl, hx⟩

end IsWhole

end Json
end SceneMarkup
