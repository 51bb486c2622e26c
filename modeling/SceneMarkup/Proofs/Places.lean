import Mathlib.Data.List.DropRight
import SceneMarkup.Number.Literal
import SceneMarkup.Proofs.Nearest

/-!
# Rounding to decimal places

A number is rounded to decimal places in its shortest decimal, and the result is written without an
exponent. The digits that the result may have are limited beforehand.

* `quantize_precision`: the limit is never reached, a carry included.
* `toPlaces_settle`: places behind the last digit change nothing.
* `PlainNumeral`: a numeral without an exponent, without zeros in front of the integer and without
  zeros at the end of the fraction. `value_ofUnits`: what is written for a number of units stands
  for them.
* `RoundedTo`: the multiple of the last place that is nearest, or nothing if this is zero.
  `roundTo_rounded`: all finite numbers are rounded so.
-/

namespace SceneMarkup

namespace Numeral

theorem ofDigits_concat (ds : List Char) (c : Char) :
    Number.ofDigits (ds ++ [c]) = 10 * Number.ofDigits ds + (c.toNat - 48) := by
  simp [Number.ofDigits]

theorem ofDigits_padLeft (width : ℕ) (ds : List Char) :
    Number.ofDigits (padLeft width ds) = Number.ofDigits ds := by
  have hzeros : Number.ofDigits (zeros (width - ds.length)) = 0 :=
    Nat.ofDigitChars_replicate_zero
  rw [padLeft, Number.ofDigits, List.foldl_append]
  exact congrArg (fun start => ds.foldl _ start) hzeros

theorem ofDigits_digits (n : ℕ) : Number.ofDigits (digits n) = n :=
  Nat.ofDigitChars_toDigits (by decide) (by decide)

theorem isDigit_of_mem_digits {n : ℕ} {c : Char} (h : c ∈ digits n) : c.isDigit = true :=
  Nat.isDigit_of_mem_toDigits (by decide) (by decide) h

theorem length_digits_le_iff {n k : ℕ} (hk : 0 < k) : (digits n).length ≤ k ↔ n < 10 ^ k :=
  Nat.length_toDigits_le_iff (by decide) hk

theorem lt_pow_length_digits (n : ℕ) : n < 10 ^ (digits n).length :=
  (length_digits_le_iff Nat.length_toDigits_pos).1 le_rfl

theorem digits_mul_ten {n : ℕ} (hn : 0 < n) : digits (n * 10) = digits n ++ ['0'] := by
  rw [mul_comm]
  exact (Nat.toDigits_append_toDigits (b := 10) (d := 0) (by decide) hn (by decide)).symm

/-- Only zero has a zero in front. -/
theorem digits_lead (n : ℕ) : digits n = ['0'] ∨ ∃ c cs, digits n = c :: cs ∧ c ≠ '0' := by
  induction n using Nat.strongRecOn with
  | _ n ih =>
    have hdigits : digits n =
        if n < 10 then [n.digitChar] else digits (n / 10) ++ [(n % 10).digitChar] :=
      Nat.toDigits_eq_if (by decide)
    by_cases hsmall : n < 10
    · rw [if_pos hsmall] at hdigits
      by_cases hzero : n = 0
      · exact .inl (by rw [hzero]; rfl)
      · have hdigit : ∀ m < 10, m ≠ 0 → Nat.digitChar m ≠ '0' := by decide
        exact .inr ⟨_, _, hdigits, hdigit n hsmall hzero⟩
    · rw [if_neg hsmall] at hdigits
      rcases ih (n / 10) (by omega) with hzero | ⟨c, cs, hlead, hc⟩
      · have hvalue := ofDigits_digits (n / 10)
        rw [hzero] at hvalue
        have hnone : 0 = n / 10 := hvalue
        omega
      · rw [hlead] at hdigits
        exact .inr ⟨c, _, hdigits, hc⟩

end Numeral

namespace Decimal

/-- The number that a decimal stands for. -/
def value (d : Decimal) : ℚ := Binary64.signum d.negative * (d.digits * 10 ^ d.exponent)

theorem cast_pow10 (k : ℕ) : (pow10 k : ℚ) = 10 ^ k := by
  simp [pow10]

theorem pow10_succ (k : ℕ) : pow10 (k + 1) = pow10 k * 10 := pow_succ 10 k

theorem ten_zpow_pos (k : ℤ) : (0 : ℚ) < 10 ^ k := zpow_pos (by norm_num) k

/-- The magnitude of a decimal is its digits at their exponent. -/
theorem abs_value (d : Decimal) : |d.value| = d.digits * 10 ^ d.exponent := by
  rw [value, abs_mul, Binary64.abs_signum, one_mul]
  exact abs_of_nonneg (mul_nonneg (Nat.cast_nonneg _) (ten_zpow_pos _).le)

/-- The units of a place are the integer that is nearest to the magnitude measured in them. -/
theorem unitsAt_eq (d : Decimal) (places : ℤ) :
    (d.unitsAt places : ℤ) = round (|d.value| * 10 ^ places) := by
  rw [abs_value, mul_assoc, ← zpow_add₀ (by norm_num)]
  unfold unitsAt
  dsimp only
  split
  next hk =>
    obtain ⟨k, hk⟩ := Int.eq_ofNat_of_zero_le hk
    rw [hk, zpow_natCast, Int.toNat_natCast]
    have hwhole : (d.digits : ℚ) * 10 ^ k = (d.digits * pow10 k : ℕ) := by
      rw [Nat.cast_mul, cast_pow10]
    rw [hwhole, round_natCast]
  next hk =>
    obtain ⟨k, hk⟩ : ∃ k : ℕ, -(d.exponent + places) = k := Int.eq_ofNat_of_zero_le (by omega)
    rw [hk, show d.exponent + places = -(k : ℤ) by omega, Int.toNat_natCast, round_eq]
    have hfloor := Rat.floor_intCast_div_natCast (2 * d.digits + pow10 k : ℕ) (2 * pow10 k)
    have hratio : (d.digits : ℚ) * 10 ^ (-(k : ℤ)) + 1 / 2 =
        ((2 * d.digits + pow10 k : ℕ) : ℤ) / (2 * pow10 k : ℕ) := by
      push_cast
      rw [cast_pow10, zpow_neg, zpow_natCast]
      field_simp
    rw [hratio, hfloor]
    push_cast
    rfl

/-- A place behind the last digit has ten times the units of the place before. -/
theorem unitsAt_add
    {d : Decimal} {places : ℤ} (h : 0 ≤ d.exponent + places) (j : ℕ) :
    d.unitsAt (places + j) = d.unitsAt places * 10 ^ j := by
  unfold unitsAt
  dsimp only
  rw [if_pos h, if_pos (by omega), mul_assoc]
  congr 1
  rw [show (d.exponent + (places + j)).toNat = (d.exponent + places).toNat + j by omega]
  exact pow_add 10 _ j

/-- The precision suffices, also when the rounding carries into a new digit. -/
theorem quantize_precision (d : Decimal) (places : ℤ) :
    d.quantize places (d.precision places) = .ok (d.unitsAt places) := by
  have hleast : 28 ≤ d.precision places := le_max_left _ _
  have hprecision : d.adjusted + places + 2 ≤ d.precision places := le_max_right _ _
  obtain ⟨n, hn⟩ : ∃ n : ℕ, d.precision places = n + 1 := ⟨(d.precision places - 1).toNat, by omega⟩
  rw [adjusted] at hprecision
  have hdigits : (d.digits : ℚ) < 10 ^ (Numeral.digits d.digits).length := by
    exact_mod_cast Numeral.lt_pow_length_digits d.digits
  have hmagnitude : |d.value| * 10 ^ places < 10 ^ n := by
    calc |d.value| * 10 ^ places
        = d.digits * 10 ^ (d.exponent + places) := by
          rw [abs_value, mul_assoc, ← zpow_add₀ (by norm_num)]
      _ < 10 ^ (Numeral.digits d.digits).length * 10 ^ (d.exponent + places) :=
          mul_lt_mul_of_pos_right hdigits (ten_zpow_pos _)
      _ = 10 ^ (((Numeral.digits d.digits).length : ℤ) + (d.exponent + places)) := by
          rw [← zpow_natCast, ← zpow_add₀ (by norm_num)]
      _ ≤ 10 ^ (n : ℤ) := zpow_le_zpow_right₀ (by norm_num) (by omega)
      _ = 10 ^ n := zpow_natCast _ _
  have hunits : (d.unitsAt places : ℚ) ≤ |d.value| * 10 ^ places + 1 / 2 := by
    have hround := Int.floor_le (|d.value| * 10 ^ places + 1 / 2)
    rw [← round_eq, ← unitsAt_eq] at hround
    exact_mod_cast hround
  have hpower : (1 : ℚ) ≤ 10 ^ n := one_le_pow₀ (by norm_num)
  have hless : (d.unitsAt places : ℚ) < 10 ^ (n + 1) := by
    rw [pow_succ]
    linarith
  have hlength : (Numeral.digits (d.unitsAt places)).length ≤ n + 1 :=
    (Numeral.length_digits_le_iff n.succ_pos).2 (by exact_mod_cast hless)
  rw [quantize, if_neg (by omega)]

theorem dropTrailingZeros_concat_zero (ds : List Char) :
    dropTrailingZeros (ds ++ ['0']) = dropTrailingZeros ds := by
  simp [dropTrailingZeros]

theorem dropTrailingZeros_concat {c : Char} (hc : c ≠ '0') (ds : List Char) :
    dropTrailingZeros (ds ++ [c]) = ds ++ [c] := by
  simp [dropTrailingZeros, hc]

theorem dropTrailingZeros_zeros (k : ℕ) : dropTrailingZeros (Numeral.zeros k) = [] := by
  simp [dropTrailingZeros, Numeral.zeros]

theorem mem_of_mem_dropTrailingZeros
    {c : Char} {ds : List Char} (h : c ∈ dropTrailingZeros ds) : c ∈ ds :=
  (List.rdropWhile_prefix (· == '0') ds).subset h

theorem getLast?_dropTrailingZeros (ds : List Char) :
    (dropTrailingZeros ds).getLast? ≠ some '0' := by
  induction ds using List.reverseRecOn with
  | nil => simp [dropTrailingZeros]
  | append_singleton ds c ih =>
      by_cases hc : c = '0'
      · rwa [hc, dropTrailingZeros_concat_zero]
      · simpa [dropTrailingZeros_concat hc] using hc

/-- The digits behind the point of so many units. -/
def fractionDigits (units places : ℕ) : List Char :=
  dropTrailingZeros (Numeral.padLeft places (Numeral.digits (units % pow10 places)))

/-- A number with fixed places has a whole part and, behind a point, what is left of its
fraction. -/
theorem fixedText_eq (units places : ℕ) :
    fixedText units places = Numeral.digits (units / pow10 places) ++
      (if fractionDigits units places = [] then [] else '.' :: fractionDigits units places) := by
  cases places with
  | zero =>
      have hfraction : fractionDigits units 0 = [] := by
        rw [fractionDigits, show pow10 0 = 1 from rfl, Nat.mod_one]
        rfl
      rw [if_pos hfraction, List.append_nil, show pow10 0 = 1 from rfl, Nat.div_one]
      show Numeral.digits (units * 1) = _
      rw [mul_one]
  | succ k =>
      rw [fixedText, if_neg (by omega), fractionDigits]
      dsimp only [Int.toNat_natCast]
      split
      next hnone => rw [if_pos hnone, List.append_nil]
      next hsome => rw [if_neg hsome]

theorem fractionDigits_mul_ten (units places : ℕ) :
    fractionDigits (units * 10) (places + 1) = fractionDigits units places := by
  have hrest : units * 10 % pow10 (places + 1) = units % pow10 places * 10 := by
    rw [pow10_succ]
    exact Nat.mul_mod_mul_right 10 units (pow10 places)
  rw [fractionDigits, fractionDigits, hrest]
  rcases Nat.eq_zero_or_pos (units % pow10 places) with hzero | hpos
  · have hpadded : ∀ k, dropTrailingZeros (Numeral.padLeft k (Numeral.digits 0)) = [] := by
      intro k
      exact (dropTrailingZeros_concat_zero _).trans (dropTrailingZeros_zeros _)
    rw [hzero, zero_mul, hpadded, hpadded]
  · rw [Numeral.digits_mul_ten hpos]
    refine Eq.trans (congrArg dropTrailingZeros ?_) (dropTrailingZeros_concat_zero _)
    simp [Numeral.padLeft]

/-- Places behind the last digit leave the text as it is. -/
theorem fixedText_mul (units places j : ℕ) :
    fixedText (units * 10 ^ j : ℕ) (places + j : ℕ) = fixedText units places := by
  induction j with
  | zero => rw [pow_zero, mul_one, add_zero]
  | succ j ih =>
      rw [← ih, pow_succ, ← mul_assoc, ← add_assoc, fixedText_eq, fixedText_eq,
        fractionDigits_mul_ten]
      congr 2
      rw [pow10_succ]
      exact Nat.mul_div_mul_right _ _ (by decide)

/-- A decimal is rounded to units of the last place, and is gone if there are none. -/
theorem toPlaces_eq (d : Decimal) (places : ℤ) :
    d.toPlaces places =
      .ok (if d.unitsAt places = 0 then none
        else some (String.ofList (if d.negative then '-' :: fixedText (d.unitsAt places) places
          else fixedText (d.unitsAt places) places))) := by
  rw [toPlaces, quantize_precision]
  show (if _ then _ else _) = _
  split
  · rfl
  · rfl

/-- Rounding looks at no more places than matter. -/
theorem toPlaces_settle (d : Decimal) (places : ℕ) :
    d.toPlaces (d.settle places) = d.toPlaces places := by
  by_cases hmatter : (places : ℤ) ≤ max 0 (-d.exponent)
  · rw [settle, min_eq_left hmatter]
  · obtain ⟨p, hp⟩ : ∃ p : ℕ, max 0 (-d.exponent) = p := Int.eq_ofNat_of_zero_le (le_max_left _ _)
    obtain ⟨j, rfl⟩ : ∃ j, places = p + j := ⟨places - p, by omega⟩
    have hlast : 0 ≤ d.exponent + p := by omega
    have htext := fixedText_mul (d.unitsAt p) p j
    have hzero : d.unitsAt p * 10 ^ j = 0 ↔ d.unitsAt p = 0 := by simp
    rw [Nat.cast_add] at htext ⊢
    rw [settle, min_eq_right (by omega), hp, toPlaces_eq, toPlaces_eq, unitsAt_add hlast, htext]
    simp only [hzero]

end Decimal

/-- A numeral without an exponent: a sign or none, an integer without zeros in front, and a point
with a fraction without zeros at the end, or neither of the two. -/
structure PlainNumeral where
  negative : Bool
  whole : List Char
  fraction : List Char
  whole_digits : ∀ c ∈ whole, c.isDigit = true
  whole_lead : whole = ['0'] ∨ ∃ c cs, whole = c :: cs ∧ c ≠ '0'
  fraction_digits : ∀ c ∈ fraction, c.isDigit = true
  fraction_last : fraction.getLast? ≠ some '0'

namespace PlainNumeral

/-- The number that a row of digits stands for behind a point. -/
def fractionValue (ds : List Char) : ℚ := Number.ofDigits ds / 10 ^ ds.length

/-- The text of a numeral. -/
def text (t : PlainNumeral) : String :=
  String.ofList ((if t.negative then ['-'] else []) ++ t.whole ++
    (if t.fraction = [] then [] else '.' :: t.fraction))

/-- The number that a numeral stands for. -/
def value (t : PlainNumeral) : ℚ :=
  Binary64.signum t.negative * (Number.ofDigits t.whole + fractionValue t.fraction)

/-- Zeros at the end of a fraction change no value. -/
theorem fractionValue_dropTrailingZeros (ds : List Char) :
    fractionValue (Decimal.dropTrailingZeros ds) = fractionValue ds := by
  induction ds using List.reverseRecOn with
  | nil => rfl
  | append_singleton ds c ih =>
      by_cases hc : c = '0'
      · subst hc
        rw [Decimal.dropTrailingZeros_concat_zero, ih, fractionValue, fractionValue,
          Numeral.ofDigits_concat, List.length_append, List.length_singleton, pow_succ',
          show '0'.toNat - 48 = 0 from rfl, add_zero]
        push_cast
        rw [mul_div_mul_left _ _ (by norm_num)]
      · rw [Decimal.dropTrailingZeros_concat hc]

/-- The numeral of a number of units of a decimal place. -/
def ofUnits (negative : Bool) (units places : ℕ) : PlainNumeral where
  negative := negative
  whole := Numeral.digits (units / Decimal.pow10 places)
  fraction := Decimal.fractionDigits units places
  whole_digits := fun _ hc => Numeral.isDigit_of_mem_digits hc
  whole_lead := Numeral.digits_lead _
  fraction_digits := fun c hc => by
    have hpadded := Decimal.mem_of_mem_dropTrailingZeros hc
    rw [Numeral.padLeft, List.mem_append] at hpadded
    rcases hpadded with hzero | hdigit
    · rw [List.eq_of_mem_replicate hzero]
      rfl
    · exact Numeral.isDigit_of_mem_digits hdigit
  fraction_last := Decimal.getLast?_dropTrailingZeros _

/-- The numeral of units is written with fixed places and with its sign. -/
theorem text_ofUnits (negative : Bool) (units places : ℕ) :
    (ofUnits negative units places).text =
      String.ofList (if negative then '-' :: Decimal.fixedText units places
        else Decimal.fixedText units places) := by
  rw [Decimal.fixedText_eq, text, ofUnits]
  cases negative with
  | false => rfl
  | true => rfl

/-- The digits of a fraction have the value of the units that are left. -/
theorem fractionValue_fractionDigits (units places : ℕ) :
    fractionValue (Decimal.fractionDigits units places) =
      (units % Decimal.pow10 places : ℕ) / 10 ^ places := by
  rw [Decimal.fractionDigits, fractionValue_dropTrailingZeros, fractionValue,
    Numeral.ofDigits_padLeft, Numeral.ofDigits_digits]
  cases places with
  | zero =>
      rw [show Decimal.pow10 0 = 1 from rfl, Nat.mod_one, Nat.cast_zero, zero_div, zero_div]
  | succ k =>
      have hless : units % Decimal.pow10 (k + 1) < 10 ^ (k + 1) :=
        Nat.mod_lt _ (Nat.pow_pos (by decide))
      have hfits := (Numeral.length_digits_le_iff k.succ_pos).2 hless
      have hlength (ds : List Char) (hds : ds.length ≤ k + 1) :
          (Numeral.padLeft (k + 1) ds).length = k + 1 := by
        rw [Numeral.padLeft, List.length_append, Numeral.zeros, List.length_replicate]
        omega
      rw [hlength _ hfits]

/-- What is written for a number of units stands for them. -/
theorem value_ofUnits (negative : Bool) (units places : ℕ) :
    (ofUnits negative units places).value = Binary64.signum negative * (units / 10 ^ places) := by
  have hunit : (0 : ℚ) < 10 ^ places := by positivity
  have hsplit : (Decimal.pow10 places : ℚ) * (units / Decimal.pow10 places : ℕ) +
      (units % Decimal.pow10 places : ℕ) = units := by
    exact_mod_cast Nat.div_add_mod units (Decimal.pow10 places)
  rw [Decimal.cast_pow10] at hsplit
  rw [value, ofUnits, fractionValue_fractionDigits, Numeral.ofDigits_digits, ← hsplit, add_div,
    mul_div_cancel_left₀ _ hunit.ne']

end PlainNumeral

/-- What rounding a number to decimal places gives: nothing if it is less than half a unit of the
last place, otherwise a numeral of the nearest multiple of this unit. -/
inductive RoundedTo (q : ℚ) (places : ℕ) : Option String → Prop
  | nothing (hsmall : |q| * 10 ^ places < 1 / 2) : RoundedTo q places none
  | numeral {t : PlainNumeral} {k : ℤ} (hlarge : 1 / 2 ≤ |q| * 10 ^ places)
      (hnearest : IsNearest (q * 10 ^ places) k) (hvalue : t.value = k / 10 ^ places)
      (hne : t.value ≠ 0) : RoundedTo q places (some t.text)

/-- Every decimal is rounded as it has to be. -/
theorem Decimal.toPlaces_rounded (d : Decimal) (places : ℕ) :
    ∃ result, d.toPlaces places = .ok result ∧ RoundedTo d.value places result := by
  refine ⟨_, d.toPlaces_eq places, ?_⟩
  have hunit : (0 : ℚ) < 10 ^ places := by positivity
  have hunits : (d.unitsAt places : ℤ) = round (|d.value| * 10 ^ places) := by
    rw [unitsAt_eq, zpow_natCast]
  have hnearest := isNearest_round (mul_nonneg (abs_nonneg d.value) hunit.le)
  rw [← hunits] at hnearest
  rw [round_eq, eq_comm, Int.floor_eq_iff] at hunits
  obtain ⟨hlow, hhigh⟩ := hunits
  generalize d.unitsAt places = n at *
  split
  next hzero =>
    subst hzero
    norm_num at hhigh
    exact .nothing (by linarith)
  next hsome =>
    have hn : (1 : ℚ) ≤ (n : ℤ) := by exact_mod_cast Nat.one_le_iff_ne_zero.2 hsome
    have hvalue := PlainNumeral.value_ofUnits d.negative n places
    have hsigned : d.value = Binary64.signum d.negative * |d.value| := by
      rw [abs_value, value]
    rw [← PlainNumeral.text_ofUnits]
    refine .numeral (k := if d.negative then -n else n) (by linarith) ?_ ?_ ?_
    · rw [hsigned, mul_assoc]
      cases d.negative with
      | false => simpa [Binary64.signum] using hnearest
      | true => simpa [Binary64.signum] using hnearest.neg
    · rw [hvalue]
      cases d.negative with
      | false => simp [Binary64.signum]
      | true => simp [Binary64.signum, neg_div]
    · rw [hvalue]
      have hunits : (0 : ℚ) < n / 10 ^ places := div_pos (by exact_mod_cast hn) hunit
      rw [← abs_pos, abs_mul, Binary64.abs_signum, one_mul, abs_of_pos hunits]
      exact hunits

namespace Binary64

/-- Every finite number is rounded to decimal places in the decimal that it is written with. The
number of places is accepted, and nothing is refused. -/
theorem roundTo_rounded
    {s : Bool} {m : ℕ} {e : ℤ} (h : Canonical m e) {places : ℕ}
    (hplaces : places ≤ Decimal.farthestPlace) :
    (finite s m e h).text = Numeral.plain.render (Decimal.shortest s m e) ∧
      Decimal.checkPlaces places = .ok () ∧
      ∃ result, (finite s m e h).roundTo places = .ok result ∧
        (finite s m e h).toPlaces places = .ok result ∧
        RoundedTo (Decimal.shortest s m e).value places result := by
  refine ⟨rfl, ?_, ?_⟩
  · rw [Decimal.farthestPlace] at hplaces
    rw [Decimal.checkPlaces, Decimal.farthestPlace, Decimal.largestExponent, if_neg (by omega),
      if_neg (by omega)]
  · obtain ⟨result, hresult, hrounded⟩ := (Decimal.shortest s m e).toPlaces_rounded places
    refine ⟨result, ?_, hresult, hrounded⟩
    exact ((Decimal.shortest s m e).toPlaces_settle places).trans hresult

theorem roundTo_rounded_carry :
    (3 : ℕ) ≤ Decimal.farthestPlace ∧
      (finite false 5629218059236409 (-49) (by decide)).roundTo (3 : ℕ) = .ok (some "10") ∧
      RoundedTo (Decimal.shortest false 5629218059236409 (-49)).value 3 (some "10") := by
  have hplaces : (3 : ℕ) ≤ Decimal.farthestPlace := by decide
  have hcomputed :
      (finite false 5629218059236409 (-49) (by decide)).roundTo (3 : ℕ) = .ok (some "10") := by
    decide +kernel
  obtain ⟨-, -, result, hresult, -, hrounded⟩ :=
    roundTo_rounded (s := false) (m := 5629218059236409) (e := -49) (by decide) hplaces
  rw [hcomputed] at hresult
  cases hresult
  exact ⟨hplaces, hcomputed, hrounded⟩

end Binary64

end SceneMarkup
