import Mathlib.Algebra.Order.Field.Power
import Mathlib.Algebra.Order.Floor.Semifield
import Mathlib.Data.Rat.Floor
import Mathlib.Tactic.FieldSimp
import Mathlib.Tactic.Linarith
import Mathlib.Tactic.Positivity
import Mathlib.Tactic.Ring
import ApprovedOps.Number.Shortest

/-! # Rounding back to the same number

The decimal that is written for a floating-point number rounds to it: it lies in the interval of the
reals that are nearer to the number than to its neighbours, or as near where the mantissa is even.
Seventeen digits are enough, since the gaps of their grid are narrower than that interval.
-/

namespace ApprovedOps

namespace Binary64

/-- Mantissa and exponent of a finite number: the mantissa has full width, or the exponent is the
    least one. -/
structure Canonical (m : Nat) (e : Int) : Prop where
  mantissa : m < 2 * hidden
  least : leastExponent ≤ e
  greatest : e ≤ greatestExponent
  full : hidden ≤ m ∨ e = leastExponent

/-- Does a number that is `x` times the unit of the last place of the mantissa round to it? -/
structure Near (m : Nat) (e : Int) (x : ℚ) : Prop where
  low : (m : ℚ) - 1 / 2 ≤ x
  high : x ≤ m + 1 / 2
  /-- Below a power of two the neighbours are twice as dense. -/
  dense : m = hidden → leastExponent < e → (m : ℚ) - 1 / 4 ≤ x
  odd : m % 2 = 1 → (m : ℚ) - 1 / 2 < x ∧ x < m + 1 / 2

/-! ## Rounding -/

theorem roundHalfEven_eq {num den n : Nat} (pos : 0 < den)
    (low : (n : ℚ) - 1 / 2 ≤ (num : ℚ) / den) (high : (num : ℚ) / den ≤ n + 1 / 2)
    (odd : n % 2 = 1 → (n : ℚ) - 1 / 2 < (num : ℚ) / den ∧ (num : ℚ) / den < n + 1 / 2) :
    roundHalfEven num den = n := by
  have den_ : (0 : ℚ) < den := by exact_mod_cast pos
  rw [le_div_iff₀ den_] at low
  rw [div_le_iff₀ den_] at high
  rw [lt_div_iff₀ den_, div_lt_iff₀ den_] at odd
  have low_ : 2 * (n * den) ≤ 2 * num + den := by
    have : (2 : ℚ) * (n * den) ≤ 2 * num + den := by linarith
    exact_mod_cast this
  have high_ : 2 * num ≤ 2 * (n * den) + den := by
    have : (2 : ℚ) * num ≤ 2 * (n * den) + den := by linarith
    exact_mod_cast this
  have odd_ : n % 2 = 1 → 2 * (n * den) < 2 * num + den ∧ 2 * num < 2 * (n * den) + den := by
    intro isOdd
    obtain ⟨above, below⟩ := odd isOdd
    have above_ : (2 : ℚ) * (n * den) < 2 * num + den := by linarith
    have below_ : (2 : ℚ) * num < 2 * (n * den) + den := by linarith
    exact ⟨by exact_mod_cast above_, by exact_mod_cast below_⟩
  have split : den * (num / den) + num % den = num := Nat.div_add_mod num den
  have small : num % den < den := Nat.mod_lt num pos
  -- The quotient is `n`, or one less and then the remainder is at least a half.
  have above : num / den ≤ n := by
    refine Nat.le_of_lt_succ ((Nat.div_lt_iff_lt_mul pos).mpr ?_)
    rw [Nat.succ_mul]
    omega
  have below : n ≤ num / den + 1 := by
    refine Nat.le_of_lt_succ (Nat.lt_of_mul_lt_mul_right (a := den) ?_)
    rw [Nat.succ_mul, Nat.add_mul, Nat.mul_comm (num / den)]
    omega
  obtain same | less : num / den = n ∨ num / den + 1 = n := by omega
  · rw [same, Nat.mul_comm] at split
    simp only [roundHalfEven, same]
    rw [if_pos (by omega)]
  · have whole : n * den = den * (num / den) + den := by
      rw [← less, Nat.add_mul, Nat.mul_comm (num / den), Nat.one_mul]
    simp only [roundHalfEven]
    rw [if_neg (by omega), less]

theorem scale_value (num : Nat) {den : Nat} (pos : 0 < den) (shift : Int) :
    0 < (scale num den shift).2 ∧
      ((scale num den shift).1 : ℚ) / (scale num den shift).2 = (num : ℚ) / den * 2 ^ shift := by
  unfold scale
  split
  next up =>
    obtain ⟨n, rfl⟩ := Int.eq_ofNat_of_zero_le up
    refine ⟨pos, ?_⟩
    simp [Nat.cast_mul]
    ring
  next down =>
    obtain ⟨n, rfl⟩ := Int.eq_negSucc_of_lt_zero (Int.not_le.mp down)
    refine ⟨Nat.mul_pos pos (Nat.pow_pos (by decide)), ?_⟩
    simp [Nat.cast_mul, zpow_negSucc, Int.neg_negSucc]
    field_simp

theorem log2_bounds {n : Nat} (pos : 0 < n) :
    (2 : ℚ) ^ (n.log2 : Int) ≤ n ∧ (n : ℚ) < 2 ^ ((n.log2 : Int) + 1) := by
  have low : 2 ^ n.log2 ≤ n := Nat.log2_self_le (Nat.ne_of_gt pos)
  have high : n < 2 ^ (n.log2 + 1) := Nat.lt_log2_self
  constructor
  · exact_mod_cast low
  · exact_mod_cast high

theorem floorLog2_spec {num den : Nat} (posNum : 0 < num) (posDen : 0 < den) :
    (2 : ℚ) ^ floorLog2 num den ≤ (num : ℚ) / den ∧
      (num : ℚ) / den < 2 ^ (floorLog2 num den + 1) := by
  have two : (2 : ℚ) ≠ 0 := by norm_num
  have den_ : (0 : ℚ) < den := by exact_mod_cast posDen
  obtain ⟨numLow, numHigh⟩ := log2_bounds posNum
  obtain ⟨denLow, denHigh⟩ := log2_bounds posDen
  have above : (2 : ℚ) ^ ((num.log2 : Int) - den.log2 - 1) < (num : ℚ) / den := by
    rw [lt_div_iff₀ den_]
    calc (2 : ℚ) ^ ((num.log2 : Int) - den.log2 - 1) * den
        < 2 ^ ((num.log2 : Int) - den.log2 - 1) * 2 ^ ((den.log2 : Int) + 1) := by gcongr
      _ = 2 ^ (num.log2 : Int) := by
        rw [← zpow_add₀ two]
        congr 1
        omega
      _ ≤ num := numLow
  have below : (num : ℚ) / den < 2 ^ ((num.log2 : Int) - den.log2 + 1) := by
    rw [div_lt_iff₀ den_]
    calc (num : ℚ) < 2 ^ ((num.log2 : Int) + 1) := numHigh
      _ = 2 ^ ((num.log2 : Int) - den.log2 + 1) * 2 ^ (den.log2 : Int) := by
        rw [← zpow_add₀ two]
        congr 1
        omega
      _ ≤ 2 ^ ((num.log2 : Int) - den.log2 + 1) * den := by gcongr
  -- Scaled by the guess, the ratio is at least one exactly if the guess is right.
  obtain ⟨pos, value⟩ := scale_value num posDen (-((num.log2 : Int) - den.log2))
  have scaled : (0 : ℚ) < (scale num den (-((num.log2 : Int) - den.log2))).2 := by
    exact_mod_cast pos
  have power : (0 : ℚ) < 2 ^ ((num.log2 : Int) - den.log2) := by positivity
  rw [zpow_neg, ← div_eq_mul_inv] at value
  unfold floorLog2
  simp only
  split
  next fits =>
    have one : (1 : ℚ) ≤ (num : ℚ) / den / 2 ^ ((num.log2 : Int) - den.log2) := by
      rw [← value, le_div_iff₀ scaled, one_mul]
      exact_mod_cast fits
    rw [le_div_iff₀ power, one_mul] at one
    exact ⟨one, below⟩
  next less =>
    have one : (num : ℚ) / den / 2 ^ ((num.log2 : Int) - den.log2) < 1 := by
      rw [← value, div_lt_iff₀ scaled, one_mul]
      exact_mod_cast Nat.not_le.mp less
    rw [div_lt_iff₀ power, one_mul] at one
    exact ⟨le_of_lt above, by rwa [sub_add_cancel]⟩

/-- The exponent of a ratio between two powers of two. -/
theorem floorLog2_eq {num den : Nat} {k : Int} (posNum : 0 < num) (posDen : 0 < den)
    (low : (2 : ℚ) ^ k ≤ (num : ℚ) / den) (high : (num : ℚ) / den < 2 ^ (k + 1)) :
    floorLog2 num den = k := by
  obtain ⟨low', high'⟩ := floorLog2_spec posNum posDen
  have one : (1 : ℚ) < 2 := by norm_num
  have above := (zpow_lt_zpow_iff_right₀ one).mp (lt_of_le_of_lt low high')
  have below := (zpow_lt_zpow_iff_right₀ one).mp (lt_of_le_of_lt low' high)
  omega

/-- How a ratio is rounded at the exponent that it gets. -/
theorem ofRatio_eq {num den n : Nat} {e : Int} (negative : Bool) (posNum : 0 < num)
    (exponent : max (floorLog2 num den - 52) leastExponent = e)
    (rounded : roundHalfEven (scale num den (-e)).1 (scale num den (-e)).2 = n) :
    ofRatio negative num den =
      if n = 2 * hidden then
        if greatestExponent < e + 1 then .infinite negative else .finite negative hidden (e + 1)
      else if greatestExponent < e then .infinite negative else .finite negative n e := by
  rw [ofRatio, if_neg (Nat.ne_of_gt posNum)]
  simp only [exponent, rounded]
  split <;> rfl

theorem two_zpow_add (k e : Int) : (2 : ℚ) ^ (k + e) = 2 ^ k * 2 ^ e :=
  zpow_add₀ (by norm_num) k e

theorem hidden_eq : (hidden : ℚ) = 2 ^ (52 : Int) := by norm_num [hidden]

section

variable {m num den : Nat} {e : Int} {x : ℚ}

/-- A ratio not below the powers of two that go with an exponent is rounded in its place. -/
theorem ofRatio_in_place (negative : Bool) (canonical : Canonical m e) (posNum : 0 < num)
    (pos : 0 < den) (value : (num : ℚ) / den = x * 2 ^ e) (near : Near m e x)
    (inPlace : (hidden : ℚ) ≤ x ∨ e = leastExponent) :
    ofRatio negative num den = .finite negative m e := by
  obtain ⟨mantissa, least, greatest, -⟩ := canonical
  obtain ⟨low, high, -, odd⟩ := near
  have unit : (0 : ℚ) < 2 ^ e := by positivity
  have small : x < 2 * hidden := by
    have : (m : ℚ) + 1 ≤ 2 * hidden := by exact_mod_cast mantissa
    linarith
  have below : floorLog2 num den < 53 + e := by
    refine (zpow_lt_zpow_iff_right₀ (a := (2 : ℚ)) (by norm_num)).mp ?_
    refine lt_of_le_of_lt (floorLog2_spec posNum pos).1 ?_
    rw [value, two_zpow_add]
    refine mul_lt_mul_of_pos_right (lt_of_lt_of_eq small ?_) unit
    norm_num [hidden]
  have exponent : max (floorLog2 num den - 52) leastExponent = e := by
    obtain above | rfl := inPlace
    · have least_ : 52 + e < floorLog2 num den + 1 := by
        refine (zpow_lt_zpow_iff_right₀ (a := (2 : ℚ)) (by norm_num)).mp ?_
        refine lt_of_le_of_lt ?_ (floorLog2_spec posNum pos).2
        rw [value, two_zpow_add, ← hidden_eq]
        exact mul_le_mul_of_nonneg_right above (le_of_lt unit)
      omega
    · omega
  have scaled := scale_value num pos (-e)
  rw [value, zpow_neg, mul_inv_cancel_right₀ (ne_of_gt unit)] at scaled
  have rounded := roundHalfEven_eq (n := m) scaled.1 (by rw [scaled.2]; exact low)
    (by rw [scaled.2]; exact high) (by rw [scaled.2]; exact odd)
  rw [ofRatio_eq negative posNum exponent rounded, if_neg (Nat.ne_of_lt mantissa),
    if_neg (Int.not_lt.mpr greatest)]

/-- A ratio just below a power of two is rounded to the power, which has a greater exponent. -/
theorem ofRatio_below_power (negative : Bool) (posNum : 0 < num) (pos : 0 < den)
    (value : (num : ℚ) / den = x * 2 ^ e) (least : leastExponent < e)
    (greatest : e ≤ greatestExponent) (close : (hidden : ℚ) - 1 / 4 ≤ x) (less : x < hidden) :
    ofRatio negative num den = .finite negative hidden e := by
  have unit : (0 : ℚ) < 2 ^ e := by positivity
  have floor : floorLog2 num den = 51 + e := by
    refine floorLog2_eq posNum pos ?_ ?_
    · rw [value, two_zpow_add]
      refine mul_le_mul_of_nonneg_right ?_ (le_of_lt unit)
      refine le_trans ?_ close
      norm_num [hidden]
    · rw [value, show 51 + e + 1 = 52 + e by omega, two_zpow_add, ← hidden_eq]
      exact mul_lt_mul_of_pos_right less unit
  have exponent : max (floorLog2 num den - 52) leastExponent = e - 1 := by omega
  have scaled := scale_value num pos (-(e - 1))
  have double : (2 : ℚ) ^ (-(e - 1)) = 2 * (2 ^ e)⁻¹ := by
    rw [neg_sub, sub_eq_add_neg, two_zpow_add, zpow_one, zpow_neg]
  have twice : x * 2 ^ e * (2 * (2 ^ e)⁻¹) = 2 * x := by
    field_simp
  rw [value, double, twice] at scaled
  have rounded := roundHalfEven_eq (n := 2 * hidden) scaled.1
    (by rw [scaled.2]; push_cast; linarith) (by rw [scaled.2]; push_cast; linarith)
    (fun isOdd => by omega)
  rw [ofRatio_eq negative posNum exponent rounded, if_pos rfl, sub_add_cancel,
    if_neg (Int.not_lt.mpr greatest)]

/-- A ratio near a finite number is rounded to it. -/
theorem ofRatio_of_near (negative : Bool) (canonical : Canonical m e) (some_ : 0 < m)
    (pos : 0 < den) (near : Near m e ((num : ℚ) / den / 2 ^ e)) :
    ofRatio negative num den = .finite negative m e := by
  have unit : (2 : ℚ) ^ e ≠ 0 := by positivity
  have one_ : (1 : ℚ) ≤ m := by exact_mod_cast some_
  generalize quotient : (num : ℚ) / den / 2 ^ e = x at near
  have value : (num : ℚ) / den = x * 2 ^ e := by rw [← quotient, div_mul_cancel₀ _ unit]
  have posNum : 0 < num := by
    refine Nat.pos_of_ne_zero fun zero => ?_
    have low := near.low
    rw [← quotient, zero, Nat.cast_zero, zero_div, zero_div] at low
    linarith
  by_cases inPlace : (hidden : ℚ) ≤ x ∨ e = leastExponent
  · exact ofRatio_in_place negative canonical posNum pos value near inPlace
  obtain ⟨mantissa, least, greatest, full⟩ := canonical
  obtain ⟨low, high, dense, -⟩ := near
  obtain ⟨less, notLeast⟩ := not_or.mp inPlace
  -- Only below a power of two does a number round to one with a greater exponent.
  obtain rfl : m = hidden := by
    have above := full.resolve_right notLeast
    have below : (m : ℚ) < hidden + 1 := by linarith
    have below_ : m < hidden + 1 := by exact_mod_cast below
    omega
  exact ofRatio_below_power negative posNum pos value (by omega) greatest (dense rfl (by omega))
    (not_le.mp less)

end

/-- Is it a number of the format? -/
def Proper : Binary64 → Prop
  | .finite _ m e => Canonical m e
  | _ => True

theorem zero_proper (negative : Bool) : (zero negative).Proper :=
  ⟨by decide, by decide, by decide, .inr rfl⟩

theorem roundHalfEven_bounds {num den a b : Nat} (pos : 0 < den) (low : (a : ℚ) ≤ (num : ℚ) / den)
    (high : (num : ℚ) / den < b) : a ≤ roundHalfEven num den ∧ roundHalfEven num den ≤ b := by
  have den_ : (0 : ℚ) < den := by exact_mod_cast pos
  rw [le_div_iff₀ den_] at low
  rw [div_lt_iff₀ den_] at high
  have low_ : a ≤ num / den := (Nat.le_div_iff_mul_le pos).mpr (by exact_mod_cast low)
  have high_ : num / den < b := (Nat.div_lt_iff_lt_mul pos).mpr (by exact_mod_cast high)
  unfold roundHalfEven
  simp only
  split <;> omega

theorem ofRatio_proper (negative : Bool) (num : Nat) {den : Nat} (pos : 0 < den) :
    (ofRatio negative num den).Proper := by
  obtain rfl | posNum := Nat.eq_zero_or_pos num
  · exact zero_proper negative
  obtain ⟨low, high⟩ := floorLog2_spec posNum pos
  generalize exponent : max (floorLog2 num den - 52) leastExponent = e
  have scaled := scale_value num pos (-e)
  have unit : (0 : ℚ) < 2 ^ (-e) := by positivity
  have below : (num : ℚ) / den * 2 ^ (-e) < (2 * hidden : Nat) := by
    calc (num : ℚ) / den * 2 ^ (-e) < 2 ^ (floorLog2 num den + 1) * 2 ^ (-e) :=
        mul_lt_mul_of_pos_right high unit
      _ = 2 ^ (floorLog2 num den + 1 + -e) := (zpow_add₀ (by norm_num) _ _).symm
      _ ≤ 2 ^ (53 : Int) := zpow_le_zpow_right₀ (by norm_num) (by omega)
      _ = (2 * hidden : Nat) := by norm_num [hidden]
  have above : floorLog2 num den - 52 = e → (hidden : ℚ) ≤ (num : ℚ) / den * 2 ^ (-e) := by
    intro full
    calc (hidden : ℚ) = 2 ^ (floorLog2 num den + -e) := by
          rw [show floorLog2 num den + -e = 52 by omega]
          norm_num [hidden]
      _ = 2 ^ floorLog2 num den * 2 ^ (-e) := zpow_add₀ (by norm_num) _ _
      _ ≤ (num : ℚ) / den * 2 ^ (-e) := mul_le_mul_of_nonneg_right low (le_of_lt unit)
  rw [← scaled.2] at below above
  have upper := (roundHalfEven_bounds (a := 0) scaled.1 (by positivity) below).2
  have least : leastExponent ≤ e := by omega
  rw [ofRatio_eq negative posNum exponent rfl]
  split
  · split
    · trivial
    · exact ⟨by decide, by omega, by omega, .inl (Nat.le_refl _)⟩
  · split
    · trivial
    · refine ⟨by omega, least, by omega, ?_⟩
      obtain full | same : floorLog2 num den - 52 = e ∨ e = leastExponent := by omega
      · exact .inl (roundHalfEven_bounds scaled.1 (above full) below).1
      · exact .inr same

/-- A decimal is rounded to a number of the format. -/
theorem ofDecimal_proper (negative : Bool) (digits : Nat) (power : Int) :
    (ofDecimal negative digits power).Proper := by
  unfold ofDecimal
  simp only
  split
  · exact zero_proper negative
  split
  · trivial
  split
  · exact zero_proper negative
  split
  · exact ofRatio_proper negative _ Nat.one_pos
  · exact ofRatio_proper negative _ (Nat.pow_pos (by decide))

/-! ## Decimals -/

theorem decimalLength_bounds {n : Nat} (some_ : n ≠ 0) :
    (10 : ℚ) ^ ((decimalLength n : Int) - 1) ≤ n ∧ (n : ℚ) < 10 ^ (decimalLength n : Int) := by
  have pos : 0 < decimalLength n := Nat.length_toDigits_pos
  have high : n < 10 ^ decimalLength n :=
    (Nat.length_toDigits_le_iff (by decide) pos).mp (Nat.le_refl _)
  have low : 10 ^ (decimalLength n - 1) ≤ n := by
    obtain one | more : decimalLength n - 1 = 0 ∨ 0 < decimalLength n - 1 := by omega
    · rw [one]
      omega
    · refine Nat.not_lt.mp fun less => ?_
      have shorter := (Nat.length_toDigits_le_iff (b := 10) (by decide) more).mpr less
      have same : decimalLength n = (Nat.toDigits 10 n).length := rfl
      omega
  have exponent : (decimalLength n : Int) - 1 = ((decimalLength n - 1 : Nat) : Int) := by omega
  rw [exponent, zpow_natCast, zpow_natCast]
  exact ⟨by exact_mod_cast low, by exact_mod_cast high⟩

theorem near_pos {m : Nat} {e : Int} {x : ℚ} (some_ : 0 < m) (near : Near m e x) : 1 / 2 ≤ x := by
  have one : (1 : ℚ) ≤ m := by exact_mod_cast some_
  linarith [near.low]

/-- Decimals so small are nearer to zero than to any other number. -/
theorem tiny_le : (10 : ℚ) ^ (-341 : Int) ≤ 1 / 2 * 2 ^ leastExponent := by
  have fits : 2 * 2 ^ 1074 ≤ 10 ^ 341 := by decide +kernel
  have fits_ : (2 : ℚ) * 2 ^ (1074 : Int) ≤ 10 ^ (341 : Int) := by exact_mod_cast fits
  rw [leastExponent, zpow_neg, zpow_neg, one_div, ← mul_inv]
  exact inv_anti₀ (by positivity) fits_

/-- A decimal near a finite number is within the range of the format. -/
theorem near_magnitude {m digits : Nat} {e power : Int} (canonical : Canonical m e) (some_ : 0 < m)
    (near : Near m e ((digits : ℚ) * 10 ^ power / 2 ^ e)) (digits_ : digits ≠ 0) :
    (decimalLength digits : Int) + power ≤ 320 ∧ -340 ≤ (decimalLength digits : Int) + power := by
  have ten : (1 : ℚ) < 10 := by norm_num
  have two : (1 : ℚ) ≤ 2 := by norm_num
  have unit : (0 : ℚ) < 2 ^ e := by positivity
  have scale : (0 : ℚ) < 10 ^ power := by positivity
  have half := near_pos some_ near
  obtain ⟨lower, upper⟩ := decimalLength_bounds digits_
  constructor
  · have bounded : (10 : ℚ) ^ ((decimalLength digits : Int) - 1 + power) < 10 ^ (320 : Int) := by
      have high : (m : ℚ) + 1 / 2 < 2 ^ (53 : Int) := by
        have mantissa : (m : ℚ) + 1 ≤ 2 * hidden := by exact_mod_cast canonical.mantissa
        norm_num [hidden] at mantissa ⊢
        linarith
      calc (10 : ℚ) ^ ((decimalLength digits : Int) - 1 + power)
          = 10 ^ ((decimalLength digits : Int) - 1) * 10 ^ power := zpow_add₀ (by norm_num) _ _
        _ ≤ digits * 10 ^ power := mul_le_mul_of_nonneg_right lower (le_of_lt scale)
        _ ≤ (m + 1 / 2) * 2 ^ e := (div_le_iff₀ unit).mp near.high
        _ < 2 ^ (53 : Int) * 2 ^ e := mul_lt_mul_of_pos_right high unit
        _ ≤ 2 ^ (53 : Int) * 2 ^ (971 : Int) :=
          mul_le_mul_of_nonneg_left (zpow_le_zpow_right₀ two canonical.greatest) (by positivity)
        _ ≤ 10 ^ (320 : Int) := by
          have fits : 2 ^ 53 * 2 ^ 971 ≤ 10 ^ 320 := by decide +kernel
          exact_mod_cast fits
    have := (zpow_lt_zpow_iff_right₀ ten).mp bounded
    omega
  · have bounded : (10 : ℚ) ^ (-341 : Int) < 10 ^ ((decimalLength digits : Int) + power) := by
      calc (10 : ℚ) ^ (-341 : Int) ≤ 1 / 2 * 2 ^ leastExponent := tiny_le
        _ ≤ 1 / 2 * 2 ^ e :=
          mul_le_mul_of_nonneg_left (zpow_le_zpow_right₀ two canonical.least) (by positivity)
        _ ≤ digits * 10 ^ power := (le_div_iff₀ unit).mp half
        _ < 10 ^ (decimalLength digits : Int) * 10 ^ power := mul_lt_mul_of_pos_right upper scale
        _ = 10 ^ ((decimalLength digits : Int) + power) := (zpow_add₀ (by norm_num) _ _).symm
    have := (zpow_lt_zpow_iff_right₀ ten).mp bounded
    omega

/-- A decimal near a finite number is rounded to it. -/
theorem ofDecimal_of_near {m digits : Nat} {e power : Int} (negative : Bool)
    (canonical : Canonical m e) (some_ : 0 < m)
    (near : Near m e ((digits : ℚ) * 10 ^ power / 2 ^ e)) :
    ofDecimal negative digits power = .finite negative m e := by
  have digits_ : digits ≠ 0 := by
    rintro rfl
    have half := near_pos some_ near
    rw [Nat.cast_zero, zero_mul, zero_div] at half
    norm_num at half
  obtain ⟨notHuge, notTiny⟩ := near_magnitude canonical some_ near digits_
  rw [ofDecimal, if_neg digits_]
  simp only
  rw [if_neg (Int.not_lt.mpr notHuge), if_neg (Int.not_lt.mpr notTiny)]
  split
  next up =>
    obtain ⟨n, rfl⟩ := Int.eq_ofNat_of_zero_le up
    refine ofRatio_of_near negative canonical some_ Nat.one_pos ?_
    simpa using near
  next down =>
    obtain ⟨n, rfl⟩ := Int.eq_negSucc_of_lt_zero (Int.not_le.mp down)
    refine ofRatio_of_near negative canonical some_ (Nat.pow_pos (by decide)) ?_
    simpa [zpow_negSucc, Int.neg_negSucc, div_eq_mul_inv] using near

end Binary64

namespace Shortest

open Binary64

/-! ## Shortest digits -/

/-- The number that a ratio stands for. -/
def Ratio.value (r : Ratio) : ℚ :=
  r.num / r.den

theorem Ratio.le_iff {a b : Ratio} (ha : 0 < a.den) (hb : 0 < b.den) :
    a.le b = true ↔ a.value ≤ b.value := by
  have ha' : (0 : ℚ) < a.den := by exact_mod_cast ha
  have hb' : (0 : ℚ) < b.den := by exact_mod_cast hb
  rw [Ratio.le, decide_eq_true_eq, Ratio.value, Ratio.value, div_le_div_iff₀ ha' hb']
  exact_mod_cast Iff.rfl

theorem Ratio.lt_iff {a b : Ratio} (ha : 0 < a.den) (hb : 0 < b.den) :
    a.lt b = true ↔ a.value < b.value := by
  have ha' : (0 : ℚ) < a.den := by exact_mod_cast ha
  have hb' : (0 : ℚ) < b.den := by exact_mod_cast hb
  rw [Ratio.lt, decide_eq_true_eq, Ratio.value, Ratio.value, div_lt_div_iff₀ ha' hb']
  exact_mod_cast Iff.rfl

theorem Ratio.decimal_value (n : Nat) (power : Int) :
    0 < (Ratio.decimal n power).den ∧ (Ratio.decimal n power).value = n * 10 ^ power := by
  unfold Ratio.decimal Ratio.value
  split
  next up =>
    obtain ⟨k, rfl⟩ := Int.eq_ofNat_of_zero_le up
    exact ⟨Nat.one_pos, by simp⟩
  next down =>
    obtain ⟨k, rfl⟩ := Int.eq_negSucc_of_lt_zero (Int.not_le.mp down)
    exact ⟨Nat.pow_pos (by decide), by simp [zpow_negSucc, Int.neg_negSucc, div_eq_mul_inv]⟩

theorem Ratio.binary_value (n : Nat) (power : Int) :
    0 < (Ratio.binary n power).den ∧ (Ratio.binary n power).value = n * 2 ^ power := by
  unfold Ratio.binary Ratio.value
  split
  next up =>
    obtain ⟨k, rfl⟩ := Int.eq_ofNat_of_zero_le up
    exact ⟨Nat.one_pos, by simp⟩
  next down =>
    obtain ⟨k, rfl⟩ := Int.eq_negSucc_of_lt_zero (Int.not_le.mp down)
    exact ⟨Nat.pow_pos (by decide), by simp [zpow_negSucc, Int.neg_negSucc, div_eq_mul_inv]⟩

/-- The bounds of the interval, in quarters of the unit of the last place. -/
theorem quarters {n : Nat} {e : Int} {r : Ratio} (pos : 0 < r.den) :
    ((Ratio.binary n (e - 2)).le r = true ↔ (n : ℚ) / 4 ≤ r.value / 2 ^ e) ∧
      ((Ratio.binary n (e - 2)).lt r = true ↔ (n : ℚ) / 4 < r.value / 2 ^ e) ∧
      (r.le (Ratio.binary n (e - 2)) = true ↔ r.value / 2 ^ e ≤ (n : ℚ) / 4) ∧
      (r.lt (Ratio.binary n (e - 2)) = true ↔ r.value / 2 ^ e < (n : ℚ) / 4) := by
  obtain ⟨den, value⟩ := Ratio.binary_value n (e - 2)
  have unit : (0 : ℚ) < 2 ^ e := by positivity
  have quarter : (Ratio.binary n (e - 2)).value = n / 4 * 2 ^ e := by
    rw [value, zpow_sub₀ (by norm_num)]
    norm_num
    ring
  rw [Ratio.le_iff den pos, Ratio.lt_iff den pos, Ratio.le_iff pos den, Ratio.lt_iff pos den,
    quarter, le_div_iff₀ unit, lt_div_iff₀ unit, div_le_iff₀ unit, div_lt_iff₀ unit]
  exact ⟨Iff.rfl, Iff.rfl, Iff.rfl, Iff.rfl⟩

theorem roundsTo_iff {m : Nat} {e : Int} {r : Ratio} (some_ : 0 < m) (pos : 0 < r.den) :
    roundsTo m e r = true ↔ Near m e (r.value / 2 ^ e) := by
  have upper : ((4 * m + 2 : Nat) : ℚ) / 4 = m + 1 / 2 := by
    push_cast
    ring
  have wide : ((4 * m - 2 : Nat) : ℚ) / 4 = m - 1 / 2 := by
    rw [Nat.cast_sub (by omega)]
    push_cast
    ring
  have narrow : ((4 * m - 1 : Nat) : ℚ) / 4 = m - 1 / 4 := by
    rw [Nat.cast_sub (by omega)]
    push_cast
    ring
  unfold roundsTo
  simp only
  by_cases power : m = Binary64.hidden ∧ leastExponent < e
  · have even : m % 2 = 0 := by
      rw [power.1]
      decide
    rw [if_pos power, if_pos even, Bool.and_eq_true, (quarters pos).1, (quarters pos).2.2.1, upper,
      narrow]
    constructor
    · rintro ⟨low, high⟩
      exact ⟨by linarith, high, fun _ _ => low, fun odd => by omega⟩
    · intro near
      exact ⟨near.dense power.1 power.2, near.high⟩
  · rw [if_neg power]
    split
    next even =>
      rw [Bool.and_eq_true, (quarters pos).1, (quarters pos).2.2.1, upper, wide]
      constructor
      · rintro ⟨low, high⟩
        exact ⟨low, high, fun same less => absurd ⟨same, less⟩ power, fun odd => by omega⟩
      · intro near
        exact ⟨near.low, near.high⟩
    next odd =>
      rw [Bool.and_eq_true, (quarters pos).2.1, (quarters pos).2.2.2, upper, wide]
      constructor
      · rintro ⟨low, high⟩
        exact ⟨le_of_lt low, le_of_lt high, fun same less => absurd ⟨same, less⟩ power,
          fun _ => ⟨low, high⟩⟩
      · intro near
        exact near.odd (by omega)

theorem fits_iff {m : Nat} {e : Int} (some_ : 0 < m) (d : Nat) (power : Int) :
    roundsTo m e (.decimal d power) = true ↔ Near m e ((d : ℚ) * 10 ^ power / 2 ^ e) := by
  obtain ⟨den, value⟩ := Ratio.decimal_value d power
  rw [← value]
  exact roundsTo_iff some_ den

/-- A hit on a grid is near the number. -/
theorem onGrid?_near {m d : Nat} {e power : Int} (some_ : 0 < m)
    (hit : onGrid? m e power = some d) : Near m e ((d : ℚ) * 10 ^ power / 2 ^ e) := by
  rw [← fits_iff some_]
  unfold onGrid? at hit
  simp only at hit
  split at hit
  next lower upper =>
    cases hit
    unfold nearer
    simp only
    split
    · exact lower
    split
    · exact upper
    split
    · exact lower
    · exact upper
  next lower upper =>
    cases hit
    exact lower
  next lower upper =>
    cases hit
    exact upper
  next => cases hit

theorem gridFloor_eq (v : Ratio) (power : Int) :
    gridFloor v power = ⌊v.value / 10 ^ power⌋₊ := by
  have unit := (Ratio.decimal_value 1 power).2
  rw [Nat.cast_one, one_mul] at unit
  rw [gridFloor, ← Nat.floor_div_eq_div (K := ℚ), ← unit, Ratio.value, Ratio.value,
    div_div_div_eq, Nat.cast_mul, Nat.cast_mul]

theorem gridFloor_bounds (m : Nat) (e power : Int) :
    (gridFloor (.binary m e) power : ℚ) * 10 ^ power ≤ m * 2 ^ e ∧
      (m : ℚ) * 2 ^ e < ((gridFloor (.binary m e) power + 1 : Nat) : ℚ) * 10 ^ power := by
  have scale : (0 : ℚ) < 10 ^ power := by positivity
  rw [gridFloor_eq, (Ratio.binary_value m e).2]
  constructor
  · rw [← le_div_iff₀ scale]
    exact Nat.floor_le (by positivity)
  · rw [← div_lt_iff₀ scale]
    exact_mod_cast Nat.lt_floor_add_one _

/-- A grid is hit if one of the two points next to the number rounds to it. -/
theorem onGrid?_of_fits {m : Nat} {e power : Int}
    (hit : roundsTo m e (.decimal (gridFloor (.binary m e) power) power) = true ∨
      roundsTo m e (.decimal (gridFloor (.binary m e) power + 1) power) = true) :
    ∃ d, onGrid? m e power = some d := by
  unfold onGrid?
  simp only
  split
  · exact ⟨_, rfl⟩
  · exact ⟨_, rfl⟩
  · exact ⟨_, rfl⟩
  next lower upper =>
    rw [lower, upper] at hit
    simp at hit

/-- Seventeen digits are enough: a grid that is `10 ^ 16` times finer than the number hits. -/
theorem onGrid?_of_fine {m : Nat} {e power : Int} (canonical : Canonical m e) (some_ : 0 < m)
    (fine : (10 : ℚ) ^ (16 + power) ≤ m * 2 ^ e) : ∃ d, onGrid? m e power = some d := by
  have unit : (0 : ℚ) < 2 ^ e := by positivity
  obtain ⟨below, above⟩ := gridFloor_bounds m e power
  -- The gap between two points, and the place of the number in it, in units of the last place.
  generalize gap_ : (10 : ℚ) ^ power / 2 ^ e = gap
  have scale : (10 : ℚ) ^ power = gap * 2 ^ e := by rw [← gap_, div_mul_cancel₀ _ (ne_of_gt unit)]
  have below_ : (gridFloor (.binary m e) power : ℚ) * gap ≤ m := by
    rw [scale, ← mul_assoc] at below
    exact le_of_mul_le_mul_right below unit
  have above_ : (m : ℚ) < (gridFloor (.binary m e) power : ℚ) * gap + gap := by
    rw [scale, ← mul_assoc] at above
    have := lt_of_mul_lt_mul_right above (le_of_lt unit)
    push_cast at this
    linarith
  have narrow : 10 ^ 16 * gap ≤ m := by
    rw [zpow_add₀ (by norm_num), scale, ← mul_assoc] at fine
    exact_mod_cast le_of_mul_le_mul_right fine unit
  have point (d : Nat) : roundsTo m e (.decimal d power) = true ↔ Near m e (d * gap) := by
    rw [fits_iff some_, ← gap_, mul_div_assoc]
  have mantissa : (m : ℚ) + 1 ≤ 2 * Binary64.hidden := by exact_mod_cast canonical.mantissa
  have width : (Binary64.hidden : ℚ) = 4503599627370496 := by norm_num [Binary64.hidden]
  -- One of the two is nearer than half the interval on its side.
  have hit : Near m e (gridFloor (.binary m e) power * gap) ∨
      Near m e ((gridFloor (.binary m e) power + 1 : Nat) * gap) := by
    generalize gridFloor (.binary m e) power = d at below_ above_
    by_cases power_ : m = Binary64.hidden
    · have half : (m : ℚ) = 4503599627370496 := by rw [power_, width]
      have even : m % 2 = 0 := by
        rw [power_]
        decide
      by_cases close : (m : ℚ) - 1 / 4 ≤ d * gap
      · exact .inl ⟨by linarith, by linarith, fun _ _ => close, fun odd => by omega⟩
      · refine .inr ?_
        push_cast
        exact ⟨by linarith, by linarith, fun _ _ => by linarith, fun odd => by omega⟩
    · by_cases close : (m : ℚ) - 1 / 2 < d * gap
      · exact .inl ⟨by linarith, by linarith, fun same => absurd same power_,
          fun _ => ⟨close, by linarith⟩⟩
      · refine .inr ?_
        push_cast
        exact ⟨by linarith, by linarith, fun same => absurd same power_,
          fun _ => ⟨by linarith, by linarith⟩⟩
  rw [← point, ← point] at hit
  exact onGrid?_of_fits hit

/-- The logarithm of two is between `1233 / 4096` and `1234 / 4096`. -/
theorem two_zpow_bounds (k : Int) :
    (10 : ℚ) ^ min (1233 * k) (1234 * k) ≤ 2 ^ (4096 * k) ∧
      (2 : ℚ) ^ (4096 * k) ≤ 10 ^ max (1233 * k) (1234 * k) := by
  have under : 10 ^ 1233 ≤ 2 ^ 4096 := by decide +kernel
  have beyond : 2 ^ 4096 ≤ 10 ^ 1234 := by decide +kernel
  have under_ : (10 : ℚ) ^ (1233 : Int) ≤ 2 ^ (4096 : Int) := by exact_mod_cast under
  have beyond_ : (2 : ℚ) ^ (4096 : Int) ≤ 10 ^ (1234 : Int) := by exact_mod_cast beyond
  obtain up | down := Int.le_total 0 k
  · rw [Int.min_eq_left (by omega), Int.max_eq_right (by omega), zpow_mul, zpow_mul, zpow_mul]
    exact ⟨zpow_le_zpow_left₀ up (by positivity) under_,
      zpow_le_zpow_left₀ up (by positivity) beyond_⟩
  · -- A negative power turns the inequalities around.
    have flip {a b : ℚ} (pos : 0 < a) (less : a ≤ b) : b ^ k ≤ a ^ k := by
      have powers := zpow_le_zpow_left₀ (n := -k) (by omega) (le_of_lt pos) less
      rwa [zpow_neg, zpow_neg, inv_le_inv₀ (by positivity) (zpow_pos (lt_of_lt_of_le pos less) k)]
        at powers
    rw [Int.min_eq_right (by omega), Int.max_eq_left (by omega), zpow_mul, zpow_mul, zpow_mul]
    exact ⟨flip (by positivity) beyond_, flip (by positivity) under_⟩

/-- The guess at the decimal point is at most one too large. -/
theorem guess_le {k : Int} (bounded : -4096 ≤ k) :
    (10 : ℚ) ^ ((k * 1233).fdiv 4096 - 1) ≤ 2 ^ k := by
  have floor : (k * 1233).fdiv 4096 * 4096 ≤ k * 1233 := by
    rw [Int.fdiv_eq_ediv_of_nonneg _ (by decide)]
    exact Int.ediv_mul_le _ (by decide)
  -- Both sides to the power of 4096.
  refine (pow_le_pow_iff_left₀ (by positivity) (by positivity) (n := 4096) (by decide)).mp ?_
  rw [← zpow_natCast, ← zpow_natCast, ← zpow_mul, ← zpow_mul, Nat.cast_ofNat, mul_comm k 4096]
  refine le_trans (zpow_le_zpow_right₀ (by norm_num) ?_) (two_zpow_bounds k).1
  omega

/-- The guess at the decimal point is at most one too small. -/
theorem le_guess {k : Int} (bounded : k ≤ 2048) :
    (2 : ℚ) ^ (k + 1) ≤ 10 ^ ((k * 1233).fdiv 4096 + 2) := by
  have floor : k * 1233 < ((k * 1233).fdiv 4096 + 1) * 4096 := by
    rw [Int.fdiv_eq_ediv_of_nonneg _ (by decide)]
    exact Int.lt_ediv_add_one_mul_self _ (by decide)
  refine (pow_le_pow_iff_left₀ (by positivity) (by positivity) (n := 4096) (by decide)).mp ?_
  rw [← zpow_natCast, ← zpow_natCast, ← zpow_mul, ← zpow_mul, Nat.cast_ofNat, mul_comm (k + 1) 4096]
  refine le_trans (two_zpow_bounds (k + 1)).2 (zpow_le_zpow_right₀ (by norm_num) ?_)
  omega

/-- The decimal point is not put too far to the right. -/
theorem decimalPoint_le {m : Nat} {e : Int} (canonical : Canonical m e) (some_ : 0 < m) :
    (10 : ℚ) ^ (decimalPoint m e - 1) ≤ m * 2 ^ e := by
  obtain ⟨den, value⟩ := Ratio.binary_value m e
  have guess : (10 : ℚ) ^ ((((m.log2 : Int) + e) * 1233).fdiv 4096 - 1) ≤ m * 2 ^ e := by
    have bounded : -4096 ≤ (m.log2 : Int) + e := by
      have least := canonical.least
      have : leastExponent = -1074 := rfl
      omega
    refine le_trans (guess_le bounded) ?_
    rw [zpow_add₀ (by norm_num)]
    exact mul_le_mul_of_nonneg_right (log2_bounds some_).1 (by positivity)
  unfold decimalPoint
  simp only
  split
  next less => rwa [add_sub_cancel_right]
  split
  next notLess more =>
    have unit := Ratio.decimal_value 1 ((((m.log2 : Int) + e) * 1233).fdiv 4096 + 1)
    rw [Ratio.le_iff unit.1 den, unit.2, value, Nat.cast_one, one_mul] at more
    rwa [add_sub_cancel_right]
  next notLess notMore =>
    have unit := Ratio.decimal_value 1 ((((m.log2 : Int) + e) * 1233).fdiv 4096 + 1 - 1)
    rw [Bool.not_eq_true, ← Bool.not_eq_true, Ratio.lt_iff den unit.1, unit.2, value, Nat.cast_one,
      one_mul, not_lt] at notLess
    exact notLess

/-- The decimal point is not put too far to the left. -/
theorem lt_decimalPoint {m : Nat} {e : Int} (canonical : Canonical m e) (some_ : 0 < m) :
    (m : ℚ) * 2 ^ e < 10 ^ decimalPoint m e := by
  obtain ⟨den, value⟩ := Ratio.binary_value m e
  have guess : (m : ℚ) * 2 ^ e < 10 ^ ((((m.log2 : Int) + e) * 1233).fdiv 4096 + 2) := by
    have bounded : (m.log2 : Int) + e ≤ 2048 := by
      have width : m.log2 < 53 := (Nat.log2_lt (by omega)).mpr canonical.mantissa
      have greatest := canonical.greatest
      have : greatestExponent = 971 := rfl
      omega
    refine lt_of_lt_of_le ?_ (le_guess bounded)
    rw [show (m.log2 : Int) + e + 1 = (m.log2 : Int) + 1 + e by omega, zpow_add₀ (by norm_num)]
    exact mul_lt_mul_of_pos_right (log2_bounds some_).2 (by positivity)
  unfold decimalPoint
  simp only
  split
  next less =>
    have unit := Ratio.decimal_value 1 ((((m.log2 : Int) + e) * 1233).fdiv 4096 + 1 - 1)
    rwa [Ratio.lt_iff den unit.1, unit.2, value, Nat.cast_one, one_mul] at less
  split
  next notLess more => rwa [add_assoc]
  next notLess notMore =>
    have unit := Ratio.decimal_value 1 ((((m.log2 : Int) + e) * 1233).fdiv 4096 + 1)
    rw [Bool.not_eq_true, ← Bool.not_eq_true, Ratio.le_iff unit.1 den, unit.2, value, Nat.cast_one,
      one_mul, not_le] at notMore
    exact notMore

/-- The shortest decimal is on the coarsest grid that is hit. -/
theorem decimal_coarsest {m d : Nat} {e power : Int} (low : decimalPoint m e - 17 ≤ power)
    (high : power ≤ decimalPoint m e - 1) (hit : onGrid? m e power = some d) :
    power ≤ (decimal m e).2 ∧ onGrid? m e (decimal m e).2 = some (decimal m e).1 := by
  have among : power ∈ (List.range 17).map fun i => decimalPoint m e - ((i + 1 : Nat) : Int) :=
    List.mem_map.mpr ⟨(decimalPoint m e - 1 - power).toNat, List.mem_range.mpr (by omega), by omega⟩
  have falling : ((List.range 17).map fun i => decimalPoint m e - ((i + 1 : Nat) : Int)).Pairwise
      (· > ·) :=
    List.Pairwise.map _ (fun i j (less : i < j) => by push_cast; omega) List.pairwise_lt_range
  unfold decimal
  simp only
  generalize (List.range 17).map _ = powers at among falling
  generalize search : List.findSome? _ powers = found
  cases found with
  | none =>
      have missed := List.findSome?_eq_none_iff.mp search power among
      rw [hit] at missed
      cases missed
  | some found =>
      obtain ⟨before, first, after, rfl, gives, none_⟩ := List.findSome?_eq_some_iff.mp search
      obtain ⟨d', point, rfl⟩ := Option.map_eq_some_iff.mp gives
      refine ⟨?_, point⟩
      obtain early | late := List.mem_append.mp among
      · have missed := none_ power early
        rw [hit] at missed
        cases missed
      obtain rfl | later := List.mem_cons.mp late
      · exact Int.le_refl _
      · exact Int.le_of_lt ((List.pairwise_cons.mp (List.pairwise_append.mp falling).2.1).1 _ later)

/-- The shortest decimal of a positive number is near it. -/
theorem decimal_near {m : Nat} {e : Int} (canonical : Canonical m e) (some_ : 0 < m) :
    Near m e (((decimal m e).1 : ℚ) * 10 ^ (decimal m e).2 / 2 ^ e) := by
  have fine : (10 : ℚ) ^ (16 + (decimalPoint m e - 17)) ≤ m * 2 ^ e := by
    rw [show 16 + (decimalPoint m e - 17) = decimalPoint m e - 1 by omega]
    exact decimalPoint_le canonical some_
  obtain ⟨last, hit⟩ := onGrid?_of_fine canonical some_ fine
  exact onGrid?_near some_ (decimal_coarsest (Int.le_refl _) (by omega) hit).2

end Shortest

end ApprovedOps
