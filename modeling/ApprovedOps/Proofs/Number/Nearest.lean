import ApprovedOps.Proofs.Number.Rounding

/-! # Decimals that are kept

A decimal is read as the floating-point number nearest to it, and written again as the shortest
decimal of that number. What is written for what was read is near the same number, but not always the
decimal itself. It is for decimals of at most fifteen digits that are neither huge nor tiny: their
distance from one another is greater than that of the numbers.
-/

namespace ApprovedOps

namespace Binary64

/-! ## The nearest number -/

theorem roundHalfEven_near (num : Nat) {den : Nat} (pos : 0 < den) :
    (roundHalfEven num den : ℚ) - 1 / 2 ≤ (num : ℚ) / den ∧
      (num : ℚ) / den ≤ roundHalfEven num den + 1 / 2 ∧
      (roundHalfEven num den % 2 = 1 → (roundHalfEven num den : ℚ) - 1 / 2 < (num : ℚ) / den ∧
        (num : ℚ) / den < roundHalfEven num den + 1 / 2) := by
  have den_ : (0 : ℚ) < den := by exact_mod_cast pos
  have split : den * (num / den) + num % den = num := Nat.div_add_mod num den
  have small : num % den < den := Nat.mod_lt num pos
  have next : den * (num / den + 1) = den * (num / den) + den := by rw [Nat.mul_add, Nat.mul_one]
  have bounds : 2 * (den * roundHalfEven num den) ≤ 2 * num + den ∧
      2 * num ≤ 2 * (den * roundHalfEven num den) + den ∧
      (roundHalfEven num den % 2 = 1 → 2 * (den * roundHalfEven num den) < 2 * num + den ∧
        2 * num < 2 * (den * roundHalfEven num den) + den) := by
    unfold roundHalfEven
    simp only
    split
    · refine ⟨by omega, by omega, fun odd => ⟨by omega, by omega⟩⟩
    · rw [next]
      refine ⟨by omega, by omega, fun odd => ⟨by omega, by omega⟩⟩
  generalize roundHalfEven num den = n at bounds
  obtain ⟨low, high, odd⟩ := bounds
  have low_ : (2 : ℚ) * (den * n) ≤ 2 * num + den := by exact_mod_cast low
  have high_ : (2 : ℚ) * num ≤ 2 * (den * n) + den := by exact_mod_cast high
  refine ⟨?_, ?_, fun isOdd => ?_⟩
  · rw [le_div_iff₀ den_]
    linarith
  · rw [div_le_iff₀ den_]
    linarith
  · obtain ⟨above, below⟩ := odd isOdd
    have above_ : (2 : ℚ) * (den * n) < 2 * num + den := by exact_mod_cast above
    have below_ : (2 : ℚ) * num < 2 * (den * n) + den := by exact_mod_cast below
    rw [lt_div_iff₀ den_, div_lt_iff₀ den_]
    constructor
    · linarith
    · linarith

theorem near_zero {x : ℚ} (low : 0 ≤ x) (high : x ≤ 1 / 2) : Near 0 leastExponent x :=
  ⟨by push_cast; linarith, by push_cast; linarith, fun same => absurd same (by decide),
    fun odd => absurd odd (by decide)⟩

/-- A ratio is rounded to a finite number that it is near. -/
theorem near_of_ofRatio {negative negative' : Bool} {num den m : Nat} {e : Int} (pos : 0 < den)
    (rounded : ofRatio negative num den = .finite negative' m e) :
    negative' = negative ∧ Near m e ((num : ℚ) / den / 2 ^ e) := by
  obtain rfl | posNum := Nat.eq_zero_or_pos num
  · cases rounded
    exact ⟨rfl, near_zero (by simp) (by simp)⟩
  generalize exponent : max (floorLog2 num den - 52) leastExponent = k
  generalize place : roundHalfEven (scale num den (-k)).1 (scale num den (-k)).2 = n
  obtain ⟨scaled, value⟩ := scale_value num pos (-k)
  obtain ⟨low, high, odd⟩ := roundHalfEven_near (scale num den (-k)).1 scaled
  rw [zpow_neg, ← div_eq_mul_inv] at value
  rw [place, value] at low high odd
  rw [ofRatio_eq negative posNum exponent place] at rounded
  split at rounded
  next double =>
    -- Rounded up to the next power of two, the ratio is within a quarter of the greater unit.
    split at rounded
    · cases rounded
    cases rounded
    have half : (num : ℚ) / den / 2 ^ (k + 1) = (num : ℚ) / den / 2 ^ k / 2 := by
      rw [two_zpow_add, zpow_one, div_div ((num : ℚ) / den)]
    rw [double] at low high
    push_cast at low high
    rw [half]
    exact ⟨rfl, by linarith, by linarith, fun _ _ => by linarith, fun isOdd => absurd isOdd (by decide)⟩
  next single =>
    split at rounded
    · cases rounded
    cases rounded
    refine ⟨rfl, low, high, fun power least => ?_, odd⟩
    have full : floorLog2 num den = 52 + e := by omega
    have above : (hidden : ℚ) ≤ (num : ℚ) / den / 2 ^ e := by
      rw [le_div_iff₀ (by positivity), hidden_eq, ← two_zpow_add, ← full]
      exact (floorLog2_spec posNum pos).1
    rw [power]
    linarith

/-! ## Decimals -/

section

variable {negative negative' : Bool} {m digits : Nat} {e power : Int}

theorem near_of_ofDecimal (rounded : ofDecimal negative digits power = .finite negative' m e) :
    negative' = negative ∧ Near m e ((digits : ℚ) * 10 ^ power / 2 ^ e) := by
  have scale : (0 : ℚ) < 10 ^ power := by positivity
  unfold ofDecimal at rounded
  simp only at rounded
  split at rounded
  next none_ =>
    cases rounded
    exact ⟨rfl, near_zero (by positivity) (by rw [none_]; norm_num)⟩
  next some_ =>
    split at rounded
    · cases rounded
    split at rounded
    next tiny =>
      cases rounded
      refine ⟨rfl, near_zero (by positivity) ?_⟩
      rw [div_le_iff₀ (by positivity)]
      calc (digits : ℚ) * 10 ^ power ≤ 10 ^ (decimalLength digits : Int) * 10 ^ power :=
            mul_le_mul_of_nonneg_right (le_of_lt (decimalLength_bounds some_).2) (le_of_lt scale)
        _ = 10 ^ ((decimalLength digits : Int) + power) := (zpow_add₀ (by norm_num) _ _).symm
        _ ≤ 10 ^ (-341 : Int) := zpow_le_zpow_right₀ (by norm_num) (by omega)
        _ ≤ 1 / 2 * 2 ^ leastExponent := tiny_le
    split at rounded
    next up =>
      obtain ⟨n, rfl⟩ := Int.eq_ofNat_of_zero_le up
      simpa using near_of_ofRatio Nat.one_pos rounded
    next down =>
      obtain ⟨n, rfl⟩ := Int.eq_negSucc_of_lt_zero (Int.not_le.mp down)
      have near := near_of_ofRatio (Nat.pow_pos (by decide)) rounded
      simpa [zpow_negSucc, Int.neg_negSucc, div_eq_mul_inv] using near

/-- A decimal at most half as great as the least positive number is rounded to zero. -/
theorem ofDecimal_of_near_zero (negative : Bool)
    (near : Near 0 leastExponent ((digits : ℚ) * 10 ^ power / 2 ^ leastExponent)) :
    ofDecimal negative digits power = zero negative := by
  obtain rfl | some_ := Nat.eq_zero_or_pos digits
  · rfl
  have scale : (0 : ℚ) < 10 ^ power := by positivity
  have small : (digits : ℚ) * 10 ^ power ≤ 1 / 2 * 2 ^ leastExponent := by
    have high := near.high
    rw [div_le_iff₀ (by positivity)] at high
    simpa using high
  have notHuge : (decimalLength digits : Int) - 1 + power < 0 := by
    refine (zpow_lt_zpow_iff_right₀ (a := (10 : ℚ)) (by norm_num)).mp ?_
    calc (10 : ℚ) ^ ((decimalLength digits : Int) - 1 + power)
        = 10 ^ ((decimalLength digits : Int) - 1) * 10 ^ power := zpow_add₀ (by norm_num) _ _
      _ ≤ digits * 10 ^ power := mul_le_mul_of_nonneg_right
          (decimalLength_bounds (Nat.ne_of_gt some_)).1 (le_of_lt scale)
      _ ≤ 1 / 2 * 2 ^ leastExponent := small
      _ ≤ 1 / 2 * 2 ^ (0 : Int) := by gcongr <;> decide
      _ < 10 ^ (0 : Int) := by norm_num
  have canonical : Canonical 0 leastExponent := zero_proper false
  unfold ofDecimal
  simp only
  rw [if_neg (Nat.ne_of_gt some_), if_neg (by omega)]
  split
  · rfl
  split
  next up =>
    obtain ⟨n, rfl⟩ := Int.eq_ofNat_of_zero_le up
    refine ofRatio_in_place negative canonical (Nat.mul_pos some_ (Nat.pow_pos (by decide)))
      Nat.one_pos ?_ near (.inr rfl)
    rw [div_mul_cancel₀ _ (by positivity)]
    simp
  next down =>
    obtain ⟨n, rfl⟩ := Int.eq_negSucc_of_lt_zero (Int.not_le.mp down)
    refine ofRatio_in_place negative canonical some_ (Nat.pow_pos (by decide)) ?_ near (.inr rfl)
    rw [div_mul_cancel₀ _ (by positivity)]
    simp [zpow_negSucc, Int.neg_negSucc, div_eq_mul_inv]

/-- The finite number that a decimal is rounded to is the one that it is near. -/
theorem ofDecimal_finite_iff : ofDecimal negative digits power = .finite negative m e ↔
    Canonical m e ∧ Near m e ((digits : ℚ) * 10 ^ power / 2 ^ e) := by
  constructor
  · intro rounded
    have proper := ofDecimal_proper negative digits power
    rw [rounded] at proper
    exact ⟨proper, (near_of_ofDecimal rounded).2⟩
  · rintro ⟨canonical, near⟩
    obtain rfl | some_ := Nat.eq_zero_or_pos m
    · obtain rfl : e = leastExponent := canonical.full.resolve_left (by decide)
      exact ofDecimal_of_near_zero negative near
    · exact ofDecimal_of_near negative canonical some_ near

end

end Binary64

namespace Shortest

open Binary64

/-! ## Short decimals -/

section

variable {m d : Nat} {e p : Int}

/-- Two numbers that round to the same number are no further apart than its last place. -/
theorem near_close {x y : ℚ} (near : Near m e x) (near' : Near m e y) : x - y ≤ 1 := by
  linarith [near.high, near'.low]

/-- A point of a grid of wide gaps is the only one that rounds to the number. -/
theorem grid_unique {N : Nat} {power : Int} (wide : (2 : ℚ) ^ e < 10 ^ power)
    (near : Near m e ((d : ℚ) * 10 ^ power / 2 ^ e))
    (near' : Near m e ((N : ℚ) * 10 ^ power / 2 ^ e)) : d = N := by
  have unit : (0 : ℚ) < 2 ^ e := by positivity
  have apart {a b : Nat} (na : Near m e ((a : ℚ) * 10 ^ power / 2 ^ e))
      (nb : Near m e ((b : ℚ) * 10 ^ power / 2 ^ e)) : a < b + 1 := by
    have close := near_close na nb
    rw [← sub_div, ← sub_mul, div_le_iff₀ unit, one_mul] at close
    have less : ((a : ℚ) - b) * 10 ^ power < 1 * 10 ^ power := by linarith
    have less_ := lt_of_mul_lt_mul_right less (by positivity)
    have : (a : ℚ) < b + 1 := by linarith
    exact_mod_cast this
  have := apart near near'
  have := apart near' near
  omega

/-- A point that rounds to a number is next to it on a grid of wide gaps. -/
theorem onGrid?_of_near {power : Int} (some_ : 0 < m) (wide : (2 : ℚ) ^ e < 10 ^ power)
    (near : Near m e ((d : ℚ) * 10 ^ power / 2 ^ e)) : ∃ d', onGrid? m e power = some d' := by
  have unit : (0 : ℚ) < 2 ^ e := by positivity
  have scale : (0 : ℚ) < 10 ^ power := by positivity
  obtain ⟨below, above⟩ := gridFloor_bounds m e power
  have low := near.low
  have high := near.high
  rw [le_div_iff₀ unit] at low
  rw [div_le_iff₀ unit] at high
  have candidate : d = gridFloor (.binary m e) power ∨ d = gridFloor (.binary m e) power + 1 := by
    generalize gridFloor (.binary m e) power = f at below above
    push_cast at above
    have notAbove : (d : ℚ) < f + 2 := by
      refine lt_of_mul_lt_mul_right (a := 10 ^ power) ?_ (le_of_lt scale)
      linarith
    have notBelow : (f : ℚ) < d + 1 := by
      refine lt_of_mul_lt_mul_right (a := 10 ^ power) ?_ (le_of_lt scale)
      linarith
    have notAbove_ : d < f + 2 := by exact_mod_cast notAbove
    have notBelow_ : f < d + 1 := by exact_mod_cast notBelow
    omega
  have fits := (fits_iff some_ d power).mpr near
  refine onGrid?_of_fits ?_
  obtain same | same := candidate
  · exact .inl (same ▸ fits)
  · exact .inr (same ▸ fits)

/-- Points of a coarse grid are on every finer one. -/
theorem on_finer (d : Nat) {power finer : Int} (fine : finer ≤ power) :
    ∃ N : Nat, (d : ℚ) * 10 ^ power = N * 10 ^ finer := by
  obtain ⟨k, rfl⟩ := Int.le.dest fine
  refine ⟨d * 10 ^ k, ?_⟩
  rw [zpow_add₀ (by norm_num), zpow_natCast]
  push_cast
  ring

/-- A decimal of at most fifteen digits is the shortest one of the number that it is rounded to,
    unless this is so small that its mantissa has fewer bits. -/
theorem decimal_of_short (canonical : Canonical m e) (full : Binary64.hidden ≤ m) (short : d < 10 ^ 15)
    (near : Near m e ((d : ℚ) * 10 ^ p / 2 ^ e)) :
    ((decimal m e).1 : ℚ) * 10 ^ (decimal m e).2 = d * 10 ^ p := by
  have unit : (0 : ℚ) < 2 ^ e := by positivity
  have scale : (0 : ℚ) < 10 ^ p := by positivity
  have some_ : 0 < m := Nat.lt_of_lt_of_le (by decide) full
  have wide : (4503599627370496 : ℚ) ≤ m := by exact_mod_cast full
  have short_ : (d : ℚ) < 10 ^ 15 := by exact_mod_cast short
  have low := near.low
  have high := near.high
  rw [le_div_iff₀ unit] at low
  rw [div_le_iff₀ unit] at high
  have large : 4503599627370496 * (2 : ℚ) ^ e ≤ m * 2 ^ e :=
    mul_le_mul_of_nonneg_right wide (le_of_lt unit)
  have small : (d : ℚ) * 10 ^ p < 10 ^ 15 * 10 ^ p := mul_lt_mul_of_pos_right short_ scale
  -- The last place is less than the gaps of the decimal's grid and of the coarsest one.
  have gap : (2 : ℚ) ^ e < 10 ^ p := by linarith
  have gap' : (2 : ℚ) ^ e < 10 ^ (decimalPoint m e - 1) := by
    have above := lt_decimalPoint canonical some_
    rw [show decimalPoint m e = 1 + (decimalPoint m e - 1) by omega, zpow_add₀ (by norm_num),
      zpow_one] at above
    linarith
  have reach : decimalPoint m e - 1 < 16 + p := by
    refine (zpow_lt_zpow_iff_right₀ (a := (10 : ℚ)) (by norm_num)).mp ?_
    have below := decimalPoint_le canonical some_
    rw [zpow_add₀ (by norm_num)]
    norm_num at small ⊢
    linarith
  generalize grid : min p (decimalPoint m e - 1) = power
  have gaps : (2 : ℚ) ^ e < 10 ^ power := by
    obtain same | same : power = p ∨ power = decimalPoint m e - 1 := by omega
    · rwa [same]
    · rwa [same]
  obtain ⟨N, onGrid⟩ := on_finer d (show power ≤ p by omega)
  rw [onGrid] at near ⊢
  obtain ⟨d', hit⟩ := onGrid?_of_near some_ gaps near
  obtain ⟨coarser, found⟩ := decimal_coarsest (by omega) (by omega) hit
  have near' := onGrid?_near some_ found
  obtain ⟨N', onGrid'⟩ := on_finer (decimal m e).1 coarser
  rw [onGrid'] at near' ⊢
  rw [grid_unique gaps near' near]

end

end Shortest

namespace Binary64

/-! ## Decimals that are kept -/

section

variable {num den digits : Nat} {power : Int}

theorem ofRatio_finite (negative : Bool) (pos : 0 < den)
    (small : (num : ℚ) / den < 2 ^ (1023 : Int)) :
    ∃ m e, ofRatio negative num den = .finite negative m e := by
  obtain rfl | posNum := Nat.eq_zero_or_pos num
  · exact ⟨0, leastExponent, rfl⟩
  have floor : floorLog2 num den < 1023 :=
    (zpow_lt_zpow_iff_right₀ (a := (2 : ℚ)) (by norm_num)).mp
      (lt_of_le_of_lt (floorLog2_spec posNum pos).1 small)
  have greatest : greatestExponent = 971 := rfl
  have least : leastExponent = -1074 := rfl
  rw [ofRatio_eq negative posNum rfl rfl]
  split
  · rw [if_neg (by omega)]
    exact ⟨_, _, rfl⟩
  · rw [if_neg (by omega)]
    exact ⟨_, _, rfl⟩

/-- A decimal that is not huge is near some number. -/
theorem exists_near (small : (digits : ℚ) * 10 ^ power < 2 ^ (1023 : Int)) :
    ∃ m e, Canonical m e ∧ Near m e ((digits : ℚ) * 10 ^ power / 2 ^ e) := by
  have scale : (0 : ℚ) < 10 ^ power := by positivity
  have finite : ∃ m e, ofDecimal false digits power = .finite false m e := by
    unfold ofDecimal
    simp only
    split
    · exact ⟨0, leastExponent, rfl⟩
    next some_ =>
    have bounded : (decimalLength digits : Int) - 1 + power < 320 := by
      refine (zpow_lt_zpow_iff_right₀ (a := (10 : ℚ)) (by norm_num)).mp ?_
      have fits : 2 ^ 1023 ≤ 10 ^ 320 := by decide +kernel
      have fits_ : (2 : ℚ) ^ (1023 : Int) ≤ 10 ^ (320 : Int) := by exact_mod_cast fits
      refine lt_of_le_of_lt ?_ (lt_of_lt_of_le small fits_)
      rw [zpow_add₀ (by norm_num)]
      exact mul_le_mul_of_nonneg_right (decimalLength_bounds some_).1 (le_of_lt scale)
    rw [if_neg (by omega)]
    split
    · exact ⟨0, leastExponent, rfl⟩
    split
    next up =>
      obtain ⟨n, rfl⟩ := Int.eq_ofNat_of_zero_le up
      exact ofRatio_finite false Nat.one_pos (by simpa using small)
    next down =>
      obtain ⟨n, rfl⟩ := Int.eq_negSucc_of_lt_zero (Int.not_le.mp down)
      refine ofRatio_finite false (Nat.pow_pos (by decide)) ?_
      simpa [zpow_negSucc, Int.neg_negSucc, div_eq_mul_inv] using small
  obtain ⟨m, e, rounded⟩ := finite
  exact ⟨m, e, ofDecimal_finite_iff.mp rounded⟩

/-- What is written for a finite number, without its sign. -/
def written (m : Nat) (e : Int) : ℚ :=
  if m = 0 then 0 else (Shortest.decimal m e).1 * 10 ^ (Shortest.decimal m e).2

/-- Is `r` the shortest decimal of the number nearest to `q`? -/
def WrittenFor (q r : ℚ) : Prop :=
  ∃ m e, Canonical m e ∧ Near m e (|q| / 2 ^ e) ∧ r = if q < 0 then -written m e else written m e

/-- Only tiny numbers have a mantissa of fewer bits. -/
theorem full_of_near {m : Nat} {e : Int} {x : ℚ} (canonical : Canonical m e)
    (near : Near m e (x / 2 ^ e)) (large : (10 : ℚ) ^ (-307 : Int) ≤ x) : hidden ≤ m := by
  refine Nat.not_lt.mp fun less => ?_
  obtain rfl := canonical.full.resolve_left (Nat.not_le.mpr less)
  have width : (m : ℚ) + 1 ≤ hidden := by exact_mod_cast less
  have high := near.high
  rw [div_le_iff₀ (by positivity)] at high
  have fits : 2 ^ 52 * 10 ^ 307 ≤ 2 ^ 1074 := by decide +kernel
  have fits_ : (2 : ℚ) ^ (52 : Int) * 10 ^ (307 : Int) ≤ 2 ^ (1074 : Int) := by exact_mod_cast fits
  have tiny : (hidden : ℚ) * 2 ^ leastExponent ≤ 10 ^ (-307 : Int) := by
    rw [hidden_eq, leastExponent, zpow_neg, zpow_neg, ← div_eq_mul_inv, div_le_iff₀ (by positivity),
      inv_mul_eq_div, le_div_iff₀ (by positivity)]
    exact fits_
  have below : ((m : ℚ) + 1 / 2) * 2 ^ leastExponent < hidden * 2 ^ leastExponent :=
    mul_lt_mul_of_pos_right (by linarith) (by positivity)
  linarith

/-- A decimal of at most fifteen digits that is zero, or neither huge nor tiny, is kept. -/
theorem writtenFor_self {q : ℚ} (decimal : |q| = digits * 10 ^ power) (short : digits < 10 ^ 15)
    (range : q = 0 ∨ (10 : ℚ) ^ (-307 : Int) ≤ |q| ∧ |q| ≤ 10 ^ (307 : Int)) : WrittenFor q q := by
  obtain rfl | ⟨large, small⟩ := range
  · refine ⟨0, leastExponent, zero_proper false, ?_, by simp [written]⟩
    rw [abs_zero, zero_div]
    exact near_zero (le_refl 0) (by norm_num)
  have fits : 10 ^ 307 < 2 ^ 1023 := by decide +kernel
  have fits_ : (10 : ℚ) ^ (307 : Int) < 2 ^ (1023 : Int) := by exact_mod_cast fits
  have notHuge : (digits : ℚ) * 10 ^ power < 2 ^ (1023 : Int) :=
    lt_of_le_of_lt (decimal.symm.trans_le small) fits_
  obtain ⟨m, e, canonical, near⟩ := exists_near notHuge
  have full := full_of_near canonical near (large.trans_eq decimal)
  have same : written m e = |q| := by
    have some_ : m ≠ 0 := Nat.ne_of_gt (Nat.lt_of_lt_of_le (by decide) full)
    rw [written, if_neg some_, Shortest.decimal_of_short canonical full short near, decimal]
  refine ⟨m, e, canonical, by rwa [decimal], ?_⟩
  rw [same]
  split
  next negative => rw [abs_of_neg negative, neg_neg]
  next notNegative => rw [abs_of_nonneg (not_lt.mp notNegative)]

end

end Binary64

end ApprovedOps
