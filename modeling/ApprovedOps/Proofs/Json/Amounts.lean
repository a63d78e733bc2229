import ApprovedOps.Proofs.Json.Tree
import ApprovedOps.Proofs.Number.Nearest

/-! # What numbers stand for

A number of a JSON text stands for the rational number that its digits, its point and its exponent
give. Without point and exponent it is read as that number. Otherwise it is read as the
floating-point number nearest to it, and written as the shortest decimal of this one.
-/

namespace ApprovedOps

namespace Json

open Reader Binary64

/-! ## Amounts -/

/-- Is the text an exponent, or empty, and does it move the point by so many places? -/
inductive Power : Text → Int → Prop where
  | absent : Power [] 0
  | present {letter sign ds} : letter = 'e' ∨ letter = 'E' → sign ∈ [[], ['+'], ['-']] → ds ≠ [] →
      (∀ d ∈ ds, d.isDigit = true) → Power (.char letter :: numerals (sign ++ ds))
        (if sign = ['-'] then -(Nat.ofDigitChars 10 ds 0 : Int) else Nat.ofDigitChars 10 ds 0)

/-- The amount that digits before a point, digits after it and an exponent stand for. -/
def amount (ds : List Char) (fs : Option (List Char)) (e : Int) : ℚ :=
  Nat.ofDigitChars 10 (ds ++ fs.getD []) 0 * 10 ^ (e - ((fs.getD []).length : Int))

/-- The amount with a sign. -/
def signed (negative : Bool) (q : ℚ) : ℚ :=
  if negative then -q else q

/-- Is the text a number that stands for the amount? -/
inductive Amounts : Text → ℚ → Prop where
  | mk (negative : Bool) {ds fs power e} : Whole ds →
      (∀ f ∈ fs, f ≠ [] ∧ ∀ d ∈ f, d.isDigit = true) → Power power e →
      Amounts (signText negative ++ (numerals ds ++ (fractionText fs ++ power)))
        (signed negative (amount ds fs e))

/-- Does the number have a fraction or an exponent? -/
def IsReal (w : Text) : Prop :=
  .char '.' ∈ w ∨ .char 'e' ∈ w ∨ .char 'E' ∈ w

/-- May `r` be written where the number was read? -/
def Rounded (w : Text) (r : ℚ) : Prop :=
  ∃ q, Amounts w q ∧ (IsReal w → WrittenFor q r) ∧ (¬IsReal w → r = q)

theorem power_isExponent {power : Text} {e : Int} (h : Power power e) : IsExponent power := by
  cases h with
  | absent => exact .absent
  | present isLetter among some_ all => exact .present isLetter among some_ all

theorem amounts_isNumber {w : Text} {q : ℚ} (h : Amounts w q) : IsNumber w := by
  obtain ⟨negative, whole, fraction_, power_⟩ := h
  exact ⟨negative, _, _, _, rfl, whole, fraction_, power_isExponent power_⟩

/-- Every number stands for some amount. -/
theorem exists_amount {w : Text} (h : IsNumber w) : ∃ q, Amounts w q := by
  obtain ⟨negative, ds, fs, power, rfl, whole, fraction_, exponent_⟩ := h
  cases exponent_ with
  | absent => exact ⟨_, .mk negative whole fraction_ .absent⟩
  | present isLetter among some_ all =>
      exact ⟨_, .mk negative whole fraction_ (.present isLetter among some_ all)⟩

/-- Digits with a point stand for their number, divided by ten for each digit behind the point. -/
theorem amounts_decimal {ds fs : List Char} {n : Nat} (whole : Whole ds) (some_ : fs ≠ [])
    (all : ∀ d ∈ fs, d.isDigit = true) (digits_ : Nat.ofDigitChars 10 (ds ++ fs) 0 = n) :
    Amounts (numerals ds ++ .char '.' :: numerals fs) (n / 10 ^ fs.length) := by
  have fraction_ : ∀ f ∈ some fs, f ≠ [] ∧ ∀ d ∈ f, d.isDigit = true := by
    rintro f ⟨⟩
    exact ⟨some_, all⟩
  have amounts := Amounts.mk false whole fraction_ .absent
  have size : signed false (amount ds (some fs) 0) = n / 10 ^ fs.length := by
    simp [signed, amount, digits_, zpow_neg, div_eq_mul_inv]
  rw [size] at amounts
  simpa [signText, fractionText] using amounts

/-! ## Amounts that are read -/

/-- The parts of a number as they are read, one after the other. -/
structure Pieces (w : Text) (negative : Bool) (ds : List Char) (fs : Option (List Char))
    (power : Option Int) : Prop where
  read : ∃ r₀ r₁ r₂, (∃ h, sign w = (negative, ⟨r₀, h⟩)) ∧
    (∃ h, whole? r₀ = some (numerals ds, ⟨r₁, h⟩)) ∧
    (∃ h, fraction r₁ = (fs.map numerals, ⟨r₂, h⟩)) ∧ ∃ h, exponent r₂ = (power, ⟨[], h⟩)
  digits : ∀ d ∈ ds ++ fs.getD [], d.isDigit = true
  real : IsReal w ↔ fs ≠ none ∨ power ≠ none

theorem numerals_inj {ds ds' : List Char} (h : numerals ds = numerals ds') : ds = ds' :=
  List.map_injective_iff.mpr (fun _ _ => CodePoint.char.inj) h

theorem pieces_unique {w : Text} {n n' : Bool} {ds ds' : List Char} {fs fs' : Option (List Char)}
    {power power' : Option Int} (h : Pieces w n ds fs power) (h' : Pieces w n' ds' fs' power') :
    n = n' ∧ ds = ds' ∧ fs = fs' ∧ power = power' := by
  obtain ⟨r₀, r₁, r₂, ⟨h₀, signed⟩, ⟨h₁, whole⟩, ⟨h₂, fraction_⟩, ⟨h₃, exponent_⟩⟩ := h.read
  obtain ⟨r₀', r₁', r₂', ⟨h₀', signed'⟩, ⟨h₁', whole'⟩, ⟨h₂', fraction'⟩, ⟨h₃', exponent'⟩⟩ := h'.read
  rw [signed] at signed'
  cases signed'
  rw [whole] at whole'
  obtain ⟨same, rest⟩ := Prod.ext_iff.mp (Option.some.inj whole')
  obtain rfl := numerals_inj same
  cases rest
  rw [fraction_] at fraction'
  obtain ⟨same, rest⟩ := Prod.ext_iff.mp fraction'
  obtain rfl := Option.map_injective (fun _ _ => numerals_inj) same
  cases rest
  rw [exponent_] at exponent'
  cases exponent'
  exact ⟨rfl, rfl, rfl, rfl⟩

/-- The exponent is read as the places that the point is moved by. -/
theorem power_token {power rest : Text} {e : Int} (h : Power power e) (stops : Stops rest) :
    ∃ x : Option Int, x.getD 0 = e ∧ (x = none ↔ power = []) ∧
      ∃ h, exponent (power ++ rest) = (x, ⟨rest, h⟩) := by
  cases h with
  | absent => exact ⟨none, rfl, by simp, exponent_text (e := none) stops⟩
  | present isLetter among some_ all =>
      refine ⟨_, ?_, by simp, exponent_digits isLetter among some_ all stops⟩
      rw [digitsValue_numerals all]
      rfl

/-- Only a fraction and an exponent are written with other code points than an integer. -/
theorem isReal_iff {negative : Bool} {ds : List Char} {fs : Option (List Char)} {power : Text}
    {e : Int} (all : ∀ d ∈ ds, d.isDigit = true) (h : Power power e) :
    IsReal (signText negative ++ (numerals ds ++ (fractionText fs ++ power))) ↔
      fs ≠ none ∨ power ≠ [] := by
  constructor
  · intro real
    by_contra none_
    obtain ⟨rfl, rfl⟩ : fs = none ∧ power = [] := by simpa [not_or] using none_
    have other {c : Char} (digit : c.isDigit = false) (minus : c ≠ '-') :
        CodePoint.char c ∉ signText negative ++ (numerals ds ++ (fractionText none ++ [])) := by
      intro among
      obtain sign_ | among := List.mem_append.mp among
      · cases negative with
        | false => cases sign_
        | true => exact minus (CodePoint.char.inj (List.mem_singleton.mp sign_))
      · have inside : CodePoint.char c ∈ numerals ds := by simpa [fractionText] using among
        obtain ⟨d, member, same⟩ := List.mem_map.mp inside
        rw [← CodePoint.char.inj same, all d member] at digit
        cases digit
    obtain dot | lower | upper := real
    · exact other rfl (by decide) dot
    · exact other rfl (by decide) lower
    · exact other rfl (by decide) upper
  · rintro (some_ | some_)
    · obtain ⟨f, rfl⟩ := Option.ne_none_iff_exists'.mp some_
      exact .inl (by simp [fractionText])
    · cases h with
      | absent => exact absurd rfl some_
      | present isLetter among _ _ =>
          obtain rfl | rfl := isLetter
          · exact .inr (.inl (by simp))
          · exact .inr (.inr (by simp))

theorem amounts_pieces {w : Text} {q : ℚ} (h : Amounts w q) :
    ∃ negative ds fs power, Pieces w negative ds fs power ∧
      q = signed negative (amount ds fs (power.getD 0)) := by
  obtain @⟨negative, ds, fs, power, e, whole, fraction_, power_⟩ := h
  obtain ⟨x, rfl, none_, token⟩ := power_token power_ stops_nil
  obtain ⟨first, second, third⟩ :=
    number_pieces negative whole fraction_ (power_isExponent power_) stops_nil
  rw [List.append_nil power] at first second third token
  rw [List.append_nil] at first
  refine ⟨negative, ds, fs, x, ⟨⟨_, _, _, first, second, third, token⟩, ?_, ?_⟩, rfl⟩
  · intro d among
    obtain early | late := List.mem_append.mp among
    · exact whole.all d early
    · cases fs with
      | none => cases late
      | some f => exact (fraction_ f rfl).2 d late
  · simp only [isReal_iff whole.all power_, ne_eq, none_]

/-- A number stands for one amount. -/
theorem amounts_unique {w : Text} {q q' : ℚ} (h : Amounts w q) (h' : Amounts w q') : q = q' := by
  obtain ⟨n, ds, fs, power, pieces, rfl⟩ := amounts_pieces h
  obtain ⟨n', ds', fs', power', pieces', rfl⟩ := amounts_pieces h'
  obtain ⟨rfl, rfl, rfl, rfl⟩ := pieces_unique pieces pieces'
  rfl

/-- A number is read as the integer that it stands for, or as its decimal is rounded. -/
theorem pieces_value {w : Text} {negative : Bool} {ds : List Char} {fs : Option (List Char)}
    {power : Option Int} {v : Json} (pieces : Pieces w negative ds fs power)
    (value : (Tree.number w).value = .ok v) :
    (¬IsReal w ∧ v = .integer (if negative then -(Nat.ofDigitChars 10 ds 0 : Int)
      else Nat.ofDigitChars 10 ds 0)) ∨
    (IsReal w ∧ v = .real (.ofDecimal negative (Nat.ofDigitChars 10 (ds ++ fs.getD []) 0)
      (power.getD 0 - ((fs.getD []).length : Int)))) := by
  obtain ⟨r₀, r₁, r₂, signed, whole, fraction_, exponent_⟩ := pieces.read
  have all : ∀ d ∈ ds, d.isDigit = true := fun d among =>
    pieces.digits d (List.mem_append_left _ among)
  have joined : numerals ds ++ (fs.map numerals).getD [] = numerals (ds ++ fs.getD []) := by
    cases fs <;> simp [numerals]
  have long : ((fs.map numerals).getD []).length = (fs.getD []).length := by
    cases fs <;> simp [numerals]
  rw [value_outcome (number_parts signed whole fraction_ exponent_), numberOf, joined, long,
    digitsValue_numerals all, digitsValue_numerals pieces.digits] at value
  rw [pieces.real]
  split at value
  next integer =>
    split at value
    · cases value
    · cases value
      left
      simpa using integer
  next real =>
    cases value
    right
    refine ⟨?_, rfl⟩
    by_contra none_
    exact real (by simpa [not_or] using none_)

/-! ## Amounts that are written -/

theorem power_exponentText (e : Option Int) : Power (exponentText e) (e.getD 0) := by
  cases e with
  | none => exact .absent
  | some e =>
      obtain ⟨some_, all, value⟩ := exponentDigits_spec e
      rw [digitsValue_numerals all] at value
      have written := @Power.present 'e' [if e < 0 then '-' else '+'] _ (.inl rfl)
        (by split <;> simp) some_ all
      have size : (if [if e < 0 then '-' else '+'] = ['-'] then
          -(Nat.ofDigitChars 10 (exponentDigits e) 0 : Int)
        else Nat.ofDigitChars 10 (exponentDigits e) 0) = e := by
        rw [value]
        by_cases negative : e < 0
        · simp only [negative, if_true]
          omega
        · simp only [negative, if_false, List.cons.injEq, Char.reduceEq, and_true]
          omega
      rw [size] at written
      exact written

theorem amounts_ofInt (i : Int) : Amounts (Text.ofInt i) i := by
  have amounts := @Amounts.mk (decide (i < 0)) _ none _ _ (toDigits_whole i.natAbs) nofun .absent
  have size : signed (decide (i < 0)) (amount (Nat.toDigits 10 i.natAbs) none 0) = i := by
    have value : (i.natAbs : ℚ) = |(i : ℚ)| := by rw [Nat.cast_natAbs, Int.cast_abs]
    rw [amount, Option.getD_none, List.append_nil, Nat.ofDigitChars_ten_toDigits, value]
    by_cases negative : i < 0
    · simp [signed, negative, abs_of_neg]
    · simp [signed, negative, abs_of_nonneg, not_lt.mp negative]
  rw [size] at amounts
  simpa [ofInt_text, fractionText] using amounts

/-- A number of the format is written with its shortest digits. -/
theorem amounts_render {m : Nat} {e : Int} (negative : Bool) (canonical : Binary64.Canonical m e) :
    Amounts ((Binary64.finite negative m e).render .json) (signed negative (written m e)) := by
  obtain rfl | some_ := Nat.eq_zero_or_pos m
  · have fraction_ : ∀ f ∈ some ['0'], f ≠ [] ∧ ∀ d ∈ f, d.isDigit = true := by
      rintro f ⟨⟩
      exact ⟨nofun, zero_digits⟩
    have amounts := Amounts.mk negative whole_zero fraction_ .absent
    have size : amount ['0'] (some ['0']) 0 = written 0 e := by
      rw [amount, show Nat.ofDigitChars 10 (['0'] ++ (some ['0']).getD []) 0 = 0 from rfl]
      simp [written]
    rw [size] at amounts
    cases negative <;> exact amounts
  · have near := Shortest.decimal_near canonical some_
    have size : written m e = (Shortest.decimal m e).1 * 10 ^ (Shortest.decimal m e).2 := by
      rw [written, if_neg (Nat.ne_of_gt some_)]
    generalize shortest : Shortest.decimal m e = d at near size
    obtain ⟨digits, power⟩ := d
    have digits_ : digits ≠ 0 := by
      rintro rfl
      have half := near_pos some_ near
      rw [Nat.cast_zero, zero_mul, zero_div] at half
      norm_num at half
    obtain ⟨ds, point, pointed_, whole, head, value⟩ := pointed_spec digits_ power
    obtain ⟨w, fs, x, notates⟩ := notates_place point whole head
    have amounts := Amounts.mk negative notates.whole notates.fraction (power_exponentText x)
    have text : (Binary64.finite negative m e).render .json =
        signText negative ++ (numerals w ++ (fractionText fs ++ exponentText x)) := by
      rw [← notates.text]
      simp only [Binary64.render, if_neg (Nat.ne_of_gt some_), shortest, pointed_]
      cases negative <;> rfl
    have same : amount w fs (x.getD 0) = written m e := by
      rw [amount, notates.value, value, size]
    rwa [text, ← same]

/-- What is written for a number that was read. -/
inductive Shown : Json → ℚ → Prop where
  | integer (i : Int) : Shown (.integer i) i
  | real {negative m e} : Binary64.Canonical m e →
      Shown (.real (.finite negative m e)) (signed negative (written m e))

theorem signed_abs {negative : Bool} {q : ℚ} (pos : 0 ≤ q) : |signed negative q| = q := by
  cases negative with
  | false => exact abs_of_nonneg pos
  | true => rw [signed, if_pos rfl, abs_neg, abs_of_nonneg pos]

/-- The sign is that of the number, unless this is zero. -/
theorem signed_written {negative : Bool} {q : ℚ} {m : Nat} {e : Int} (pos : 0 ≤ q)
    (near : Near m e (q / 2 ^ e)) :
    signed negative (written m e) =
      if signed negative q < 0 then -written m e else written m e := by
  cases negative with
  | false =>
      change written m e = if q < 0 then -written m e else written m e
      rw [if_neg (not_lt.mpr pos)]
  | true =>
      rw [signed, signed, if_pos rfl, if_pos rfl]
      obtain rfl | some_ := pos.eq_or_lt
      · have zero : m = 0 := by
          have low := near.low
          rw [zero_div] at low
          have : (m : ℚ) < 1 := by linarith
          exact Nat.lt_one_iff.mp (by exact_mod_cast this)
        simp [written, zero]
      · rw [if_pos (neg_lt_zero.mpr some_)]

theorem shown_integer {i : Int} {r : ℚ} : Shown (.integer i) r ↔ r = i := by
  constructor
  · rintro ⟨⟩
    rfl
  · rintro rfl
    exact .integer i

/-- A decimal is shown as the shortest one of the number nearest to it. -/
theorem shown_real {negative : Bool} {digits : Nat} {power : Int} {r : ℚ} :
    Shown (.real (.ofDecimal negative digits power)) r ↔
      WrittenFor (signed negative (digits * 10 ^ power)) r := by
  have pos : (0 : ℚ) ≤ digits * 10 ^ power := by positivity
  rw [WrittenFor, signed_abs pos]
  constructor
  · intro shown
    generalize decimal : ofDecimal negative digits power = x at shown
    obtain _ | @⟨negative', m, e, canonical⟩ := shown
    obtain ⟨rfl, near⟩ := near_of_ofDecimal decimal
    exact ⟨m, e, canonical, near, signed_written pos near⟩
  · rintro ⟨m, e, canonical, near, rfl⟩
    rw [ofDecimal_finite_iff.mpr ⟨canonical, near⟩, ← signed_written pos near]
    exact .real canonical

/-- For a number the amount that it stands for is written, or the shortest decimal of the
    floating-point number nearest to this amount. -/
theorem rounded_iff {w : Text} {q : ℚ} {v : Json} (amounts : Amounts w q)
    (value : (Tree.number w).value = .ok v) (r : ℚ) : Rounded w r ↔ Shown v r := by
  have unique : Rounded w r ↔ (IsReal w → WrittenFor q r) ∧ (¬IsReal w → r = q) := by
    constructor
    · rintro ⟨q', amounts', rounded⟩
      rwa [amounts_unique amounts amounts']
    · exact fun rounded => ⟨q, amounts, rounded⟩
  obtain ⟨negative, ds, fs, power, pieces, rfl⟩ := amounts_pieces amounts
  rw [unique]
  obtain ⟨integer, rfl⟩ | ⟨real, rfl⟩ := pieces_value pieces value
  · have none_ := (not_congr pieces.real).mp integer
    obtain ⟨rfl, rfl⟩ : fs = none ∧ power = none := by simpa [not_or] using none_
    have size : signed negative (amount ds none ((none : Option Int).getD 0)) =
        ((if negative then -(Nat.ofDigitChars 10 ds 0 : Int)
          else Nat.ofDigitChars 10 ds 0 : Int) : ℚ) := by
      cases negative <;> simp [signed, amount]
    rw [shown_integer, ← size]
    exact ⟨fun rounded => rounded.2 integer,
      fun same => ⟨fun real => absurd real integer, fun _ => same⟩⟩
  · rw [shown_real]
    exact ⟨fun rounded => rounded.1 real,
      fun same => ⟨fun _ => same, fun integer => absurd real integer⟩⟩

/-! ## Numbers that are kept -/

/-- Is the number written with the amount that it stands for? -/
def Kept (w : Text) : Prop :=
  IsReal w → ∀ q, Amounts w q → WrittenFor q q

theorem rounded_iff_kept {w : Text} {q : ℚ} (amounts : Amounts w q) : Rounded w q ↔ Kept w := by
  constructor
  · rintro ⟨q', amounts', rounded, -⟩ real r amounts''
    obtain rfl := amounts_unique amounts amounts'
    obtain rfl := amounts_unique amounts amounts''
    exact rounded real
  · exact fun kept => ⟨q, amounts, fun real => kept real q amounts, fun _ => rfl⟩

/-- Does the number have at most fifteen digits, and is it zero, or neither huge nor tiny? -/
def Short (w : Text) : Prop :=
  ∃ (q : ℚ) (digits : Nat) (power : Int), Amounts w q ∧ |q| = digits * 10 ^ power ∧
    digits < 10 ^ 15 ∧ (q = 0 ∨ (10 : ℚ) ^ (-307 : Int) ≤ |q| ∧ |q| ≤ 10 ^ (307 : Int))

theorem kept_of_short {w : Text} (h : Short w) : Kept w := by
  obtain ⟨q, digits, power, amounts, decimal, short, range⟩ := h
  intro _ r amounts'
  rw [← amounts_unique amounts amounts']
  exact writtenFor_self decimal short range

end Json

end ApprovedOps
