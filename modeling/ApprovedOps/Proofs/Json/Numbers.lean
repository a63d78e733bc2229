import ApprovedOps.Json.Reader
import ApprovedOps.Json.Writer
import ApprovedOps.Proofs.Number.Rounding

/-! # Written numbers

A number that is written and followed by something that cannot go on with it is read back: an
integer as itself, and a floating-point number as the one that its decimal rounds to, which is
itself again.
-/

namespace ApprovedOps

namespace Json.Reader

/-- Does reading a piece give a result and a rest? -/
def Reads {α : Type} {s : Text} (x : Step α s) (a : α) (rest : Text) : Prop :=
  ∃ h, x = .ok (a, ⟨rest, h⟩)

/-- Can no number go on with this text? -/
def Stops (rest : Text) : Prop :=
  ∀ c, rest.head? = some c →
    c.isAsciiDigit = false ∧ c ≠ .char '.' ∧ c ≠ .char 'e' ∧ c ≠ .char 'E'

/-- The text of decimal digits. -/
def numerals (ds : List Char) : Text :=
  ds.map .char

/-! ## Digits -/

theorem digitsValue_numerals {ds : List Char} (all : ∀ d ∈ ds, d.isDigit = true) :
    digitsValue (numerals ds) = Nat.ofDigitChars 10 ds 0 := by
  have step (n : Nat) : (numerals ds).foldl (fun n p => n * 10 + p.hexValue?.getD 0) n =
      Nat.ofDigitChars 10 ds n := by
    induction ds generalizing n with
    | nil => rfl
    | cons d ds ih =>
        have digit := all d List.mem_cons_self
        have value : CodePoint.hexValue? (.char d) = some (d.toNat - '0'.toNat) := by
          simp [CodePoint.hexValue?, digit]
        rw [numerals, List.map_cons, List.foldl_cons, value, Option.getD_some,
          Nat.ofDigitChars_cons, Nat.mul_comm]
        exact ih (fun d among => all d (List.mem_cons_of_mem _ among)) _
  exact step 0

theorem digits_numerals {ds : List Char} {rest : Text} (all : ∀ d ∈ ds, d.isDigit = true)
    (stops : ∀ c, rest.head? = some c → c.isAsciiDigit = false) :
    (digits (numerals ds ++ rest)).1 = numerals ds ∧ (digits (numerals ds ++ rest)).2.1 = rest := by
  induction ds with
  | nil =>
      cases rest with
      | nil => exact ⟨rfl, rfl⟩
      | cons c rest =>
          have none_ := stops c rfl
          simp [digits, numerals, none_]
  | cons d ds ih =>
      have digit : CodePoint.isAsciiDigit (.char d) = true := all d List.mem_cons_self
      obtain ⟨run, left⟩ := ih fun d among => all d (List.mem_cons_of_mem _ among)
      simp only [digits] at run left
      simp [digits, numerals, digit] at run left ⊢
      exact ⟨run, left⟩

/-! ## The pieces of a number -/

theorem sign_minus (r : Text) : ∃ h, sign (.char '-' :: r) = (true, ⟨r, h⟩) :=
  ⟨length_le_cons _ r, rfl⟩

theorem sign_digit {d : Char} (digit : d.isDigit = true) (r : Text) :
    ∃ h, sign (.char d :: r) = (false, ⟨.char d :: r, h⟩) := by
  have notMinus : d ≠ '-' := by
    rintro rfl
    cases digit
  exact ⟨Nat.le_refl _, by simp [sign, notMinus]⟩

/-- Are these the digits before the point: a zero alone, or digits that begin with no zero? -/
structure Whole (ds : List Char) : Prop where
  all : ∀ d ∈ ds, d.isDigit = true
  some_ : ds ≠ []
  leading : ds = ['0'] ∨ ds.head? ≠ some '0'

theorem zero_digits : ∀ d ∈ ['0'], d.isDigit = true :=
  List.forall_mem_singleton.mpr rfl

theorem whole_zero : Whole ['0'] :=
  ⟨zero_digits, nofun, .inl rfl⟩

theorem whole?_numerals {ds : List Char} {rest : Text} (whole : Whole ds)
    (stops : ∀ c, rest.head? = some c → c.isAsciiDigit = false) :
    ∃ h, whole? (numerals ds ++ rest) = some (numerals ds, ⟨rest, h⟩) := by
  obtain ⟨all, some_, leading⟩ := whole
  cases ds with
  | nil => exact absurd rfl some_
  | cons d ds =>
      have digit : CodePoint.isAsciiDigit (.char d) = true := all d List.mem_cons_self
      obtain zero | noZero := leading
      · obtain ⟨rfl, rfl⟩ := List.cons.inj zero
        exact ⟨length_lt_cons _ _, rfl⟩
      · have notZero : d ≠ '0' := by simpa using noZero
        obtain ⟨run, left⟩ :=
          digits_numerals (fun d among => all d (List.mem_cons_of_mem _ among)) stops
        have parts : digits (numerals ds ++ rest) = (numerals ds, ⟨rest, by simp [numerals]⟩) :=
          Prod.ext run (Subtype.ext left)
        change ∃ h, whole? (.char d :: (numerals ds ++ rest)) =
          some (.char d :: numerals ds, ⟨rest, h⟩)
        refine ⟨by rw [List.length_cons, List.length_append]; omega, ?_⟩
        simp only [whole?, CodePoint.char.injEq, notZero, digit, if_true, if_false, parts]

/-- The point and the digits after it. -/
def fractionText : Option (List Char) → Text
  | none => []
  | some fs => .char '.' :: numerals fs

theorem fraction_text {fs : Option (List Char)} {rest : Text}
    (all : ∀ ds ∈ fs, ds ≠ [] ∧ ∀ d ∈ ds, d.isDigit = true)
    (stops : ∀ c, rest.head? = some c → c.isAsciiDigit = false ∧ c ≠ .char '.') :
    ∃ h, fraction (fractionText fs ++ rest) = (fs.map numerals, ⟨rest, h⟩) := by
  cases fs with
  | none =>
      refine ⟨Nat.le_refl _, ?_⟩
      cases rest with
      | nil => rfl
      | cons c rest =>
          have noPoint := (stops c rfl).2
          simp [fractionText, fraction, noPoint]
  | some ds =>
      obtain ⟨some_, digits_⟩ := all ds rfl
      obtain ⟨run, left⟩ := digits_numerals digits_ fun c first => (stops c first).1
      have parts : digits (numerals ds ++ rest) = (numerals ds, ⟨rest, by simp [numerals]⟩) :=
        Prod.ext run (Subtype.ext left)
      have numerals_ : numerals ds ≠ [] := by simpa [numerals] using some_
      change ∃ h, fraction (.char '.' :: (numerals ds ++ rest)) = (some (numerals ds), ⟨rest, h⟩)
      refine ⟨by simp; omega, ?_⟩
      simp [fraction, parts, numerals_]

/-- The exponent as it is written. -/
def exponentText : Option Int → Text
  | none => []
  | some e => numerals (Binary64.exponentChars e)

/-- The digits of a written exponent. -/
def exponentDigits (e : Int) : List Char :=
  List.replicate (2 - (Nat.toDigits 10 e.natAbs).length) '0' ++ Nat.toDigits 10 e.natAbs

theorem exponentDigits_spec (e : Int) :
    exponentDigits e ≠ [] ∧ (∀ d ∈ exponentDigits e, d.isDigit = true) ∧
      digitsValue (numerals (exponentDigits e)) = e.natAbs := by
  have all : ∀ d ∈ exponentDigits e, d.isDigit = true := by
    intro d among
    obtain zero | digit := List.mem_append.mp among
    · rw [(List.mem_replicate.mp zero).2]
      decide
    · exact Nat.isDigit_of_mem_toDigits (by decide) (by decide) digit
  refine ⟨by simp [exponentDigits], all, ?_⟩
  rw [digitsValue_numerals all, exponentDigits, Nat.ofDigitChars_append,
    Nat.ofDigitChars_replicate_zero, Nat.mul_zero, Nat.ofDigitChars_ten_toDigits]

theorem exponent_text {e : Option Int} {rest : Text} (stops : Stops rest) :
    ∃ h, exponent (exponentText e ++ rest) = (e, ⟨rest, h⟩) := by
  cases e with
  | none =>
      refine ⟨Nat.le_refl _, ?_⟩
      cases rest with
      | nil => rfl
      | cons c rest =>
          obtain ⟨-, -, lower, upper⟩ := stops c rfl
          simp [exponentText, exponent, lower, upper]
  | some e =>
      obtain ⟨some_, all, value⟩ := exponentDigits_spec e
      obtain ⟨run, left⟩ := digits_numerals all fun c first => (stops c first).1
      have parts : digits (numerals (exponentDigits e) ++ rest) =
          (numerals (exponentDigits e), ⟨rest, by simp [numerals]⟩) :=
            Prod.ext run (Subtype.ext left)
      have numerals_ : numerals (exponentDigits e) ≠ [] := by simpa [numerals] using some_
      have signed : exponentSign (.char (if e < 0 then '-' else '+') ::
          (numerals (exponentDigits e) ++ rest)) =
          (decide (e < 0), ⟨numerals (exponentDigits e) ++ rest, length_le_cons _ _⟩) := by
        by_cases negative : e < 0
        · rw [if_pos negative, decide_eq_true negative]
          rfl
        · rw [if_neg negative, decide_eq_false negative]
          rfl
      have result : (if decide (e < 0) then -((e.natAbs : Int)) else e.natAbs) = e := by
        by_cases negative : e < 0
        · simp only [negative, decide_true, if_true]
          omega
        · simp only [negative, decide_false, Bool.false_eq_true, if_false]
          omega
      change ∃ h, exponent (.char 'e' :: .char (if e < 0 then '-' else '+') ::
        (numerals (exponentDigits e) ++ rest)) = (some e, ⟨rest, h⟩)
      refine ⟨by simp; omega, ?_⟩
      rw [exponent, signed]
      dsimp only
      rw [parts]
      dsimp only
      have opens : (CodePoint.char 'e' = .char 'e' ∨ CodePoint.char 'e' = .char 'E') ∧
          numerals (exponentDigits e) ≠ [] := ⟨.inl rfl, numerals_⟩
      rw [if_pos opens, value, result]

/-! ## Numbers -/

/-- What a number is read as, piece by piece. -/
theorem number_eq {s r₀ r₁ r₂ r₃ ds : Text} {negative : Bool} {fs : Option Text}
    {power : Option Int}
    (signed : ∃ h, sign s = (negative, ⟨r₀, h⟩)) (whole : ∃ h, whole? r₀ = some (ds, ⟨r₁, h⟩))
    (fraction_ : ∃ h, fraction r₁ = (fs, ⟨r₂, h⟩))
    (exponent_ : ∃ h, exponent r₂ = (power, ⟨r₃, h⟩)) :
    (fs = none → power = none → ds.length ≤ maxIntegerDigits →
      Reads (number s) (.integer (if negative then -(digitsValue ds : Int) else digitsValue ds))
        r₃) ∧
    (fs ≠ none ∨ power ≠ none →
      Reads (number s) (.real (.ofDecimal negative (digitsValue (ds ++ fs.getD []))
        (power.getD 0 - (fs.getD []).length))) r₃) := by
  obtain ⟨h₀, signed⟩ := signed
  obtain ⟨h₁, whole⟩ := whole
  obtain ⟨h₂, fraction_⟩ := fraction_
  obtain ⟨h₃, exponent_⟩ := exponent_
  constructor
  · rintro rfl rfl short
    refine ⟨by omega, ?_⟩
    rw [number, signed]
    dsimp only
    rw [whole]
    dsimp only
    rw [fraction_]
    dsimp only
    rw [exponent_]
    dsimp only
    rw [if_pos ⟨rfl, rfl⟩, if_neg (Nat.not_lt.mpr short)]
  · intro some_
    refine ⟨by omega, ?_⟩
    have notWhole : ¬(fs.isNone = true ∧ power.isNone = true) := by
      rw [Option.isNone_iff_eq_none, Option.isNone_iff_eq_none]
      exact not_and_or.mpr some_
    rw [number, signed]
    dsimp only
    rw [whole]
    dsimp only
    rw [fraction_]
    dsimp only
    rw [exponent_]
    dsimp only
    rw [if_neg notWhole]

/-- The sign as it is written. -/
def signText (negative : Bool) : Text :=
  if negative then [.char '-'] else []

theorem sign_text (negative : Bool) {ds : List Char} {rest : Text} (whole : Whole ds) :
    ∃ h, sign (signText negative ++ (numerals ds ++ rest)) =
      (negative, ⟨numerals ds ++ rest, h⟩) := by
  cases negative with
  | true => exact sign_minus _
  | false =>
      obtain ⟨all, some_, -⟩ := whole
      cases ds with
      | nil => exact absurd rfl some_
      | cons d ds => exact sign_digit (all d List.mem_cons_self) _

/-- A written number with a fraction or an exponent is read as the number that its decimal rounds
    to. -/
theorem number_real {ds : List Char} {fs : Option (List Char)} {e : Option Int} {rest : Text}
    (negative : Bool) (whole : Whole ds) (all : ∀ f ∈ fs, f ≠ [] ∧ ∀ d ∈ f, d.isDigit = true)
    (some_ : fs ≠ none ∨ e ≠ none) (stops : Stops rest) :
    Reads (number (signText negative ++ (numerals ds ++
        (fractionText fs ++ (exponentText e ++ rest)))))
      (.real (.ofDecimal negative (Nat.ofDigitChars 10 (ds ++ fs.getD []) 0)
        (e.getD 0 - (fs.getD []).length))) rest := by
  have digits_ : ∀ d ∈ ds ++ fs.getD [], d.isDigit = true := by
    intro d among
    obtain first | later := List.mem_append.mp among
    · exact whole.all d first
    · cases fs with
      | none => cases later
      | some f => exact (all f rfl).2 d later
  have afterExponent : ∀ c, (exponentText e ++ rest).head? = some c →
      c.isAsciiDigit = false ∧ c ≠ .char '.' := by
    intro c first
    cases e with
    | none => exact ⟨(stops c first).1, (stops c first).2.1⟩
    | some e =>
        cases first
        exact ⟨rfl, by decide⟩
  have afterFraction : ∀ c, (fractionText fs ++ (exponentText e ++ rest)).head? = some c →
      c.isAsciiDigit = false := by
    intro c first
    cases fs with
    | none => exact (afterExponent c first).1
    | some f =>
        cases first
        rfl
  have parts := (number_eq (sign_text negative whole) (whole?_numerals whole afterFraction)
    (fraction_text all afterExponent) (exponent_text stops)).2
      (some_.imp_left fun h => by simpa using h)
  have joined : numerals ds ++ (fs.map numerals).getD [] = numerals (ds ++ fs.getD []) := by
    cases fs <;> simp [numerals]
  have long : ((fs.map numerals).getD []).length = (fs.getD []).length := by
    cases fs <;> simp [numerals]
  rwa [joined, long, digitsValue_numerals digits_] at parts

theorem toDigits_whole (n : Nat) : Whole (Nat.toDigits 10 n) := by
  refine ⟨fun d among => Nat.isDigit_of_mem_toDigits (by decide) (by decide) among,
    Nat.toDigits_ne_nil, ?_⟩
  induction n using Nat.strong_induction_on with
  | h n ih =>
      obtain small | large := Nat.lt_or_ge n 10
      · rw [Nat.toDigits_of_lt_base small]
        obtain rfl | more := Nat.eq_zero_or_pos n
        · exact .inl rfl
        · refine .inr ?_
          simp
          omega
      · rw [Nat.toDigits_of_base_le (by decide) large]
        refine .inr ?_
        rw [List.head?_append_of_ne_nil _ Nat.toDigits_ne_nil]
        obtain zero | noZero := ih (n / 10) (by omega)
        · have value : Nat.ofDigitChars 10 (Nat.toDigits 10 (n / 10)) 0 = 0 := by rw [zero]; rfl
          rw [Nat.ofDigitChars_ten_toDigits] at value
          omega
        · exact noZero

theorem ofInt_text (i : Int) :
    Text.ofInt i = signText (decide (i < 0)) ++ numerals (Nat.toDigits 10 i.natAbs) := by
  have ofNat (n : Nat) : Text.ofNat n = numerals (Nat.toDigits 10 n) := by
    rw [Text.ofNat, Text.ofString, Nat.toString_eq_repr, Nat.toList_repr]
    rfl
  cases i with
  | ofNat n =>
      rw [Text.ofInt, ofNat]
      rfl
  | negSucc n =>
      rw [Text.ofInt, ofNat, decide_eq_true (Int.negSucc_lt_zero n)]
      rfl

/-- An integer that is not too long is read back. -/
theorem number_integer {i : Int} {rest : Text}
    (short : (Nat.toDigits 10 i.natAbs).length ≤ maxIntegerDigits) (stops : Stops rest) :
    Reads (number (Text.ofInt i ++ rest)) (.integer i) rest := by
  have whole := toDigits_whole i.natAbs
  have noFraction : ∃ h, fraction rest = (none, ⟨rest, h⟩) := by
    obtain ⟨h, fraction_⟩ := @fraction_text none rest nofun
      fun c first => ⟨(stops c first).1, (stops c first).2.1⟩
    exact ⟨h, fraction_⟩
  have noExponent := exponent_text (e := none) stops
  have parts := (number_eq (sign_text (decide (i < 0)) whole)
    (whole?_numerals whole fun c first => (stops c first).1) noFraction noExponent).1 rfl rfl
    (by simpa [numerals] using short)
  have value : (if decide (i < 0) then -(i.natAbs : Int) else i.natAbs) = i := by
    by_cases negative : i < 0
    · simp only [negative, decide_true, if_true]
      omega
    · simp only [negative, decide_false, Bool.false_eq_true, if_false]
      omega
  rw [digitsValue_numerals whole.all, Nat.ofDigitChars_ten_toDigits, value] at parts
  rwa [ofInt_text, List.append_assoc]

/-! ## Floating-point numbers -/

open Binary64

/-- The digits of a decimal without the zeros at the end, and the value that they leave. -/
theorem pointed_spec {digits : Nat} (some_ : digits ≠ 0) (power : Int) :
    ∃ ds point, pointed digits power = (ds, point) ∧ Whole ds ∧ ds.head? ≠ some '0' ∧
      (Nat.ofDigitChars 10 ds 0 : ℚ) * 10 ^ (point - ds.length) = digits * 10 ^ power := by
  obtain ⟨all, -, leading⟩ := toDigits_whole digits
  have value : Nat.ofDigitChars 10 (Nat.toDigits 10 digits) 0 = digits :=
    Nat.ofDigitChars_ten_toDigits
  generalize digits_ : Nat.toDigits 10 digits = cs at all leading value
  obtain ⟨ds, k, split, shape⟩ : ∃ ds k, cs = ds ++ List.replicate k '0' ∧
      (cs.reverse.dropWhile (· == '0')).reverse = ds := by
    refine ⟨_, (cs.reverse.takeWhile (· == '0')).length, ?_, rfl⟩
    have zeros : cs.reverse.takeWhile (· == '0') =
        List.replicate (cs.reverse.takeWhile (· == '0')).length '0' := by
      refine List.eq_replicate_iff.mpr ⟨rfl, fun c among => ?_⟩
      simpa using List.all_eq_true.mp List.all_takeWhile c among
    have whole := congrArg List.reverse
      (List.takeWhile_append_dropWhile (p := (· == '0')) (l := cs.reverse))
    rw [List.reverse_append, List.reverse_reverse] at whole
    rw [← List.reverse_replicate, ← zeros]
    exact whole.symm
  rw [split, Nat.ofDigitChars_append, Nat.ofDigitChars_replicate_zero] at value
  have some_' : ds ≠ [] := by
    rintro rfl
    rw [Nat.ofDigitChars_nil, Nat.mul_zero] at value
    exact some_ value.symm
  have head : ds.head? ≠ some '0' := by
    obtain zero | noZero := leading
    · cases ds with
      | nil => exact absurd rfl some_'
      | cons d ds =>
          rw [zero] at split
          obtain ⟨rfl, nothing⟩ := List.cons.inj split
          obtain ⟨rfl, -⟩ := List.append_eq_nil_iff.mp nothing.symm
          rw [show Nat.ofDigitChars 10 ['0'] 0 = 0 from rfl, Nat.mul_zero] at value
          exact absurd value.symm some_
    · rwa [split, List.head?_append_of_ne_nil _ some_'] at noZero
  refine ⟨ds, cs.length + power, ?_, ⟨fun d among => all d ?_, some_', .inr head⟩, head, ?_⟩
  · rw [pointed, digits_]
    simp only [shape]
  · rw [split]
    exact List.mem_append_left _ among
  · have exponent : (cs.length : Int) + power - ds.length = (k : Int) + power := by
      rw [split, List.length_append, List.length_replicate]
      push_cast
      omega
    rw [exponent, zpow_add₀ (by norm_num), ← value, zpow_natCast]
    push_cast
    ring

/-- Digits before a point, digits after it and an exponent, which are written in some way and have
    some value. -/
structure Notates (w : List Char) (fs : Option (List Char)) (e : Option Int) (written : List Char)
    (value : ℚ) : Prop where
  whole : Whole w
  fraction : ∀ f ∈ fs, f ≠ [] ∧ ∀ d ∈ f, d.isDigit = true
  real : fs ≠ none ∨ e ≠ none
  text : numerals written = numerals w ++ (fractionText fs ++ exponentText e)
  value : (Nat.ofDigitChars 10 (w ++ fs.getD []) 0 : ℚ) * 10 ^ (e.getD 0 - (fs.getD []).length) =
    value

section

variable {ds : List Char}

theorem notates_scientific (point : Int) (whole : Whole ds) (head : ds.head? ≠ some '0')
    (far : point ≤ -4 ∨ 16 < point) :
    ∃ w fs e, Notates w fs e (Binary64.place ds point)
      (Nat.ofDigitChars 10 ds 0 * 10 ^ (point - ds.length)) := by
  obtain ⟨all, some_, -⟩ := whole
  rw [Binary64.place.eq_def, if_pos far]
  match ds, all, some_, head with
  | [], _, some_, _ => exact absurd rfl some_
  | [d], all, _, head =>
      refine ⟨[d], none, some (point - 1), ⟨all, nofun, .inr head⟩, nofun, .inr nofun, ?_, ?_⟩
      · simp [numerals, fractionText, exponentText]
      · simp
  | d :: c :: r, all, _, head =>
      refine ⟨[d], some (c :: r), some (point - 1), ⟨?_, nofun, .inr head⟩, ?_, .inl nofun, ?_, ?_⟩
      · intro d' among
        exact all d' (List.mem_cons.mpr (.inl (List.mem_singleton.mp among)))
      · rintro f ⟨⟩
        exact ⟨nofun, fun d among => all d (List.mem_cons_of_mem _ among)⟩
      · simp [numerals, fractionText, exponentText]
      · have exponent : (some (point - 1)).getD 0 - (((some (c :: r)).getD []).length : Int) =
            point - ((d :: c :: r).length : Int) := by
          simp
          omega
        rw [exponent]
        rfl

/-- The point is before all digits. -/
theorem notates_before (n : Nat) (whole : Whole ds) :
    ∃ w fs e, Notates w fs e ('0' :: '.' :: List.replicate n '0' ++ ds)
      (Nat.ofDigitChars 10 ds 0 * 10 ^ (-n - ds.length : Int)) := by
  refine ⟨['0'], some (List.replicate n '0' ++ ds), none, whole_zero, ?_, .inl nofun, ?_, ?_⟩
  · rintro f ⟨⟩
    refine ⟨by simp [whole.some_], fun d among => ?_⟩
    obtain zero | digit := List.mem_append.mp among
    · rw [(List.mem_replicate.mp zero).2]
      decide
    · exact whole.all d digit
  · simp [numerals, fractionText, exponentText]
  · have exponent : (none : Option Int).getD 0 -
        (((some (List.replicate n '0' ++ ds)).getD []).length : Int) = -n - ds.length := by
      simp
      omega
    have zero : Nat.ofDigitChars 10 ['0'] 0 = 0 := rfl
    rw [exponent, Option.getD_some, Nat.ofDigitChars_append, zero, Nat.ofDigitChars_append,
      Nat.ofDigitChars_replicate_zero, Nat.mul_zero]

/-- The point is after all digits. -/
theorem notates_after {n : Nat} (whole : Whole ds) (head : ds.head? ≠ some '0')
    (long : ds.length ≤ n) :
    ∃ w fs e, Notates w fs e (ds ++ List.replicate (n - ds.length) '0' ++ ['.', '0'])
      (Nat.ofDigitChars 10 ds 0 * 10 ^ (n - ds.length : Int)) := by
  refine ⟨ds ++ List.replicate (n - ds.length) '0', some ['0'], none,
    ⟨?_, by simp [whole.some_], .inr ?_⟩, ?_, .inl nofun, ?_, ?_⟩
  · intro d among
    obtain digit | zero := List.mem_append.mp among
    · exact whole.all d digit
    · rw [(List.mem_replicate.mp zero).2]
      decide
  · rwa [List.head?_append_of_ne_nil _ whole.some_]
  · rintro f ⟨⟩
    exact ⟨nofun, zero_digits⟩
  · simp [numerals, fractionText, exponentText]
  · have exponent : (n : Int) - ds.length = ((n - ds.length : Nat) : Int) := by omega
    have tenth (x : Nat) : Nat.ofDigitChars 10 ['0'] x = 10 * x := rfl
    rw [exponent, Option.getD_some, Nat.ofDigitChars_append, tenth, Nat.ofDigitChars_append,
      Nat.ofDigitChars_replicate_zero, zpow_natCast]
    push_cast
    simp
    ring

/-- The point is among the digits. -/
theorem notates_among {n : Nat} (whole : Whole ds) (head : ds.head? ≠ some '0') (some_ : n ≠ 0)
    (inside : n < ds.length) :
    ∃ w fs e, Notates w fs e (ds.take n ++ '.' :: ds.drop n)
      (Nat.ofDigitChars 10 ds 0 * 10 ^ (n - ds.length : Int)) := by
  refine ⟨ds.take n, some (ds.drop n), none,
    ⟨fun d among => whole.all d (List.mem_of_mem_take among), by simp [some_, whole.some_],
      .inr ?_⟩,
    ?_, .inl nofun, ?_, ?_⟩
  · rw [List.head?_take, if_neg some_]
    exact head
  · rintro f ⟨⟩
    exact ⟨by simpa using inside, fun d among => whole.all d (List.mem_of_mem_drop among)⟩
  · simp [numerals, fractionText, exponentText]
  · have exponent : (none : Option Int).getD 0 - (((some (ds.drop n)).getD []).length : Int) =
        n - ds.length := by
      simp
      omega
    rw [exponent, Option.getD_some, List.take_append_drop]

theorem notates_place (point : Int) (whole : Whole ds) (head : ds.head? ≠ some '0') :
    ∃ w fs e, Notates w fs e (Binary64.place ds point)
      (Nat.ofDigitChars 10 ds 0 * 10 ^ (point - ds.length)) := by
  by_cases far : point ≤ -4 ∨ 16 < point
  · exact notates_scientific point whole head far
  rw [Binary64.place.eq_def, if_neg far]
  split
  next small =>
    obtain ⟨n, rfl⟩ : ∃ n : Nat, point = -n := ⟨(-point).toNat, by omega⟩
    rw [neg_neg, Int.toNat_natCast]
    exact notates_before n whole
  next large =>
    obtain ⟨n, rfl⟩ : ∃ n : Nat, point = n := ⟨point.toNat, by omega⟩
    rw [Int.toNat_natCast]
    split
    next long => exact notates_after whole head long
    next short => exact notates_among whole head (by omega) (Nat.not_le.mp short)

/-- Digits with a decimal point are read as the number that they round to. -/
theorem number_place {rest : Text} (negative : Bool) (point : Int) (whole : Whole ds)
    (head : ds.head? ≠ some '0') (stops : Stops rest) :
    ∃ digits power,
      Reads (number (signText negative ++ (numerals (Binary64.place ds point) ++ rest)))
        (.real (.ofDecimal negative digits power)) rest ∧
      (digits : ℚ) * 10 ^ power = Nat.ofDigitChars 10 ds 0 * 10 ^ (point - ds.length) := by
  obtain ⟨w, fs, e, notates⟩ := notates_place point whole head
  refine ⟨_, _, ?_, notates.value⟩
  rw [notates.text, List.append_assoc, List.append_assoc]
  exact number_real negative notates.whole notates.fraction notates.real stops

end

/-- A finite number of the format is read back from what is written for it. -/
theorem number_render {m : Nat} {e : Int} {rest : Text} (negative : Bool)
    (canonical : Canonical m e)
    (stops : Stops rest) :
    Reads (number ((Binary64.finite negative m e).render .json ++ rest))
      (.real (.finite negative m e)) rest := by
  obtain rfl | some_ := Nat.eq_zero_or_pos m
  · obtain rfl : e = leastExponent := canonical.full.resolve_left (by decide)
    have fraction_ : ∀ f ∈ some ['0'], f ≠ [] ∧ ∀ d ∈ f, d.isDigit = true := by
      rintro f ⟨⟩
      exact ⟨nofun, zero_digits⟩
    have read := number_real (e := none) negative whole_zero fraction_ (.inl nofun) stops
    have text : (Binary64.finite negative 0 leastExponent).render .json ++ rest =
        signText negative ++ (numerals ['0'] ++ (fractionText (some ['0']) ++
          (exponentText none ++ rest))) := by
      cases negative <;> rfl
    rw [text]
    exact read
  · have near := Shortest.decimal_near canonical some_
    generalize shortest : Shortest.decimal m e = d at near
    obtain ⟨digits, power⟩ := d
    have digits_ : digits ≠ 0 := by
      rintro rfl
      have half := near_pos some_ near
      rw [Nat.cast_zero, zero_mul, zero_div] at half
      norm_num at half
    obtain ⟨ds, point, pointed_, whole, head, value⟩ := pointed_spec digits_ power
    obtain ⟨read, scale, reads, same⟩ := number_place negative point whole head stops
    have text : (Binary64.finite negative m e).render .json ++ rest =
        signText negative ++ (numerals (Binary64.place ds point) ++ rest) := by
      simp only [Binary64.render, if_neg (Nat.ne_of_gt some_), shortest, pointed_]
      cases negative <;> rfl
    rw [← value, ← same] at near
    rwa [text, ← ofDecimal_of_near negative canonical some_ near]

end Json.Reader

end ApprovedOps
