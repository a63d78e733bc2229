import ApprovedOps.Text.Utf8

/-! # Texts that come back from their bytes -/

namespace ApprovedOps.Utf8

/-- The byte that holds some of the last six bits of a number. -/
theorem continuation (n : Nat) :
    isContinuation (.ofNat (0x80 + n % 0x40)) = true ∧
      payload (.ofNat (0x80 + n % 0x40)) = n % 0x40 := by
  have low : n % 0x40 < 0x40 := Nat.mod_lt n (by decide)
  constructor
  · simp only [isContinuation, Bool.and_eq_true, decide_eq_true_eq, UInt8.le_iff_toNat_le,
      UInt8.lt_iff_toNat_lt, UInt8.toNat_ofNat']
    simp
    omega
  · rw [payload, UInt8.toNat_ofNat']
    omega

theorem scalar_toNat (c : Char) : scalar c.toNat = .char c := by
  rw [scalar, Char.ofNat_toNat]


theorem ofNat_toNat {n : Nat} (small : n < 0x100) : (UInt8.ofNat n).toNat = n := by
  rw [UInt8.toNat_ofNat', Nat.mod_eq_of_lt small]

theorem decode_one {r : List UInt8} {t : Text} {n : Nat}
    (rest : ∀ offset, decodeFrom offset r = .ok t) (least : n < 0x80) (offset : Nat) :
    decodeFrom offset (.ofNat n :: r) = .ok (scalar n :: t) := by
  have value : (UInt8.ofNat n).toNat = n := ofNat_toNat (by omega)
  generalize UInt8.ofNat n = a at value
  have first : a < 0x80 := by simp [UInt8.lt_iff_toNat_lt, value]; omega
  rw [decodeFrom.eq_def]
  dsimp only
  rw [if_pos first, rest, value]
  rfl

theorem decode_two {r : List UInt8} {t : Text} {n : Nat}
    (rest : ∀ offset, decodeFrom offset r = .ok t)
    (least : 0x80 ≤ n) (most : n < 0x800) (offset : Nat) :
    decodeFrom offset (.ofNat (0xC0 + n / 0x40) :: .ofNat (0x80 + n % 0x40) :: r) =
      .ok (scalar n :: t) := by
  obtain ⟨continues, low⟩ := continuation n
  have value : (UInt8.ofNat (0xC0 + n / 0x40)).toNat = 0xC0 + n / 0x40 := ofNat_toNat (by omega)
  generalize UInt8.ofNat (0xC0 + n / 0x40) = a at value
  have a₁ : ¬a < 0x80 := by simp [UInt8.lt_iff_toNat_lt, value]; omega
  have a₂ : ¬a < 0xC2 := by simp [UInt8.lt_iff_toNat_lt, value]; omega
  have a₃ : a < 0xE0 := by simp [UInt8.lt_iff_toNat_lt, value]; omega
  rw [decodeFrom, if_neg a₁, if_neg a₂, if_pos a₃]
  dsimp only
  rw [if_pos continues, rest, low, value, Nat.add_sub_cancel_left, Nat.div_add_mod']
  rfl

theorem decode_three {r : List UInt8} {t : Text} {n : Nat}
    (rest : ∀ offset, decodeFrom offset r = .ok t) (least : 0x800 ≤ n) (most : n < 0x10000)
    (noSurrogate : n < 0xD800 ∨ 0xDFFF < n) (offset : Nat) :
    decodeFrom offset (.ofNat (0xE0 + n / 0x1000) :: .ofNat (0x80 + n / 0x40 % 0x40) ::
      .ofNat (0x80 + n % 0x40) :: r) = .ok (scalar n :: t) := by
  obtain ⟨continues₁, low₁⟩ := continuation (n / 0x40)
  obtain ⟨continues₂, low₂⟩ := continuation n
  have value : (UInt8.ofNat (0xE0 + n / 0x1000)).toNat = 0xE0 + n / 0x1000 := ofNat_toNat (by omega)
  have value' : (UInt8.ofNat (0x80 + n / 0x40 % 0x40)).toNat = 0x80 + n / 0x40 % 0x40 :=
    ofNat_toNat (by omega)
  generalize UInt8.ofNat (0xE0 + n / 0x1000) = a at value
  generalize UInt8.ofNat (0x80 + n / 0x40 % 0x40) = b at value' continues₁ low₁
  have a₁ : ¬a < 0x80 := by simp [UInt8.lt_iff_toNat_lt, value]; omega
  have a₂ : ¬a < 0xC2 := by simp [UInt8.lt_iff_toNat_lt, value]; omega
  have a₃ : ¬a < 0xE0 := by simp [UInt8.lt_iff_toNat_lt, value]
  have a₄ : a < 0xF0 := by simp [UInt8.lt_iff_toNat_lt, value]; omega
  have second : isSecondOfThree a b = true := by
    simp only [isSecondOfThree, continues₁, Bool.true_and, Bool.and_eq_true, Bool.not_eq_true',
      Bool.and_eq_false_iff, beq_eq_false_iff_ne, decide_eq_false_iff_not, ne_eq, ← UInt8.toNat_inj,
      UInt8.lt_iff_toNat_lt, UInt8.le_iff_toNat_le, value, value']
    simp
    omega
  rw [decodeFrom, if_neg a₁, if_neg a₂, if_neg a₃, if_pos a₄]
  dsimp only
  have whole : ((0xE0 + n / 0x1000 - 0xE0) * 0x40 + n / 0x40 % 0x40) * 0x40 + n % 0x40 = n := by
    omega
  rw [second, continues₂, rest, low₁, low₂, value, whole]
  rfl

theorem decode_four {r : List UInt8} {t : Text} {n : Nat}
    (rest : ∀ offset, decodeFrom offset r = .ok t) (least : 0x10000 ≤ n) (most : n < 0x110000)
    (offset : Nat) :
    decodeFrom offset (.ofNat (0xF0 + n / 0x40000) :: .ofNat (0x80 + n / 0x1000 % 0x40) ::
      .ofNat (0x80 + n / 0x40 % 0x40) :: .ofNat (0x80 + n % 0x40) :: r) = .ok (scalar n :: t) := by
  obtain ⟨continues₁, low₁⟩ := continuation (n / 0x1000)
  obtain ⟨continues₂, low₂⟩ := continuation (n / 0x40)
  obtain ⟨continues₃, low₃⟩ := continuation n
  have value : (UInt8.ofNat (0xF0 + n / 0x40000)).toNat = 0xF0 + n / 0x40000 :=
    ofNat_toNat (by omega)
  have value' : (UInt8.ofNat (0x80 + n / 0x1000 % 0x40)).toNat = 0x80 + n / 0x1000 % 0x40 :=
    ofNat_toNat (by omega)
  generalize UInt8.ofNat (0xF0 + n / 0x40000) = a at value
  generalize UInt8.ofNat (0x80 + n / 0x1000 % 0x40) = b at value' continues₁ low₁
  have a₁ : ¬a < 0x80 := by simp [UInt8.lt_iff_toNat_lt, value]; omega
  have a₂ : ¬a < 0xC2 := by simp [UInt8.lt_iff_toNat_lt, value]; omega
  have a₃ : ¬a < 0xE0 := by simp [UInt8.lt_iff_toNat_lt, value]; omega
  have a₄ : ¬a < 0xF0 := by simp [UInt8.lt_iff_toNat_lt, value]
  have a₅ : a < 0xF5 := by simp [UInt8.lt_iff_toNat_lt, value]; omega
  have second : isSecondOfFour a b = true := by
    simp only [isSecondOfFour, continues₁, Bool.true_and, Bool.and_eq_true, Bool.not_eq_true',
      Bool.and_eq_false_iff, beq_eq_false_iff_ne, decide_eq_false_iff_not, ne_eq, ← UInt8.toNat_inj,
      UInt8.lt_iff_toNat_lt, UInt8.le_iff_toNat_le, value, value']
    simp
    omega
  rw [decodeFrom, if_neg a₁, if_neg a₂, if_neg a₃, if_neg a₄, if_pos a₅]
  dsimp only
  have whole : (((0xF0 + n / 0x40000 - 0xF0) * 0x40 + n / 0x1000 % 0x40) * 0x40 + n / 0x40 % 0x40) *
      0x40 + n % 0x40 = n := by omega
  rw [second, continues₂, continues₃, rest, low₁, low₂, low₃, value, whole]
  rfl

/-- What follows a code point has no part in how it is read. -/
theorem decode_char {r : List UInt8} {t : Text} (rest : ∀ offset, decodeFrom offset r = .ok t)
    (c : Char) (offset : Nat) : decodeFrom offset (encodeChar c ++ r) = .ok (.char c :: t) := by
  have valid : c.toNat < 0xD800 ∨ 0xDFFF < c.toNat ∧ c.toNat < 0x110000 := c.valid
  rw [← scalar_toNat c]
  simp only [encodeChar, Nat.div_one]
  split
  · exact decode_one rest (by omega) offset
  split
  · exact decode_two rest (by omega) (by omega) offset
  split
  · exact decode_three rest (by omega) (by omega) (by omega) offset
  · exact decode_four rest (by omega) (by omega) offset

/-- The bytes of a text are read as the text. -/
theorem decode_encode {t : Text} {bytes : List UInt8} (encoded : encode? t = some bytes) :
    decode bytes = .ok t := by
  suffices ∀ offset, decodeFrom offset bytes = .ok t from this 0
  obtain ⟨cs, chars, rfl⟩ := Option.map_eq_some_iff.mp encoded
  clear encoded
  induction t generalizing cs with
  | nil =>
      cases chars
      exact fun offset => rfl
  | cons p t ih =>
      cases p with
      | char c =>
          obtain ⟨cs, later, rfl⟩ := Option.map_eq_some_iff.mp chars
          exact decode_char (ih cs later) c
      | surrogate offset => cases chars

end ApprovedOps.Utf8
