import ApprovedOps.Proofs.Json.Tree

/-! # What strings stand for

What stands between the quotes of a string spells a text: code points as themselves, and escapes by
a letter or by the number of a UTF-16 code unit. The escapes of a leading and a trailing surrogate in
a row spell one code point. Strings are read as what they spell, and written so that they spell it.
-/

namespace ApprovedOps

namespace Json

open Reader

/-! ## Spellings -/

/-- The escapes by a letter, and what each spells. -/
def letters : List (CodePoint × CodePoint) :=
  [ ('"', '"'), ('\\', '\\'), ('/', '/'), ('b', '\x08'), ('f', '\x0c'), ('n', '\n'), ('r', '\r'),
    ('t', '\t') ]

/-- The number of four hexadecimal digits. -/
inductive CodeUnit : Text → Nat → Prop where
  | mk {a b c d i j k l} : a.hexValue? = some i → b.hexValue? = some j → c.hexValue? = some k →
      d.hexValue? = some l → CodeUnit [a, b, c, d] (((i * 16 + j) * 16 + k) * 16 + l)

/-- Is it the first code unit of a pair? -/
def IsLeading (n : Nat) : Prop :=
  0xD800 ≤ n ∧ n < 0xDC00

/-- Is it the second code unit of a pair? -/
def IsTrailing (n : Nat) : Prop :=
  0xDC00 ≤ n ∧ n < 0xE000

/-- The escape of a code unit. -/
def escaped (digits : Text) : Text :=
  .char '\\' :: .char 'u' :: digits

/-- Does the one, between quotes, spell the other? -/
inductive Spells : Text → Text → Prop where
  | nil : Spells [] []
  | plain {c s t} : c ≠ .char '"' → c ≠ .char '\\' → ¬c.value < 0x20 → Spells s t →
      Spells (c :: s) (c :: t)
  | letter {d p s t} : (d, p) ∈ letters → Spells s t → Spells (.char '\\' :: d :: s) (p :: t)
  | unit {digits n p s t} : CodeUnit digits n → p.value = n →
      (IsLeading n → ∀ digits' n' s', s = escaped digits' ++ s' → CodeUnit digits' n' →
        ¬IsTrailing n') →
      Spells s t → Spells (escaped digits ++ s) (p :: t)
  | pair {digits digits' n n' p s t} : CodeUnit digits n → CodeUnit digits' n' → IsLeading n →
      IsTrailing n' → p.value = 0x10000 + (n - 0xD800) * 0x400 + (n' - 0xDC00) →
      Spells s t → Spells (escaped digits ++ (escaped digits' ++ s)) (p :: t)

/-! ## Spellings that are read -/

theorem escapeLetter?_iff {d p : CodePoint} : escapeLetter? d = some p ↔ (d, p) ∈ letters := by
  constructor
  · intro letter
    unfold escapeLetter? at letter
    split at letter
    all_goals first | (cases letter; decide) | cases letter
  · have table : ∀ x ∈ letters, escapeLetter? x.1 = some x.2 := by decide
    exact table (d, p)

theorem codeUnit_digits {digits : Text} {n : Nat} (h : CodeUnit digits n) :
    digits.length = 4 ∧ (∀ d ∈ digits, d.hexValue?.isSome = true) ∧
      ∀ rest : Text, rest ≠ [] → ∃ h, fourDigits? (digits ++ rest) = some (n, ⟨rest, h⟩) := by
  obtain ⟨a_, b_, c_, d_⟩ := h
  refine ⟨rfl, by simp [a_, b_, c_, d_], fun rest more => ?_⟩
  cases rest with
  | nil => exact absurd rfl more
  | cons e rest => exact ⟨⟨rfl, List.cons_ne_nil e rest⟩, by simp [fourDigits?, a_, b_, c_, d_]⟩

theorem exists_codeUnit {digits : Text} (four : digits.length = 4)
    (hex : ∀ d ∈ digits, d.hexValue?.isSome = true) : ∃ n, CodeUnit digits n := by
  match digits, four with
  | [a, b, c, d], _ =>
    obtain ⟨i, a_⟩ := Option.isSome_iff_exists.mp (hex a (by simp))
    obtain ⟨j, b_⟩ := Option.isSome_iff_exists.mp (hex b (by simp))
    obtain ⟨k, c_⟩ := Option.isSome_iff_exists.mp (hex c (by simp))
    obtain ⟨l, d_⟩ := Option.isSome_iff_exists.mp (hex d (by simp))
    exact ⟨_, .mk a_ b_ c_ d_⟩

theorem spells_body {body t : Text} (h : Spells body t) : StringBody body := by
  induction h with
  | nil => exact .nil
  | plain quote slash printable _ ih => exact .plain quote slash printable ih
  | letter among _ ih => exact .letter (letter_of_escape (escapeLetter?_iff.mpr among)) ih
  | unit first _ _ _ ih =>
      obtain ⟨four, hex, -⟩ := codeUnit_digits first
      exact .numeric four hex ih
  | pair first second _ _ _ _ ih =>
      obtain ⟨four, hex, -⟩ := codeUnit_digits first
      obtain ⟨four', hex', -⟩ := codeUnit_digits second
      exact .numeric four hex (.numeric four' hex' ih)

/-- A string is read as what it spells. -/
theorem spells_reads {body t : Text} (h : Spells body t) (opening : Nat) (rest : Text) :
    Reads (Reader.string opening (body ++ .char '"' :: rest)) t rest := by
  have more (s : Text) : s ++ .char '"' :: rest ≠ [] := by simp
  induction h with
  | nil => exact string_quote opening [] rest
  | plain quote slash printable _ ih => exact string_plain quote slash printable ih
  | letter among _ ih => exact string_letter (escapeLetter?_iff.mpr among) ih
  | @unit digits n p s t first value alone tail ih =>
      obtain ⟨four, hex, first⟩ := codeUnit_digits first
      obtain ⟨h, first⟩ := first (s ++ .char '"' :: rest) (more s)
      have text : escaped digits ++ s ++ .char '"' :: rest =
          .char '\\' :: .char 'u' :: (digits ++ (s ++ .char '"' :: rest)) := by
        simp [escaped]
      rw [text, ← unit_value p, value]
      refine string_numeric (numericEscape_alone first ?_) ih
      by_cases leading : 0xD800 ≤ n ∧ n < 0xDC00
      · right
        obtain ⟨digits', s', rfl, four', hex', tail'⟩ | none_ := afterEscapeU?_body (spells_body tail)
        · obtain ⟨n', second⟩ := exists_codeUnit four' hex'
          have single := alone leading digits' n' s' rfl second
          obtain ⟨-, -, second⟩ := codeUnit_digits second
          obtain ⟨h', second⟩ := second (s' ++ .char '"' :: rest) (more s')
          exact .inr ⟨digits', s' ++ .char '"' :: rest, n', h', by simp, four', second, single⟩
        · exact .inl (none_ rest)
      · exact .inl leading
  | @pair digits digits' n n' p s t first second leading trailing value tail ih =>
      obtain ⟨four', -, second⟩ := codeUnit_digits second
      obtain ⟨-, -, first⟩ := codeUnit_digits first
      obtain ⟨h', second⟩ := second (s ++ .char '"' :: rest) (more s)
      obtain ⟨h, first⟩ := first (escaped digits' ++ (s ++ .char '"' :: rest)) (by simp [escaped])
      have pair := numericEscape_pair first second four' leading trailing
      have front : digits ++ .char '\\' :: .char 'u' :: (digits' ++ (s ++ .char '"' :: rest)) =
          (digits ++ escaped digits') ++ (s ++ .char '"' :: rest) := by
        simp [escaped]
      have text : escaped digits ++ (escaped digits' ++ s) ++ .char '"' :: rest =
          .char '\\' :: .char 'u' :: ((digits ++ escaped digits') ++ (s ++ .char '"' :: rest)) := by
        simp [escaped]
      rw [front, ← value, unit_value] at pair
      rw [text]
      exact string_numeric pair ih

theorem spells_text {body t : Text} (h : Spells body t) : Tree.text body = t := by
  obtain ⟨shorter, reads⟩ := spells_reads h 0 []
  rw [Tree.text, reads]

/-- A string spells one text. -/
theorem spells_unique {body t t' : Text} (h : Spells body t) (h' : Spells body t') : t = t' :=
  (spells_text h).symm.trans (spells_text h')

/-! ## Spellings that exist -/

theorem hexValue?_lt {p : CodePoint} {n : Nat} (h : p.hexValue? = some n) : n < 16 := by
  cases p with
  | surrogate offset => cases h
  | char c =>
      rw [CodePoint.hexValue?] at h
      split at h
      next digit =>
        have small := digit_value (c := .char c) digit
        rw [CodePoint.hexValue?, if_pos digit, h, Option.getD_some] at small
        omega
      split at h
      next letter =>
        have last : c.toNat ≤ 'f'.toNat := UInt32.le_iff_toNat_le.mp letter.2
        cases h
        exact Nat.add_lt_add_right (Nat.lt_of_le_of_lt (Nat.sub_le_sub_right last _) (by decide)) 10
      split at h
      next capital =>
        have last : c.toNat ≤ 'F'.toNat := UInt32.le_iff_toNat_le.mp capital.2
        cases h
        exact Nat.add_lt_add_right (Nat.lt_of_le_of_lt (Nat.sub_le_sub_right last _) (by decide)) 10
      next => cases h

theorem exists_value {n : Nat} (small : n < 0x110000) : ∃ p : CodePoint, p.value = n := by
  by_cases valid : n.isValidChar
  · exact ⟨.char (Char.ofNatAux n valid), rfl⟩
  · have surrogate_ : 0xD800 ≤ n ∧ n < 0xE000 := by
      simp only [Nat.isValidChar] at valid
      omega
    refine ⟨.surrogate ⟨n - 0xD800, by omega⟩, ?_⟩
    simp only [CodePoint.value]
    omega

theorem codeUnit_lt {digits : Text} {n : Nat} (h : CodeUnit digits n) : n < 0x10000 := by
  obtain ⟨a_, b_, c_, d_⟩ := h
  have := hexValue?_lt a_
  have := hexValue?_lt b_
  have := hexValue?_lt c_
  have := hexValue?_lt d_
  omega

theorem body_escaped {digits s : Text} (h : StringBody (escaped digits ++ s))
    (four : digits.length = 4) : StringBody s := by
  generalize text : escaped digits ++ s = body at h
  cases h with
  | nil => cases text
  | plain _ slash => exact absurd (List.cons.inj text).1.symm slash
  | letter among =>
      rw [← (List.cons.inj (List.cons.inj text).2).1] at among
      exact absurd among (by decide)
  | numeric four' _ tail =>
      have rest := (List.cons.inj (List.cons.inj text).2).2
      obtain ⟨-, rfl⟩ := List.append_inj rest (four.trans four'.symm)
      exact tail

/-- Whatever may stand between the quotes spells some text. -/
theorem exists_spelling {body : Text} (h : StringBody body) : ∃ t, Spells body t := by
  cases h with
  | nil => exact ⟨[], .nil⟩
  | plain quote slash printable tail =>
      obtain ⟨t, spells⟩ := exists_spelling tail
      exact ⟨_, .plain quote slash printable spells⟩
  | letter among tail =>
      obtain ⟨p, letter⟩ := escapeLetter?_letter among
      obtain ⟨t, spells⟩ := exists_spelling tail
      exact ⟨_, .letter (escapeLetter?_iff.mp letter) spells⟩
  | @numeric digits s four hex tail =>
      obtain ⟨n, first⟩ := exists_codeUnit four hex
      have small := codeUnit_lt first
      by_cases paired : IsLeading n ∧ ∃ digits' n' s', s = escaped digits' ++ s' ∧
          CodeUnit digits' n' ∧ IsTrailing n'
      · obtain ⟨leading, digits', n', s', text, second, trailing⟩ := paired
        have size := congrArg List.length text
        obtain ⟨p, value⟩ : ∃ p : CodePoint,
            p.value = 0x10000 + (n - 0xD800) * 0x400 + (n' - 0xDC00) := by
          refine exists_value ?_
          rw [IsLeading] at leading
          rw [IsTrailing] at trailing
          omega
        obtain ⟨t, spells⟩ := exists_spelling (body_escaped (text ▸ tail) (codeUnit_digits second).1)
        rw [text]
        exact ⟨p :: t, .pair first second leading trailing value spells⟩
      · obtain ⟨p, value⟩ := exists_value (show n < 0x110000 by omega)
        obtain ⟨t, spells⟩ := exists_spelling tail
        refine ⟨p :: t, .unit first value (fun leading digits' n' s' text second trailing => ?_) spells⟩
        exact paired ⟨leading, digits', n', s', text, second, trailing⟩
termination_by body.length
decreasing_by
  · simp
  · simp only [List.length_cons]; omega
  · simp [escaped] at size ⊢; omega
  · simp; omega

/-- What is written for a text spells it. -/
theorem spells_escape (t : Text) : Spells (t.flatMap escape) t := by
  induction t with
  | nil => exact .nil
  | cons p t ih =>
      rw [List.flatMap_cons]
      obtain ⟨d, text, letter⟩ | ⟨control, text⟩ | ⟨text, quote, slash, printable⟩ := escape_cases p
      · rw [text]
        exact .letter (escapeLetter?_iff.mp letter) ih
      · obtain ⟨x, y, digits, i, j, first, second, value⟩ := hex_control p.value control
        have zero : CodePoint.hexValue? (.char '0') = some 0 := rfl
        have unit_ := CodeUnit.mk zero zero first second
        rw [text, digits]
        refine .unit unit_ (by omega) (fun leading => ?_) ih
        rw [IsLeading] at leading
        omega
      · rw [text]
        exact .plain quote slash printable ih

end Json

end ApprovedOps
