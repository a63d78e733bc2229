import ApprovedOps.Proofs.GraphQL.Spelled
import ApprovedOps.Proofs.Text.Scalar

/-! # Lexemes of names, strings and numbers

A name, a string or a number that is written in the normal layout is read as the same one again.
-/

namespace ApprovedOps

namespace GraphQL

variable {t rest : Text} {w : Word}

/-- A lexeme on one line is the same however far it is indented. -/
theorem Lexes.anywhere (h : Lexes t w) (oneLine : .char '\n' ∉ t) (n : Nat) :
    Lexes (shift n t) w := by
  rwa [shift_flat oneLine]

/-- What begins a token is one if the token takes the whole text. -/
theorem lexes_of_tokenAt {c : CodePoint} {r : Text} (ignored : Lexed.isIgnored c = false)
    (noHash : c ≠ .char '#')
    (taken : ∀ rest, Apart rest → Lexed.tokenAt c (r ++ rest) = .ok (w.1, w.2, r.length)) :
    Lexes (c :: r) w := by
  refine ⟨List.cons_ne_nil c r, fun k rest apart => ?_⟩
  rw [List.cons_append, Lexed.scanFrom, if_neg (Bool.eq_false_iff.mp ignored), if_neg noHash,
    taken rest apart]
  simp only [List.drop_left, List.length_cons, Nat.add_assoc]

/-- What a test tells from white space, marks, comments and strings is none of them. -/
theorem first_other {K : CodePoint → Bool} {c : CodePoint}
    (others : (Text.ofString "\uFEFF\t ,\n\r#\"").all (!K ·) = true)
    (marks : "!$&():=@[]\x7b|\x7d".toList.all (fun c => !K (.char c)) = true) (h : K c = true) :
    Lexed.isIgnored c = false ∧ Lexed.isMark c = false ∧ c ≠ .char '#' ∧ c ≠ .char '"' := by
  have differs (p : CodePoint) (among : p ∈ Text.ofString "\uFEFF\t ,\n\r#\"") : c ≠ p := by
    rintro rfl
    have other := List.all_eq_true.mp others c among
    rw [h] at other
    cases other
  refine ⟨?_, ?_, differs _ (by decide), differs _ (by decide)⟩
  · rw [Bool.eq_false_iff]
    intro ignored
    simp only [Lexed.isIgnored, Bool.or_eq_true, decide_eq_true_eq] at ignored
    obtain ((((same | same) | same) | same) | same) | same := ignored <;>
      exact differs _ (by decide) same
  · cases c with
    | surrogate => rfl
    | char c =>
        rw [Bool.eq_false_iff]
        intro isMark
        have other := of_isMark marks isMark
        rw [h] at other
        cases other

theorem takeWhile_front {p : CodePoint → Bool} {r : Text} (all : ∀ c ∈ r, p c = true)
    (stops : ∀ c ∈ rest.head?, p c = false) : (r ++ rest).takeWhile p = r := by
  rw [List.takeWhile_append_of_pos all]
  cases rest with
  | nil => exact List.append_nil r
  | cons c rest =>
      rw [List.takeWhile_cons, stops c rfl]
      exact List.append_nil r

/-! ## Names -/

theorem nameStart_notDigit {c : CodePoint} (h : c.isNameStart = true) : c.isAsciiDigit = false := by
  cases c with
  | surrogate => cases h
  | char c =>
      rw [Bool.eq_false_iff]
      intro digit
      change (decide (c.val ≥ 65 ∧ c.val ≤ 90) || (decide (c.val ≥ 97) && decide (c.val ≤ 122)) ||
        c == '_') = true at h
      change (decide (c.val ≥ 48) && decide (c.val ≤ 57)) = true at digit
      simp only [Bool.or_eq_true, Bool.and_eq_true, decide_eq_true_eq, beq_iff_eq, ge_iff_le,
        UInt32.le_iff_toNat_le] at h digit
      obtain (⟨low, -⟩ | ⟨low, -⟩) | rfl := h
      · exact absurd (Nat.le_trans low digit.2) (by decide)
      · exact absurd (Nat.le_trans low digit.2) (by decide)
      · exact absurd digit.2 (by decide)

theorem nameStart_other {c : CodePoint} (h : c.isNameStart = true) :
    Lexed.isIgnored c = false ∧ Lexed.isMark c = false ∧ c ≠ .char '#' ∧ c ≠ .char '"' ∧
      c ≠ .char '-' := by
  obtain ⟨solid, noMark, noHash, noQuote⟩ := first_other (by decide) (by decide) h
  refine ⟨solid, noMark, noHash, noQuote, ?_⟩
  rintro rfl
  cases h

/-- A name is the lexeme of itself. -/
theorem name_lexes {n : Text} (name : n.isName = true) : Lexes n (.name n) := by
  cases n with
  | nil => cases name
  | cons c r =>
      rw [Text.isName, Bool.and_eq_true] at name
      obtain ⟨start, all⟩ := name
      obtain ⟨solid, noMark, noHash, noQuote, noMinus⟩ := nameStart_other start
      refine lexes_of_tokenAt solid noHash fun rest apart => ?_
      unfold Lexed.tokenAt
      rw [if_neg noQuote, if_neg (Bool.eq_false_iff.mp noMark),
        if_neg (by simp [nameStart_notDigit start, noMinus]), if_pos start]
      dsimp only
      rw [takeWhile_front (List.all_eq_true.mp all) fun c first => (apart c first).1]
      rfl

/-! ## Strings -/

theorem string_end (rest : Text) : Literal.string (.char '"' :: rest) = .ok ([], 1) := by
  rw [Literal.string, if_pos rfl]

theorem string_letter {d p : CodePoint} {v : Text} {m : Nat}
    (letter : Literal.escapeLetter? d = some p) (tail : Literal.string t = .ok (v, m)) :
    Literal.string (.char '\\' :: d :: t) = .ok (p :: v, 2 + m) := by
  have noU : d ≠ .char 'u' := by
    rintro rfl
    cases letter
  rw [Literal.string, if_neg (by decide), if_pos rfl, Literal.escape, if_neg noU, letter]
  simp only [List.drop_succ_cons, List.drop_zero, tail, Except.ok.injEq, Prod.mk.injEq, true_and]
  omega

theorem string_plain {c : Char} {v : Text} {m : Nat} (noQuote : c ≠ '"') (noSlash : c ≠ '\\')
    (inLine : Literal.isNewline (.char c) = false) (tail : Literal.string t = .ok (v, m)) :
    Literal.string (.char c :: t) = .ok (.char c :: v, 1 + m) := by
  rw [Literal.string, if_neg fun same => noQuote (CodePoint.char.inj same),
    if_neg fun same => noSlash (CodePoint.char.inj same), if_neg (Bool.eq_false_iff.mp inLine),
    tail, Nat.add_comm 1 m]

theorem scalar_toNat (c : Char) : Literal.scalar c.toNat = .char c := by
  have valid : c.toNat.isValidChar := c.valid
  rw [Literal.scalar, CodePoint.ofNat?, dif_pos valid]
  rfl

/-- The four digits of a control character. -/
theorem hex_control : ∀ n < 0xA0, ∃ x y : Char,
    Text.hexUpper 4 n = [.char '0', .char '0', .char x, .char y] ∧
      CodePoint.hexValue? (.char x) = some (n / 16) ∧
      CodePoint.hexValue? (.char y) = some (n % 16) := by
  intro n small
  refine ⟨(Nat.digitChar (n / 16)).toUpper, (Nat.digitChar (n % 16)).toUpper, ?_⟩
  revert n
  decide +kernel

theorem string_numeric {c : Char} {v : Text} {m : Nat} (small : c.toNat < 0xA0)
    (tail : Literal.string t = .ok (v, m)) :
    Literal.string (Text.ofString "\\u" ++ Text.hexUpper 4 c.toNat ++ t) =
      .ok (.char c :: v, 6 + m) := by
  obtain ⟨x, y, text, first, second⟩ := hex_control c.toNat small
  have zero : CodePoint.hexValue? (.char '0') = some 0 := rfl
  have four : Literal.fourDigits? (.char '0' :: .char '0' :: .char x :: .char y :: t) =
      some c.toNat := by
    simp only [Literal.fourDigits?, zero, first, second, bind, Option.bind, pure, Option.some.injEq]
    omega
  have low : Literal.isScalar c.toNat = true := by
    simp only [Literal.isScalar, Bool.or_eq_true, decide_eq_true_eq]
    omega
  have found : Literal.fourDigitEscape (.char '0' :: .char '0' :: .char x :: .char y :: t) =
      some (.char c, 5) := by
    rw [Literal.fourDigitEscape, four]
    simp only [bind, Option.bind, low, if_true, scalar_toNat]
    rfl
  rw [text]
  change Literal.string (.char '\\' :: .char 'u' ::
    .char '0' :: .char '0' :: .char x :: .char y :: t) = _
  rw [Literal.string, if_neg (by decide), if_pos rfl, Literal.escape, if_pos rfl,
    if_neg (by simp), found]
  simp only [List.drop_succ_cons, List.drop_zero, tail, Except.ok.injEq, Prod.mk.injEq, true_and]
  omega

/-- An escaped code point is read as itself. -/
theorem string_escape {p : CodePoint} {v : Text} {m : Nat} (scalar : p.isScalar = true)
    (tail : Literal.string t = .ok (v, m)) :
    Literal.string (Layout.escape p ++ t) = .ok (p :: v, (Layout.escape p).length + m) := by
  unfold Layout.escape
  iterate 7
    split
    next same => exact same ▸ string_letter rfl tail
  cases p with
  | surrogate => cases scalar
  | char c =>
      split
      next control =>
        have small : c.toNat < 0xA0 := by
          change c.toNat < 0x20 ∨ (0x7F ≤ c.toNat ∧ c.toNat < 0xA0) at control
          omega
        have long : (Text.ofString "\\u" ++ Text.hexUpper 4 c.toNat).length = 6 := by
          obtain ⟨x, y, text, -⟩ := hex_control c.toNat small
          rw [text]
          rfl
        exact (string_numeric small tail).trans (by rw [CodePoint.value, long])
      next noQuote noSlash _ _ noFeed _ noReturn _ =>
        refine string_plain (fun same => noQuote (same ▸ rfl)) (fun same => noSlash (same ▸ rfl))
          ?_ tail
        simp only [Literal.isNewline, Bool.or_eq_false_iff, decide_eq_false_iff_not]
        exact ⟨noFeed, noReturn⟩

theorem string_escaped {content : Text} (scalar : content.Scalar) (rest : Text) :
    Literal.string (content.flatMap Layout.escape ++ .char '"' :: rest) =
      .ok (content, (content.flatMap Layout.escape).length + 1) := by
  induction content with
  | nil => exact string_end rest
  | cons p content ih =>
      obtain ⟨here, later⟩ := Text.scalar_cons.mp scalar
      rw [List.flatMap_cons, List.append_assoc, string_escape here (ih later), List.length_append,
        Nat.add_assoc]

/-- What is written for a code point begins with no quote and stays on its line. -/
theorem escape_text (p : CodePoint) : (∃ q r, Layout.escape p = q :: r ∧ q ≠ .char '"') ∧
    .char '\n' ∉ Layout.escape p := by
  unfold Layout.escape
  iterate 7
    split
    next => exact ⟨⟨_, _, rfl, by decide⟩, by decide⟩
  next noQuote _ _ _ noFeed _ _ =>
    split
    next control =>
      have small : p.value < 0xA0 := by omega
      obtain ⟨x, y, text, first, second⟩ := hex_control p.value small
      refine ⟨⟨_, _, rfl, by decide⟩, fun among => ?_⟩
      have feed : CodePoint.hexValue? (.char '\n') = none := by decide
      rw [text] at among
      have digit : CodePoint.char '\n' = .char x ∨ CodePoint.char '\n' = .char y := by
        obtain front | back := List.mem_append.mp among
        · exact absurd front (by decide)
        · simpa using back
      obtain same | same := digit
      · cases (same ▸ feed).symm.trans first
      · cases (same ▸ feed).symm.trans second
    next => exact ⟨⟨p, [], rfl, noQuote⟩, fun among => noFeed (List.mem_singleton.mp among).symm⟩

theorem string_lexes {content : Text} (scalar : content.Scalar) (n : Nat) :
    Lexes (shift n (Layout.string false content)) (.string false content) := by
  refine Lexes.anywhere ?_ ?_ n
  · refine lexes_of_tokenAt (by decide) (by decide) fun rest apart => ?_
    have text : content.flatMap Layout.escape ++ [.char '"'] ++ rest =
        content.flatMap Layout.escape ++ .char '"' :: rest := by simp
    have single : Text.startsWith (content.flatMap Layout.escape ++ .char '"' :: rest)
        [.char '"', .char '"'] = false := by
      cases content with
      | nil =>
          cases rest with
          | nil => rfl
          | cons c rest =>
              have other : c ≠ .char '"' := (apart c rfl).2.2
              simpa [Text.startsWith, List.isPrefixOf] using other.symm
      | cons p content =>
          obtain ⟨⟨q, r, text, other⟩, -⟩ := escape_text p
          simp [List.flatMap_cons, text, Text.startsWith, List.isPrefixOf, other.symm]
    change Lexed.tokenAt (.char '"') (content.flatMap Layout.escape ++ [.char '"'] ++ rest) = _
    rw [text, Lexed.tokenAt, if_pos rfl, if_neg (Bool.eq_false_iff.mp single), string_escaped scalar]
    simp [Literal.after, Word.string, bind, Except.bind, pure, Except.pure]
  · simp only [Layout.string, Bool.false_eq_true, if_false, List.cons_append, List.mem_cons,
      List.mem_append, List.mem_flatMap, List.not_mem_nil, or_false]
    rintro (quote | ⟨p, -, among⟩ | quote)
    · cases quote
    · exact (escape_text p).2 among
    · cases quote

/-! ## Numbers -/

/-- Are these some digits? -/
def IsDigits (ds : Text) : Prop :=
  ds ≠ [] ∧ ∀ c ∈ ds, c.isAsciiDigit = true

/-- Do digits end in front of the text? -/
def Stops (rest : Text) : Prop :=
  ∀ c ∈ rest.head?, c.isAsciiDigit = false

/-- The digits of a number before its point. -/
def IsWhole (x : Text) : Prop :=
  x = [.char '0'] ∨ IsDigits x ∧ x.head? ≠ some (.char '0')

/-- The fraction of a number, or nothing. -/
def IsFraction (x : Text) : Prop :=
  x = [] ∨ ∃ ds, x = .char '.' :: ds ∧ IsDigits ds

/-- The exponent of a number, or nothing. -/
def IsExponent (x : Text) : Prop :=
  x = [] ∨ ∃ e sign ds, x = e :: (sign ++ ds) ∧ (e = .char 'e' ∨ e = .char 'E') ∧
    (sign = [] ∨ sign = [.char '+'] ∨ sign = [.char '-']) ∧ IsDigits ds

theorem nameStart_continues {c : CodePoint} (h : c.isNameStart = true) :
    c.isNameContinue = true := by
  cases c with
  | surrogate => cases h
  | char c =>
      simp only [CodePoint.isNameStart, CodePoint.isNameContinue, Char.isAlphanum,
        Bool.or_eq_true] at h ⊢
      exact h.imp_left .inl

theorem digit_continues {c : CodePoint} (h : c.isAsciiDigit = true) : c.isNameContinue = true := by
  cases c with
  | surrogate => cases h
  | char c =>
      have digit : c.isDigit = true := h
      simp [CodePoint.isNameContinue, Char.isAlphanum, digit]

theorem stops_cons {c : CodePoint} (h : c.isAsciiDigit = false) : Stops (c :: rest) := by
  rintro d (rfl | ⟨⟩)
  exact h

theorem digits_ok {s : Text} {n : Nat} (h : Literal.digits s = .ok n) :
    ∃ ds r, s = ds ++ r ∧ n = ds.length ∧ IsDigits ds ∧ Stops r := by
  rw [Literal.digits] at h
  split at h
  next => cases h
  next some_ =>
    cases h
    refine ⟨_, _, List.takeWhile_append_dropWhile.symm, rfl,
      ⟨fun none_ => some_ (by rw [none_]; rfl), fun c among => ?_⟩, fun c first => ?_⟩
    · exact List.all_eq_true.mp List.all_takeWhile c among
    · have stops := List.head?_dropWhile_not CodePoint.isAsciiDigit s
      rw [Option.mem_def.mp first] at stops
      exact stops

theorem digits_read {ds r : Text} (digits : IsDigits ds) (stops : Stops r) :
    Literal.digits (ds ++ r) = .ok ds.length := by
  rw [Literal.digits, takeWhile_front digits.2 stops]
  exact if_neg fun none_ => digits.1 (List.length_eq_zero_iff.mp none_)

theorem whole_ok {s : Text} {n : Nat} (h : Literal.whole s = .ok n) :
    ∃ x r, s = x ++ r ∧ n = x.length ∧ IsWhole x ∧ Stops r := by
  rw [Literal.whole] at h
  split at h
  next zero =>
    dsimp only at h
    split at h
    next => cases h
    next alone =>
      cases h
      cases s with
      | nil => cases zero
      | cons c s =>
          cases zero
          refine ⟨[.char '0'], s, rfl, rfl, .inl rfl, fun c first => ?_⟩
          rw [List.drop_one, List.tail_cons, Option.mem_def.mp first] at alone
          exact Bool.eq_false_iff.mpr alone
  next other =>
    obtain ⟨ds, r, rfl, long, digits, stops⟩ := digits_ok h
    refine ⟨ds, r, rfl, long, .inr ⟨digits, fun zero => other ?_⟩, stops⟩
    rw [List.head?_append, zero]
    rfl

theorem whole_read {x r : Text} (whole : IsWhole x) (stops : Stops r) :
    Literal.whole (x ++ r) = .ok x.length := by
  obtain rfl | ⟨digits, other⟩ := whole
  · have none_ : (r.head?).any CodePoint.isAsciiDigit = false := by
      cases r with
      | nil => rfl
      | cons c r => exact stops c rfl
    simp [Literal.whole, none_]
  · have first : (x ++ r).head? ≠ some (.char '0') := by
      obtain ⟨c, x, rfl⟩ := List.exists_cons_of_ne_nil digits.1
      exact other
    rw [Literal.whole, if_neg first]
    exact digits_read digits stops

/-- What comes after a first code point, with it. -/
theorem cons_of_head? {s r : Text} {c : CodePoint} (first : s.head? = some c) (h : s.drop 1 = r) :
    s = c :: r := by
  cases s with
  | nil => cases first
  | cons d s =>
      cases first
      exact congrArg (c :: ·) h

theorem after_ok {α : Type} {n : Nat} {x : Except Misread α} {a : α}
    (h : Literal.after n x = .ok a) : x = .ok a := by
  cases x with
  | error e => cases h
  | ok b => exact h

theorem fraction_ok {s : Text} {n : Nat} (h : Literal.fraction s = .ok n) :
    ∃ x r, s = x ++ r ∧ n = x.length ∧ IsFraction x ∧ (x ≠ [] → Stops r) := by
  rw [Literal.fraction] at h
  split at h
  next point =>
    obtain ⟨m, digits, h⟩ := except_bind_ok h
    cases h
    obtain ⟨ds, r, text, rfl, all, stops⟩ := digits_ok (after_ok digits)
    exact ⟨.char '.' :: ds, r, cons_of_head? point text, rfl, .inr ⟨ds, rfl, all⟩, fun _ => stops⟩
  next => exact ⟨[], s, rfl, (Except.ok.inj h).symm, .inl rfl, fun some_ => absurd rfl some_⟩

theorem fraction_read {x r : Text} (fraction : IsFraction x) (stops : Stops r)
    (noPoint : r.head? ≠ some (.char '.')) : Literal.fraction (x ++ r) = .ok x.length := by
  obtain rfl | ⟨ds, rfl, all⟩ := fraction
  · exact if_neg noPoint
  · have point : List.head? (.char '.' :: ds ++ r) = some (.char '.') := rfl
    rw [Literal.fraction, if_pos point]
    simp only [List.cons_append, List.drop_succ_cons, List.drop_zero, digits_read all stops]
    rfl

theorem exponent_ok {s : Text} {n : Nat} (h : Literal.exponent s = .ok n) :
    ∃ x r, s = x ++ r ∧ n = x.length ∧ IsExponent x ∧ (x ≠ [] → Stops r) := by
  rw [Literal.exponent] at h
  split at h
  next first =>
    cases s with
    | nil => simp at first
    | cons e s =>
        have letter : e = .char 'e' ∨ e = .char 'E' := by simpa using first
        by_cases signed : s.head? = some (.char '+') ∨ s.head? = some (.char '-')
        · simp only [List.drop_succ_cons, List.drop_zero, if_pos signed] at h
          obtain ⟨m, digits, h⟩ := except_bind_ok h
          cases h
          obtain ⟨ds, r, text, rfl, all, stops⟩ := digits_ok (after_ok digits)
          obtain sign | sign := signed
          · exact ⟨e :: ([.char '+'] ++ ds), r, by rw [cons_of_head? sign text]; rfl, by simp,
              .inr ⟨e, _, ds, rfl, letter, .inr (.inl rfl), all⟩, fun _ => stops⟩
          · exact ⟨e :: ([.char '-'] ++ ds), r, by rw [cons_of_head? sign text]; rfl, by simp,
              .inr ⟨e, _, ds, rfl, letter, .inr (.inr rfl), all⟩, fun _ => stops⟩
        · simp only [List.drop_succ_cons, List.drop_zero, if_neg signed] at h
          obtain ⟨m, digits, h⟩ := except_bind_ok h
          cases h
          obtain ⟨ds, r, rfl, rfl, all, stops⟩ := digits_ok (after_ok digits)
          exact ⟨e :: ([] ++ ds), r, rfl, by simp, .inr ⟨e, [], ds, rfl, letter, .inl rfl, all⟩,
            fun _ => stops⟩
  next => exact ⟨[], s, rfl, (Except.ok.inj h).symm, .inl rfl, fun some_ => absurd rfl some_⟩

theorem exponent_read {x r : Text} (exponent : IsExponent x) (stops : Stops r)
    (noLetter : ¬(r.head? = some (.char 'e') ∨ r.head? = some (.char 'E'))) :
    Literal.exponent (x ++ r) = .ok x.length := by
  obtain rfl | ⟨e, sign, ds, rfl, letter, signs, all⟩ := exponent
  · exact if_neg noLetter
  · have first : List.head? (e :: (sign ++ ds) ++ r) = some (.char 'e') ∨
        List.head? (e :: (sign ++ ds) ++ r) = some (.char 'E') := by simpa using letter
    rw [Literal.exponent, if_pos first]
    have read := digits_read all stops
    obtain rfl | rfl | rfl := signs
    · obtain ⟨d, ds, rfl⟩ := List.exists_cons_of_ne_nil all.1
      have digit := all.2 d List.mem_cons_self
      have unsigned : ¬(d = .char '+' ∨ d = .char '-') := by
        rintro (rfl | rfl) <;> cases digit
      simp only [List.nil_append, List.cons_append, List.drop_succ_cons, List.drop_zero,
        List.head?_cons, Option.some.injEq, if_neg unsigned] at read ⊢
      rw [read]
      rfl
    · simp [read, Literal.after, bind, Except.bind, pure, Except.pure]
    · simp [read, Literal.after, bind, Except.bind, pure, Except.pure]

/-- Is the text a number, with a fraction or an exponent if `isFloat`? -/
def IsNumber (isFloat : Bool) (d : Text) : Prop :=
  ∃ sign whole fraction exponent, d = sign ++ (whole ++ (fraction ++ exponent)) ∧
    (sign = [] ∨ sign = [.char '-']) ∧ IsWhole whole ∧ IsFraction fraction ∧ IsExponent exponent ∧
    isFloat = decide (fraction.length + exponent.length ≠ 0)

theorem whole_first {x : Text} (whole : IsWhole x) :
    ∃ c r, x = c :: r ∧ c.isAsciiDigit = true := by
  obtain rfl | ⟨digits, -⟩ := whole
  · exact ⟨_, [], rfl, rfl⟩
  · obtain ⟨c, r, rfl⟩ := List.exists_cons_of_ne_nil digits.1
    exact ⟨c, r, rfl, digits.2 c List.mem_cons_self⟩

theorem sign_ok (s : Text) : ∃ sign s₁, s = sign ++ s₁ ∧ (sign = [] ∨ sign = [.char '-']) ∧
    (if s.head? = some (.char '-') then 1 else 0) = sign.length := by
  cases s with
  | nil => exact ⟨[], [], rfl, .inl rfl, rfl⟩
  | cons c s =>
      by_cases minus : c = .char '-'
      · subst minus
        exact ⟨[.char '-'], s, rfl, .inr rfl, rfl⟩
      · exact ⟨[], c :: s, rfl, .inl rfl, if_neg fun h => minus (Option.some.inj h)⟩

/-- Can a number end in front of the text? -/
def EndsNumber (rest : Text) : Prop :=
  ∀ c ∈ rest.head?, c.isNameContinue = false ∧ c ≠ .char '.'

theorem EndsNumber.stops (ends : EndsNumber rest) : Stops rest := by
  intro c first
  refine Bool.eq_false_iff.mpr fun digit => ?_
  have other := (ends c first).1
  rw [digit_continues digit] at other
  cases other

theorem Apart.endsNumber (apart : Apart rest) : EndsNumber rest :=
  fun c first => ⟨(apart c first).1, (apart c first).2.1⟩

/-- Only letters, digits and underscores continue a name, and all but the digits start one. -/
theorem continues_cases {c : CodePoint} (h : c.isNameContinue = true) :
    c.isNameStart = true ∨ c.isAsciiDigit = true := by
  cases c with
  | surrogate => cases h
  | char c =>
      simp only [CodePoint.isNameContinue, Char.isAlphanum, Bool.or_eq_true] at h
      simp only [CodePoint.isNameStart, CodePoint.isAsciiDigit, Bool.or_eq_true]
      exact h.elim (·.imp_left .inl) fun underscore => .inl (.inr underscore)

theorem endsNumber_of_stops (stops : Stops rest)
    (other : ¬(rest.head?).any (fun p => p = .char '.' || p.isNameStart) = true) :
    EndsNumber rest := by
  intro c first
  rw [Option.mem_def.mp first, Option.any_some, Bool.or_eq_true, decide_eq_true_eq] at other
  obtain ⟨noPoint, noStart⟩ := not_or.mp other
  refine ⟨Bool.eq_false_iff.mpr fun continues => ?_, noPoint⟩
  obtain start | digit := continues_cases continues
  · exact noStart start
  · rw [stops c first] at digit
    cases digit

theorem number_ok {s : Text} {isFloat : Bool} {n : Nat} (h : Literal.number s = .ok (isFloat, n)) :
    ∃ d r, s = d ++ r ∧ n = d.length ∧ IsNumber isFloat d ∧ EndsNumber r := by
  obtain ⟨sign, s₁, rfl, signs, long⟩ := sign_ok s
  rw [Literal.number] at h
  dsimp only at h
  rw [long, List.drop_left] at h
  obtain ⟨n₁, whole, h⟩ := except_bind_ok h
  obtain ⟨x, s₂, rfl, rfl, isWhole, stops⟩ := whole_ok (after_ok whole)
  obtain ⟨n₂, fraction, h⟩ := except_bind_ok h
  rw [← List.append_assoc, List.drop_left' (by rw [List.length_append, Nat.add_comm])] at fraction
  obtain ⟨y, s₃, rfl, rfl, isFraction, stops'⟩ := fraction_ok (after_ok fraction)
  obtain ⟨n₃, exponent, h⟩ := except_bind_ok h
  rw [← List.append_assoc, ← List.append_assoc, List.drop_left'
    (by simp only [List.length_append]; omega)] at exponent
  obtain ⟨z, r, rfl, rfl, isExponent, stops''⟩ := exponent_ok (after_ok exponent)
  have text : sign ++ (x ++ (y ++ (z ++ r))) = sign ++ (x ++ (y ++ z)) ++ r := by
    simp only [List.append_assoc]
  have long' : x.length + sign.length + y.length + z.length =
      (sign ++ (x ++ (y ++ z))).length := by
    simp only [List.length_append]
    omega
  rw [text, long', List.drop_left] at h
  split at h
  next => cases h
  next other =>
    cases h
    refine ⟨sign ++ (x ++ (y ++ z)), r, text, rfl, ⟨sign, x, y, z, rfl, signs, isWhole, isFraction,
      isExponent, rfl⟩, endsNumber_of_stops ?_ other⟩
    -- The last part that is there ends with its digits.
    by_cases exponent : z = []
    · subst exponent
      by_cases fraction : y = []
      · subst fraction
        exact stops
      · exact stops' fraction
    · exact stops'' exponent

theorem fraction_begins {x r : Text} (fraction : IsFraction x) (h : Stops r) : Stops (x ++ r) := by
  obtain rfl | ⟨ds, rfl, -⟩ := fraction
  · exact h
  · exact stops_cons rfl

theorem exponent_begins {x r : Text} (exponent : IsExponent x) (h : Stops r)
    (noPoint : r.head? ≠ some (.char '.')) :
    Stops (x ++ r) ∧ (x ++ r).head? ≠ some (.char '.') := by
  obtain rfl | ⟨e, sign, ds, rfl, rfl | rfl, -⟩ := exponent
  · exact ⟨h, noPoint⟩
  · exact ⟨stops_cons rfl, by simp⟩
  · exact ⟨stops_cons rfl, by simp⟩

/-- A number is read as far as it goes in front of what can follow a lexeme. -/
theorem number_read {d : Text} {isFloat : Bool} (number : IsNumber isFloat d)
    (ends : EndsNumber rest) : Literal.number (d ++ rest) = .ok (isFloat, d.length) := by
  obtain ⟨sign, x, y, z, rfl, signs, isWhole, isFraction, isExponent, rfl⟩ := number
  have noPoint : rest.head? ≠ some (.char '.') := fun first => (ends _ first).2 rfl
  have noLetter : ¬(rest.head? = some (.char 'e') ∨ rest.head? = some (.char 'E')) := by
    rintro (first | first)
    · cases (ends _ first).1
    · cases (ends _ first).1
  have noName : (rest.head?).any (fun p => p = .char '.' || p.isNameStart) = false := by
    cases rest with
    | nil => rfl
    | cons c rest =>
        obtain ⟨other, noPoint⟩ := ends c rfl
        have noStart : c.isNameStart = false :=
          Bool.eq_false_iff.mpr fun start => by simp [nameStart_continues start] at other
        simp [noPoint, noStart]
  obtain ⟨stops, noPoint'⟩ := exponent_begins isExponent ends.stops noPoint
  have minus : (if List.head? (sign ++ (x ++ (y ++ (z ++ rest)))) = some (.char '-') then 1 else 0) =
      sign.length := by
    obtain ⟨c, r, rfl, digit⟩ := whole_first isWhole
    have other : c ≠ .char '-' := by
      rintro rfl
      cases digit
    obtain rfl | rfl := signs
    · simp [other]
    · rfl
  have text : sign ++ (x ++ (y ++ z)) ++ rest = sign ++ (x ++ (y ++ (z ++ rest))) := by
    simp only [List.append_assoc]
  have first : (sign ++ (x ++ (y ++ (z ++ rest)))).drop (x.length + sign.length) =
      y ++ (z ++ rest) := by
    rw [← List.append_assoc, List.drop_left' (by rw [List.length_append, Nat.add_comm])]
  have second : (sign ++ (x ++ (y ++ (z ++ rest)))).drop (x.length + sign.length + y.length) =
      z ++ rest := by
    rw [← List.drop_drop, first, List.drop_left]
  have third : (sign ++ (x ++ (y ++ (z ++ rest)))).drop
      (x.length + sign.length + y.length + z.length) = rest := by
    rw [← List.drop_drop, second, List.drop_left]
  have whole := whole_read isWhole (fraction_begins isFraction stops)
  have fraction := fraction_read isFraction stops noPoint'
  have exponent := exponent_read isExponent ends.stops noLetter
  rw [text, Literal.number]
  simp only [minus, List.drop_left, whole, Literal.after, bind, Except.bind, first, fraction, second,
    exponent, third, noName, Bool.false_eq_true, if_false, pure, Except.pure, List.length_append,
    Except.ok.injEq, Prod.mk.injEq, true_and]
  omega

theorem number_first {d : Text} {isFloat : Bool} (number : IsNumber isFloat d) :
    ∃ c r, d = c :: r ∧ (c.isAsciiDigit = true ∨ c = .char '-') := by
  obtain ⟨sign, x, y, z, rfl, rfl | rfl, isWhole, -⟩ := number
  · obtain ⟨c, r, rfl, digit⟩ := whole_first isWhole
    exact ⟨c, _, rfl, .inl digit⟩
  · exact ⟨.char '-', _, rfl, .inr rfl⟩

theorem numeric_other {c : CodePoint} (h : c.isAsciiDigit = true ∨ c = .char '-') :
    Lexed.isIgnored c = false ∧ Lexed.isMark c = false ∧ c ≠ .char '#' ∧ c ≠ .char '"' := by
  obtain digit | rfl := h
  · exact first_other (by decide) (by decide) digit
  · decide

/-- A number is the lexeme of itself. -/
theorem number_lexes {d : Text} {isFloat : Bool} (number : IsNumber isFloat d) :
    Lexes d (if isFloat then .float else .int, d) := by
  obtain ⟨c, r, rfl, numeric⟩ := number_first number
  obtain ⟨solid, noMark, noHash, noQuote⟩ := numeric_other numeric
  refine lexes_of_tokenAt solid noHash fun rest apart => ?_
  have read := number_read number apart.endsNumber
  have begins : (c.isAsciiDigit || decide (c = .char '-')) = true := by
    rw [Bool.or_eq_true, decide_eq_true_eq]
    exact numeric
  unfold Lexed.tokenAt
  rw [if_neg noQuote, if_neg (Bool.eq_false_iff.mp noMark), if_pos begins, ← List.cons_append, read]
  change Except.ok (_, (c :: r ++ rest).take (c :: r).length, _) = _
  rw [List.take_left]
  rfl

theorem digits_flat {ds : Text} (digits : IsDigits ds) : .char '\n' ∉ ds :=
  fun among => absurd (digits.2 _ among) (by decide)

theorem number_flat {d : Text} {isFloat : Bool} (number : IsNumber isFloat d) : .char '\n' ∉ d := by
  obtain ⟨sign, x, y, z, rfl, signs, whole, fraction, exponent, -⟩ := number
  simp only [List.mem_append, not_or]
  refine ⟨?_, ?_, ?_, ?_⟩
  · obtain rfl | rfl := signs <;> decide
  · obtain rfl | ⟨digits, -⟩ := whole
    · decide
    · exact digits_flat digits
  · obtain rfl | ⟨ds, rfl, digits⟩ := fraction
    · nofun
    · simpa using digits_flat digits
  · obtain rfl | ⟨e, sign, ds, rfl, letter, signs, digits⟩ := exponent
    · nofun
    · have flat := digits_flat digits
      obtain rfl | rfl := letter <;> obtain rfl | rfl | rfl := signs <;> simp [flat]

end GraphQL

end ApprovedOps
