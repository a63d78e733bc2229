import ApprovedOps.Proofs.Json.RoundTrip

/-! # Trees of JSON texts

A JSON text without what stands between its tokens is a tree. Its tokens are words, numbers and
strings, which the reader takes as they are whatever follows them, and the value of a tree is that of
its tokens. The only thing that can be wrong with a tree is an integer that has too many digits.
-/

namespace ApprovedOps

namespace Json

open Reader

/-! ## Tokens -/

/-- What may stand between the quotes of a string. -/
inductive StringBody : Text → Prop where
  | nil : StringBody []
  | plain {c s} : c ≠ .char '"' → c ≠ .char '\\' → ¬c.value < 0x20 → StringBody s →
      StringBody (c :: s)
  | letter {d s} : d ∈ Text.ofString "\"\\/bfnrt" → StringBody s → StringBody (.char '\\' :: d :: s)
  /-- `\u` and four hexadecimal digits. -/
  | numeric {digits s} : digits.length = 4 → (∀ d ∈ digits, d.hexValue?.isSome = true) →
      StringBody s → StringBody (.char '\\' :: .char 'u' :: (digits ++ s))

/-- A string with its quotes. -/
def between (body : Text) : Text :=
  .char '"' :: (body ++ [.char '"'])

/-- Is the text an exponent, or empty? -/
inductive IsExponent : Text → Prop where
  | absent : IsExponent []
  | present {letter sign ds} : letter = 'e' ∨ letter = 'E' → sign ∈ [[], ['+'], ['-']] → ds ≠ [] →
      (∀ d ∈ ds, d.isDigit = true) → IsExponent (.char letter :: numerals (sign ++ ds))

/-- Is the text a number? -/
def IsNumber (w : Text) : Prop :=
  ∃ negative ds fs power, w = signText negative ++ (numerals ds ++ (fractionText fs ++ power)) ∧
    Whole ds ∧ (∀ f ∈ fs, f ≠ [] ∧ ∀ d ∈ f, d.isDigit = true) ∧ IsExponent power

/-- What a number is written with. -/
theorem number_chars {P : CodePoint → Prop} {w : Text} (h : IsNumber w)
    (digit : ∀ d : Char, d.isDigit = true → P (.char d))
    (marks : ∀ c ∈ Text.ofString "-.eE+", P c) : ∀ c ∈ w, P c := by
  obtain ⟨negative, ds, fs, power, rfl, whole, fraction_, exponent_⟩ := h
  have run (ds : List Char) (all : ∀ d ∈ ds, d.isDigit = true) : ∀ c ∈ numerals ds, P c := by
    intro c among
    obtain ⟨d, member, rfl⟩ := List.mem_map.mp among
    exact digit d (all d member)
  have sign (cs : List Char) (all : cs ∈ [[], ['+'], ['-']]) : ∀ c ∈ numerals cs, P c := by
    simp only [List.mem_cons, List.not_mem_nil, or_false] at all
    obtain rfl | rfl | rfl := all
    · exact nofun
    · exact List.forall_mem_singleton.mpr (marks (.char '+') (by decide))
    · exact List.forall_mem_singleton.mpr (marks (.char '-') (by decide))
  intro c among
  obtain minus | among := List.mem_append.mp among
  · cases negative with
    | false => cases minus
    | true => exact sign ['-'] (by simp) c minus
  obtain whole_ | among := List.mem_append.mp among
  · exact run ds whole.all c whole_
  obtain point | among := List.mem_append.mp among
  · cases fs with
    | none => cases point
    | some f =>
        obtain rfl | later := List.mem_cons.mp point
        · exact marks (.char '.') (by decide)
        · exact run f (fraction_ f rfl).2 c later
  · cases exponent_ with
    | absent => cases among
    | @present letter sign_ es isLetter signs some_ all =>
        obtain rfl | later := List.mem_cons.mp among
        · obtain rfl | rfl := isLetter
          · exact marks (.char 'e') (by decide)
          · exact marks (.char 'E') (by decide)
        rw [numerals, List.map_append] at later
        obtain front | later := List.mem_append.mp later
        · exact sign sign_ signs c front
        · exact run es all c later

/-! ## Trees -/

/-- A JSON text without what stands between its tokens. -/
inductive Tree where
  /-- The word `null`. -/
  | null
  /-- Another word, with what it stands for. -/
  | word (w : Text) (v : Json)
  /-- A number. -/
  | number (w : Text)
  /-- A string, without its quotes. -/
  | string (body : Text)
  /-- An array. -/
  | array (items : List Tree)
  /-- An object, with the names of its members without their quotes. -/
  | object (members : List (Text × Tree))

namespace Tree

/-- What holds of the tokens, and of a tree whenever it holds of the trees in it, holds of all. -/
theorem induct {motive : Tree → Prop} (null : motive .null) (word : ∀ w v, motive (.word w v))
    (number : ∀ w, motive (.number w)) (string : ∀ body, motive (.string body))
    (array : ∀ items, (∀ v ∈ items, motive v) → motive (.array items))
    (object : ∀ members : List (Text × Tree), (∀ m ∈ members, motive m.2) → motive (.object members))
    (v : Tree) : motive v := by
  cases v with
  | null => exact null
  | word w v => exact word w v
  | number w => exact number w
  | string body => exact string body
  | array items =>
      exact array items fun v _ => induct null word number string array object v
  | object members =>
      exact object members fun m _ => induct null word number string array object m.2
termination_by sizeOf v
decreasing_by
  · have smaller := List.sizeOf_lt_of_mem ‹v ∈ items›
    simp only [Tree.array.sizeOf_spec]
    omega
  · have smaller := List.sizeOf_lt_of_mem ‹m ∈ members›
    have part : sizeOf m = 1 + sizeOf m.1 + sizeOf m.2 := by cases m; rfl
    simp only [Tree.object.sizeOf_spec]
    omega

/-- What a string stands for, given what is between its quotes. -/
def text (body : Text) : Text :=
  match Reader.string 0 (body ++ [.char '"']) with
  | .ok (t, _) => t
  | .error _ => []

mutual

/-- What a tree stands for. -/
def value : Tree → Except Failure Json
  | .null => .ok .null
  | .word _ v => .ok v
  | .number w => (Reader.number w).map (·.1)
  | .string body => .ok (.string (text body))
  | .array items => (values items).map .array
  | .object members => (fields [] members).map .object

/-- What the items of an array stand for. -/
def values : List Tree → Except Failure (List Json)
  | [] => .ok []
  | v :: vs => v.value.bind fun x => (values vs).map fun xs => x :: xs

/-- What the members of an object stand for, added to those before them. -/
def fields (before : Dictionary Json) : List (Text × Tree) → Except Failure (Dictionary Json)
  | [] => .ok before
  | (name, v) :: members => v.value.bind fun x => fields (before.insert (text name) x) members

end

end Tree

namespace Reader

/-! ## Strings -/

theorem escapeLetter?_letter {d : CodePoint} (h : d ∈ Text.ofString "\"\\/bfnrt") :
    ∃ p, escapeLetter? d = some p := by
  have letters : ∀ d ∈ Text.ofString "\"\\/bfnrt", (escapeLetter? d).isSome = true := by decide
  exact Option.isSome_iff_exists.mp (letters d h)

theorem letter_of_escape {d p : CodePoint} (h : escapeLetter? d = some p) :
    d ∈ Text.ofString "\"\\/bfnrt" := by
  unfold escapeLetter? at h
  split at h
  all_goals first | decide | cases h

/-- What is written between the quotes of a string may stand there. -/
theorem body_escape (t : Text) : StringBody (t.flatMap escape) := by
  induction t with
  | nil => exact .nil
  | cons p t ih =>
      rw [List.flatMap_cons]
      obtain ⟨d, text, letter⟩ | ⟨control, text⟩ | ⟨text, quote, slash, printable⟩ := escape_cases p
      · rw [text]
        exact .letter (letter_of_escape letter) ih
      · obtain ⟨x, y, digits, i, j, first, second, -⟩ := hex_control p.value control
        rw [text, digits]
        refine @StringBody.numeric ['0', '0', x, y] _ rfl ?_ ih
        intro d among
        simp only [List.mem_cons, List.not_mem_nil, or_false] at among
        obtain rfl | rfl | rfl | rfl := among
        · rfl
        · rfl
        · rw [first]
          rfl
        · rw [second]
          rfl
      · rw [text]
        exact .plain quote slash printable ih

theorem fourDigits?_digits {digits : Text} (four : digits.length = 4)
    (hex : ∀ d ∈ digits, d.hexValue?.isSome = true) :
    ∃ n, ∀ rest : Text, rest ≠ [] → ∃ h, fourDigits? (digits ++ rest) = some (n, ⟨rest, h⟩) := by
  match digits, four with
  | [a, b, c, d], _ =>
    obtain ⟨i, a_⟩ := Option.isSome_iff_exists.mp (hex a (by simp))
    obtain ⟨j, b_⟩ := Option.isSome_iff_exists.mp (hex b (by simp))
    obtain ⟨k, c_⟩ := Option.isSome_iff_exists.mp (hex c (by simp))
    obtain ⟨l, d_⟩ := Option.isSome_iff_exists.mp (hex d (by simp))
    refine ⟨((i * 16 + j) * 16 + k) * 16 + l, fun rest more => ?_⟩
    cases rest with
    | nil => exact absurd rfl more
    | cons e rest => exact ⟨⟨rfl, List.cons_ne_nil e rest⟩, by simp [fourDigits?, a_, b_, c_, d_]⟩

/-- After an escape in a string comes another numeric one, or none. -/
theorem afterEscapeU?_body {body : Text} (h : StringBody body) :
    (∃ digits s, body = .char '\\' :: .char 'u' :: (digits ++ s) ∧ digits.length = 4 ∧
      (∀ d ∈ digits, d.hexValue?.isSome = true) ∧ StringBody s) ∨
    ∀ rest, afterEscapeU? (body ++ .char '"' :: rest) = none := by
  cases h with
  | nil =>
      right
      intro rest
      cases rest <;> simp [afterEscapeU?]
  | @plain c s quote slash printable tail =>
      right
      intro rest
      cases s <;> simp [afterEscapeU?, slash]
  | @letter d s among tail =>
      right
      intro rest
      have notU : ∀ d ∈ Text.ofString "\"\\/bfnrt", d ≠ .char 'u' := by decide
      simp [afterEscapeU?, notU d among]
  | numeric four hex tail => exact .inl ⟨_, _, rfl, four, hex, tail⟩

/-- An escape that no escape of a low surrogate follows stands alone. -/
theorem numericEscape_alone {digits t : Text} {n : Nat} {h}
    (first : fourDigits? (digits ++ t) = some (n, ⟨t, h⟩))
    (alone : ¬(0xD800 ≤ n ∧ n < 0xDC00) ∨ afterEscapeU? t = none ∨
      ∃ digits₂ s low h₂, t = .char '\\' :: .char 'u' :: (digits₂ ++ s) ∧
        digits₂.length = 4 ∧ fourDigits? (digits₂ ++ s) = some (low, ⟨s, h₂⟩) ∧
        ¬(0xDC00 ≤ low ∧ low < 0xE000)) :
    Reads (numericEscape (digits ++ t)) (unit n) t := by
  refine ⟨by omega, ?_⟩
  rw [numericEscape, first]
  dsimp only
  split
  next isHigh =>
    obtain noHigh | noEscape | ⟨digits₂, s, low, ⟨h₂, some_⟩, rfl, four, second, noLow⟩ := alone
    · exact absurd isHigh noHigh
    · rw [noEscape]
    · have long : ¬(digits₂ ++ s).length < 5 := by
        have := List.length_pos_iff.mpr some_
        rw [List.length_append]
        omega
      simp only [afterEscapeU?, and_self, if_true]
      rw [if_neg long, second]
      dsimp only
      rw [if_neg noLow]
  next => rfl

/-- The escapes of a high and a low surrogate make one code point. -/
theorem numericEscape_pair {digits digits₂ s : Text} {high low : Nat} {h h₂}
    (first : fourDigits? (digits ++ .char '\\' :: .char 'u' :: (digits₂ ++ s)) =
      some (high, ⟨.char '\\' :: .char 'u' :: (digits₂ ++ s), h⟩))
    (second : fourDigits? (digits₂ ++ s) = some (low, ⟨s, h₂⟩))
    (four : digits₂.length = 4) (isHigh : 0xD800 ≤ high ∧ high < 0xDC00)
    (isLow : 0xDC00 ≤ low ∧ low < 0xE000) :
    Reads (numericEscape (digits ++ .char '\\' :: .char 'u' :: (digits₂ ++ s)))
      (unit (0x10000 + (high - 0xD800) * 0x400 + (low - 0xDC00))) s := by
  have long : ¬(digits₂ ++ s).length < 5 := by
    have := List.length_pos_iff.mpr h₂.2
    rw [List.length_append]
    omega
  refine ⟨by simp; omega, ?_⟩
  rw [numericEscape, first]
  simp only [isHigh, afterEscapeU?, and_self, if_true]
  rw [if_neg long, second]
  dsimp only
  rw [if_pos isLow]

/-- A numeric escape is read alone or together with the one that follows it. What comes after it is
    the body of a string again. -/
theorem numericEscape_body {digits s : Text} (four : digits.length = 4)
    (hex : ∀ d ∈ digits, d.hexValue?.isSome = true) (tail : StringBody s) :
    ∃ p front s', digits ++ s = front ++ s' ∧ 4 ≤ front.length ∧ StringBody s' ∧
      ∀ rest, Reads (numericEscape (front ++ (s' ++ .char '"' :: rest))) p
        (s' ++ .char '"' :: rest) := by
  obtain ⟨high, first⟩ := fourDigits?_digits four hex
  have more (s rest : Text) : s ++ .char '"' :: rest ≠ [] := by simp
  have alone (noPair : ∀ rest, ¬(0xD800 ≤ high ∧ high < 0xDC00) ∨
      afterEscapeU? (s ++ .char '"' :: rest) = none ∨
      ∃ digits₂ t low h₂, s ++ .char '"' :: rest = .char '\\' :: .char 'u' :: (digits₂ ++ t) ∧
        digits₂.length = 4 ∧ fourDigits? (digits₂ ++ t) = some (low, ⟨t, h₂⟩) ∧
        ¬(0xDC00 ≤ low ∧ low < 0xE000)) :
      ∃ p front s', digits ++ s = front ++ s' ∧ 4 ≤ front.length ∧ StringBody s' ∧
        ∀ rest, Reads (numericEscape (front ++ (s' ++ .char '"' :: rest))) p
          (s' ++ .char '"' :: rest) := by
    refine ⟨unit high, digits, s, rfl, Nat.le_of_eq four.symm, tail, fun rest => ?_⟩
    obtain ⟨h, first⟩ := first _ (more s rest)
    exact numericEscape_alone first (noPair rest)
  by_cases isHigh : 0xD800 ≤ high ∧ high < 0xDC00
  · obtain ⟨digits₂, s₂, rfl, four₂, hex₂, tail₂⟩ | none_ := afterEscapeU?_body tail
    · obtain ⟨low, second⟩ := fourDigits?_digits four₂ hex₂
      by_cases isLow : 0xDC00 ≤ low ∧ low < 0xE000
      · refine ⟨unit (0x10000 + (high - 0xD800) * 0x400 + (low - 0xDC00)),
          digits ++ .char '\\' :: .char 'u' :: digits₂, s₂, by simp, by simp; omega, tail₂,
          fun rest => ?_⟩
        obtain ⟨h₂, second⟩ := second _ (more s₂ rest)
        obtain ⟨h, first⟩ := first (.char '\\' :: .char 'u' ::
          (digits₂ ++ (s₂ ++ .char '"' :: rest))) (List.cons_ne_nil _ _)
        have pair := numericEscape_pair first second four₂ isHigh isLow
        rwa [List.append_assoc, List.cons_append, List.cons_append]
      · refine alone fun rest => .inr (.inr ?_)
        obtain ⟨h₂, second⟩ := second _ (more s₂ rest)
        exact ⟨digits₂, s₂ ++ .char '"' :: rest, low, h₂, by simp, four₂, second, isLow⟩
    · exact alone fun rest => .inr (.inl (none_ rest))
  · exact alone fun rest => .inl isHigh

/-- What a string stands for depends on what is between its quotes alone. -/
theorem string_body {body : Text} (h : StringBody body) :
    ∃ t, ∀ opening rest, Reads (string opening (body ++ .char '"' :: rest)) t rest := by
  cases h with
  | nil =>
      exact ⟨[], fun opening rest => string_quote opening [] rest⟩
  | @plain c s quote slash printable tail =>
      obtain ⟨t, reads⟩ := string_body tail
      exact ⟨c :: t, fun opening rest => string_plain quote slash printable (reads opening rest)⟩
  | @letter d s among tail =>
      obtain ⟨p, letter⟩ := escapeLetter?_letter among
      obtain ⟨t, reads⟩ := string_body tail
      exact ⟨p :: t, fun opening rest => string_letter letter (reads opening rest)⟩
  | @numeric digits s four hex tail =>
      obtain ⟨p, front, s', split, long, tail', escape⟩ := numericEscape_body four hex tail
      obtain ⟨t, reads⟩ := string_body tail'
      refine ⟨p :: t, fun opening rest => ?_⟩
      have read := string_numeric (escape rest) (reads opening rest)
      rwa [← List.append_assoc, ← split] at read
termination_by body.length
decreasing_by
  · simp
  · simp only [List.length_cons]; omega
  · have same := congrArg List.length split
    simp at same ⊢
    omega

theorem text_reads {body : Text} (h : StringBody body) (opening : Nat) (rest : Text) :
    Reads (string opening (body ++ .char '"' :: rest)) (Tree.text body) rest := by
  obtain ⟨t, reads⟩ := string_body h
  have same : Tree.text body = t := by
    obtain ⟨shorter, alone⟩ := reads 0 []
    rw [Tree.text, alone]
  rw [same]
  exact reads opening rest

theorem value_between {body : Text} (h : StringBody body) (rest : Text) :
    Reads (value (between body ++ rest)) (.string (Tree.text body)) rest := by
  have text : between body ++ rest = .char '"' :: (body ++ .char '"' :: rest) := by
    simp [between]
  obtain ⟨shorter, reads⟩ := text_reads h ((body ++ .char '"' :: rest).length + 1) rest
  rw [text]
  refine ⟨length_lt_cons_of_lt _ shorter, ?_⟩
  rw [value.eq_def]
  dsimp only
  rw [if_pos rfl, reads]
  rfl

theorem memberName_between {body : Text} (h : StringBody body) (rest : Text) :
    Reads (memberName (between body ++ rest)) (Tree.text body) rest := by
  have text : between body ++ rest = .char '"' :: (body ++ .char '"' :: rest) := by
    simp [between]
  obtain ⟨shorter, reads⟩ := text_reads h ((body ++ .char '"' :: rest).length + 1) rest
  rw [text]
  refine ⟨length_lt_cons_of_lt _ shorter, ?_⟩
  rw [memberName, if_pos rfl, reads]
  rfl

/-! ## Numbers -/

theorem exponent_digits {letter : Char} {sign ds : List Char} {rest : Text}
    (isLetter : letter = 'e' ∨ letter = 'E') (among : sign ∈ [[], ['+'], ['-']]) (some_ : ds ≠ [])
    (all : ∀ d ∈ ds, d.isDigit = true) (stops : Stops rest) :
    ∃ h, exponent (.char letter :: numerals (sign ++ ds) ++ rest) =
      (some (if sign = ['-'] then -(digitsValue (numerals ds) : Int) else digitsValue (numerals ds)),
        ⟨rest, h⟩) := by
  have opens : (CodePoint.char letter = .char 'e' ∨ CodePoint.char letter = .char 'E') ∧
      numerals ds ≠ [] := by
    refine ⟨?_, by simpa [numerals] using some_⟩
    obtain rfl | rfl := isLetter
    · exact .inl rfl
    · exact .inr rfl
  have signed : ∃ h, exponentSign (numerals sign ++ (numerals ds ++ rest)) =
      (decide (sign = ['-']), ⟨numerals ds ++ rest, h⟩) := by
    simp only [List.mem_cons, List.not_mem_nil, or_false] at among
    obtain rfl | rfl | rfl := among
    · cases ds with
      | nil => exact absurd rfl some_
      | cons d ds =>
          have noSign : d ≠ '-' ∧ d ≠ '+' := by
            constructor <;>
            · rintro rfl
              cases all _ List.mem_cons_self
          change ∃ h, exponentSign (.char d :: (numerals ds ++ rest)) =
            (false, ⟨.char d :: (numerals ds ++ rest), h⟩)
          exact ⟨Nat.le_refl _, by simp [exponentSign, noSign]⟩
    · exact ⟨length_le_cons _ _, rfl⟩
    · exact ⟨length_le_cons _ _, rfl⟩
  obtain ⟨run, left⟩ := digits_numerals all fun c first => (stops c first).1
  obtain ⟨shorter, signed⟩ := signed
  have text : .char letter :: numerals (sign ++ ds) ++ rest =
      .char letter :: (numerals sign ++ (numerals ds ++ rest)) := by
    simp [numerals]
  have parts : digits (numerals ds ++ rest) = (numerals ds, ⟨rest, by simp⟩) :=
    Prod.ext run (Subtype.ext left)
  rw [text]
  refine ⟨by simp; omega, ?_⟩
  rw [exponent, signed]
  dsimp only
  rw [parts]
  dsimp only
  rw [if_pos opens]
  simp only [decide_eq_true_eq]

theorem exponent_token {power : Text} (h : IsExponent power) :
    ∃ e, ∀ rest, Stops rest → ∃ h, exponent (power ++ rest) = (e, ⟨rest, h⟩) := by
  cases h with
  | absent => exact ⟨none, fun rest stops => exponent_text (e := none) stops⟩
  | present isLetter among some_ all =>
      exact ⟨_, fun rest stops => exponent_digits isLetter among some_ all stops⟩

/-- What a number stands for, given its parts. -/
def numberOf (negative : Bool) (ds : Text) (fs : Option Text) (power : Option Int) :
    Except Failure Json :=
  if fs.isNone ∧ power.isNone then
    if maxIntegerDigits < ds.length then
      .error (.integerTooLong ds.length)
    else
      .ok (.integer (if negative then -(digitsValue ds : Int) else digitsValue ds))
  else
    .ok (.real (.ofDecimal negative (digitsValue (ds ++ fs.getD []))
      (power.getD 0 - (fs.getD []).length)))

theorem number_parts {s r₀ r₁ r₂ r₃ ds : Text} {negative : Bool} {fs : Option Text}
    {power : Option Int}
    (signed : ∃ h, sign s = (negative, ⟨r₀, h⟩)) (whole : ∃ h, whole? r₀ = some (ds, ⟨r₁, h⟩))
    (fraction_ : ∃ h, fraction r₁ = (fs, ⟨r₂, h⟩))
    (exponent_ : ∃ h, exponent r₂ = (power, ⟨r₃, h⟩)) :
    Gives (number s) (numberOf negative ds fs power) r₃ := by
  obtain ⟨integer, real⟩ := number_eq signed whole fraction_ exponent_
  unfold numberOf
  split
  next none_ =>
    obtain ⟨noFraction, noExponent⟩ := none_
    rw [Option.isNone_iff_eq_none] at noFraction noExponent
    split
    next long =>
      obtain ⟨h₀, signed⟩ := signed
      obtain ⟨h₁, whole⟩ := whole
      obtain ⟨h₂, fraction_⟩ := fraction_
      obtain ⟨h₃, exponent_⟩ := exponent_
      subst noFraction noExponent
      change number s = .error _
      rw [number, signed]
      dsimp only
      rw [whole]
      dsimp only
      rw [fraction_]
      dsimp only
      rw [exponent_]
      dsimp only
      rw [if_pos ⟨rfl, rfl⟩, if_pos long]
    next short => exact integer noFraction noExponent (Nat.not_lt.mp short)
  next some_ =>
    rw [Option.isNone_iff_eq_none, Option.isNone_iff_eq_none] at some_
    exact real (not_and_or.mp some_)

/-- The parts of a number are taken off one after the other. -/
theorem number_pieces (negative : Bool) {ds : List Char} {fs : Option (List Char)}
    {power rest : Text} (whole : Whole ds) (fraction_ : ∀ f ∈ fs, f ≠ [] ∧ ∀ d ∈ f, d.isDigit = true)
    (exponent_ : IsExponent power) (stops : Stops rest) :
    (∃ h, sign (signText negative ++ (numerals ds ++ (fractionText fs ++ power)) ++ rest) =
      (negative, ⟨numerals ds ++ (fractionText fs ++ (power ++ rest)), h⟩)) ∧
    (∃ h, whole? (numerals ds ++ (fractionText fs ++ (power ++ rest))) =
      some (numerals ds, ⟨fractionText fs ++ (power ++ rest), h⟩)) ∧
    ∃ h, fraction (fractionText fs ++ (power ++ rest)) = (fs.map numerals, ⟨power ++ rest, h⟩) := by
  have afterExponent : ∀ c, (power ++ rest).head? = some c →
      c.isAsciiDigit = false ∧ c ≠ .char '.' := by
    intro c first
    cases exponent_ with
    | absent => exact ⟨(stops c first).1, (stops c first).2.1⟩
    | present isLetter among some_ all =>
        cases first
        obtain rfl | rfl := isLetter
        · exact ⟨rfl, by decide⟩
        · exact ⟨rfl, by decide⟩
  have afterFraction : ∀ c, (fractionText fs ++ (power ++ rest)).head? = some c →
      c.isAsciiDigit = false := by
    intro c first
    cases fs with
    | none => exact (afterExponent c first).1
    | some f =>
        cases first
        rfl
  have text : signText negative ++ (numerals ds ++ (fractionText fs ++ power)) ++ rest =
      signText negative ++ (numerals ds ++ (fractionText fs ++ (power ++ rest))) := by
    simp
  rw [text]
  exact ⟨sign_text negative whole, whole?_numerals whole afterFraction,
    fraction_text fraction_ afterExponent⟩

/-- What a number stands for does not depend on what follows it. -/
theorem number_token {w : Text} (h : IsNumber w) :
    ∃ negative ds fs power, ∀ rest, Stops rest →
      Gives (number (w ++ rest)) (numberOf negative ds fs power) rest := by
  obtain ⟨negative, ds, fs, power, rfl, whole, fraction_, exponent_⟩ := h
  obtain ⟨e, token⟩ := exponent_token exponent_
  refine ⟨negative, numerals ds, fs.map numerals, e, fun rest stops => ?_⟩
  obtain ⟨signed, first, second⟩ := number_pieces negative whole fraction_ exponent_ stops
  exact number_parts signed first second (token rest stops)

theorem numeric_token {w : Text} (h : IsNumber w) (rest : Text) : Numeric (w ++ rest) := by
  obtain ⟨negative, ds, fs, power, rfl, whole, fraction_, exponent_⟩ := h
  obtain ⟨all, some_, -⟩ := whole
  cases ds with
  | nil => exact absurd rfl some_
  | cons d ds =>
      refine ⟨d, numerals ds ++ (fractionText fs ++ power) ++ rest, all d List.mem_cons_self, ?_⟩
      cases negative with
      | true => exact .inr rfl
      | false => exact .inl rfl

theorem value_outcome {w : Text} {outcome : Except Failure Json} (gives : Gives (number w) outcome []) :
    (Tree.number w).value = outcome := by
  rw [Tree.value]
  cases outcome with
  | error e =>
      have fails : number w = .error e := gives
      rw [fails]
      rfl
  | ok v =>
      obtain ⟨shorter, reads⟩ := gives
      rw [reads]
      rfl

theorem value_token {w : Text} (h : IsNumber w) {rest : Text} (stops : Stops rest) :
    Gives (value (w ++ rest)) (Tree.number w).value rest := by
  obtain ⟨negative, ds, fs, power, gives⟩ := number_token h
  have alone := gives [] stops_nil
  rw [List.append_nil] at alone
  rw [value_outcome alone, value_numeric (numeric_token h rest)]
  exact gives rest stops

/-! ## What can be wrong -/

/-- Is a failure about the digits of an integer the only one that there can be? -/
def OnlyTooLong {α : Type} (outcome : Except Failure α) : Prop :=
  ∀ e, outcome = .error e → ∃ digits, e = .integerTooLong digits

theorem onlyTooLong_ok {α : Type} (a : α) : OnlyTooLong (.ok a) := nofun

theorem onlyTooLong_bind {α β : Type} {x : Except Failure α} {f : α → Except Failure β}
    (first : OnlyTooLong x) (second : ∀ a, OnlyTooLong (f a)) : OnlyTooLong (x.bind f) := by
  intro e fails
  cases x with
  | error e' =>
      cases fails
      exact first _ rfl
  | ok a => exact second a e fails

theorem onlyTooLong_map {α β : Type} {x : Except Failure α} (f : α → β) (h : OnlyTooLong x) :
    OnlyTooLong (x.map f) :=
  onlyTooLong_bind h fun a => onlyTooLong_ok (f a)

theorem onlyTooLong_number {w : Text} (h : IsNumber w) : OnlyTooLong (Tree.number w).value := by
  obtain ⟨negative, ds, fs, power, gives⟩ := number_token h
  have alone := gives [] stops_nil
  rw [List.append_nil] at alone
  rw [value_outcome alone, numberOf]
  intro e fails
  split at fails
  · split at fails
    · cases fails
      exact ⟨_, rfl⟩
    · cases fails
  · cases fails

theorem onlyTooLong_values {items : List Tree} (all : ∀ v ∈ items, OnlyTooLong v.value) :
    OnlyTooLong (Tree.values items) := by
  induction items with
  | nil => exact onlyTooLong_ok []
  | cons v vs ih =>
      obtain ⟨first, later⟩ := List.forall_mem_cons.mp all
      exact onlyTooLong_bind first fun x => onlyTooLong_map _ (ih later)

theorem onlyTooLong_fields {members : List (Text × Tree)}
    (all : ∀ x ∈ members, OnlyTooLong x.2.value) (before : Dictionary Json) :
    OnlyTooLong (Tree.fields before members) := by
  induction members generalizing before with
  | nil => exact onlyTooLong_ok before
  | cons x xs ih =>
      obtain ⟨first, later⟩ := List.forall_mem_cons.mp all
      exact onlyTooLong_bind first fun v => ih later _

end Reader

end Json

end ApprovedOps
