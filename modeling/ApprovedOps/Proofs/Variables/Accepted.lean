import ApprovedOps.Proofs.Variables.Decorated

/-! # JSON is a text of a tree

Whatever is read as JSON consists of tokens with blanks between them, in the order that a tree gives
them. So what holds of all plain texts of trees holds of all JSON.
-/

namespace ApprovedOps

namespace Json.Reader

/-! ## Tokens that are read -/

theorem fourDigits?_some {s r : Text} {n : Nat} {h} (found : fourDigits? s = some (n, ⟨r, h⟩)) :
    ∃ digits, s = digits ++ r ∧ digits.length = 4 ∧ ∀ d ∈ digits, d.hexValue?.isSome = true := by
  match s, h, found with
  | a :: b :: c :: d :: e :: t, _, found =>
    rw [fourDigits?] at found
    split at found
    next i j k l a_ b_ c_ d_ =>
      cases found
      refine ⟨[a, b, c, d], rfl, rfl, ?_⟩
      simp [a_, b_, c_, d_]
    next => cases found

theorem afterEscapeU?_some {s r : Text} {h} (found : afterEscapeU? s = some ⟨r, h⟩) :
    s = .char '\\' :: .char 'u' :: r := by
  match s, h, found with
  | c :: d :: t, _, found =>
    rw [afterEscapeU?] at found
    split at found
    next escape =>
      obtain ⟨rfl, rfl⟩ := escape
      cases found
      rfl
    next => cases found

/-- A numeric escape is one group of digits, or two with another escape between them. -/
theorem numericEscape_taken {s r : Text} {p : CodePoint} {h}
    (read : numericEscape s = .ok (p, ⟨r, h⟩)) {body : Text} (rest : StringBody body) :
    ∃ front, s = front ++ r ∧ StringBody (.char '\\' :: .char 'u' :: (front ++ body)) := by
  rw [numericEscape] at read
  split at read
  next => cases read
  next high r₁ h₁ first =>
    obtain ⟨digits, rfl, four, hex⟩ := fourDigits?_some first
    have alone (same : r₁ = r) : ∃ front, digits ++ r₁ = front ++ r ∧
        StringBody (.char '\\' :: .char 'u' :: (front ++ body)) := by
      subst same
      exact ⟨digits, rfl, .numeric four hex rest⟩
    dsimp only at read
    split at read
    next =>
      split at read
      next => cases read; exact alone rfl
      next t ht escape =>
        obtain rfl := afterEscapeU?_some escape
        split at read
        next => cases read; exact alone rfl
        next =>
          split at read
          next => cases read
          next low r₂ h₂ second =>
            obtain ⟨digits₂, rfl, four₂, hex₂⟩ := fourDigits?_some second
            split at read
            next =>
              simp only [Except.ok.injEq, Prod.mk.injEq, Subtype.mk.injEq] at read
              obtain ⟨-, rfl⟩ := read
              refine ⟨digits ++ .char '\\' :: .char 'u' :: digits₂, by simp, ?_⟩
              have whole := StringBody.numeric four hex (.numeric four₂ hex₂ rest)
              simpa using whole
            next => cases read; exact alone rfl
    next => cases read; exact alone rfl

theorem string_taken {opening : Nat} {s t r : Text} {h} (read : string opening s = .ok (t, ⟨r, h⟩)) :
    ∃ body, s = body ++ .char '"' :: r ∧ StringBody body := by
  match s, h, read with
  | [], _, read =>
    rw [string.eq_def] at read
    cases read
  | [c], _, read =>
    rw [string.eq_def] at read
    dsimp only at read
    split at read
    next quote =>
      cases read
      exact ⟨[], by rw [quote]; rfl, .nil⟩
    split at read
    next => cases read
    split at read
    next => cases read
    next =>
      obtain ⟨_, string_, -⟩ := except_bind_ok read
      rw [string.eq_def] at string_
      cases string_
  | c :: d :: s, _, read =>
    rw [string.eq_def] at read
    dsimp only at read
    split at read
    next quote =>
      cases read
      exact ⟨[], by rw [quote]; rfl, .nil⟩
    next quote =>
      split at read
      next backslash =>
        subst backslash
        split at read
        next letter =>
          subst letter
          obtain ⟨⟨p, r₁, h₁⟩, escape_, read⟩ := except_bind_ok read
          obtain ⟨⟨tail, r₂, h₂⟩, string_, read⟩ := except_bind_ok read
          cases read
          obtain ⟨body, rfl, isBody⟩ := string_taken string_
          obtain ⟨front, rfl, whole⟩ := numericEscape_taken escape_ isBody
          exact ⟨_, by simp, whole⟩
        next =>
          split at read
          next => cases read
          next p letter =>
            obtain ⟨⟨tail, r₁, h₁⟩, string_, read⟩ := except_bind_ok read
            cases read
            obtain ⟨body, rfl, isBody⟩ := string_taken string_
            exact ⟨_, rfl, .letter (letter_of_escape letter) isBody⟩
      next slash =>
        split at read
        next => cases read
        next printable =>
          obtain ⟨⟨tail, r₁, h₁⟩, string_, read⟩ := except_bind_ok read
          cases read
          obtain ⟨body, text, isBody⟩ := string_taken string_
          exact ⟨c :: body, congrArg (c :: ·) text, .plain quote slash printable isBody⟩
termination_by s.length
decreasing_by all_goals simp only [List.length_cons]; omega

/-- A run of digits is one of decimal digits. -/
theorem digits_numerals_of {s ds r : Text} {h} (found : digits s = (ds, ⟨r, h⟩)) :
    ∃ cs, ds = numerals cs ∧ s = numerals cs ++ r ∧ ∀ d ∈ cs, d.isDigit = true := by
  cases found
  have all : ∀ d ∈ s.takeWhile CodePoint.isAsciiDigit, d.isAsciiDigit = true :=
    fun d among => List.all_eq_true.mp List.all_takeWhile d among
  have split := (List.takeWhile_append_dropWhile (p := CodePoint.isAsciiDigit) (l := s)).symm
  generalize s.takeWhile CodePoint.isAsciiDigit = run at all split
  have chars : ∃ cs, run = numerals cs ∧ ∀ d ∈ cs, d.isDigit = true := by
    clear split
    induction run with
    | nil => exact ⟨[], rfl, nofun⟩
    | cons c run ih =>
        obtain ⟨cs, rfl, digits_⟩ := ih fun d among => all d (List.mem_cons_of_mem _ among)
        cases c with
        | surrogate offset => cases all _ List.mem_cons_self
        | char d =>
            exact ⟨d :: cs, rfl, List.forall_mem_cons.mpr ⟨all _ List.mem_cons_self, digits_⟩⟩
  obtain ⟨cs, rfl, digits_⟩ := chars
  exact ⟨cs, rfl, split, digits_⟩

theorem sign_taken {s r : Text} {negative : Bool} {h} (found : sign s = (negative, ⟨r, h⟩)) :
    s = signText negative ++ r := by
  cases s with
  | nil => cases found; rfl
  | cons c t =>
      rw [sign] at found
      split at found
      next minus =>
        cases found
        rw [minus]
        rfl
      next => cases found; rfl

theorem whole?_taken {s ds r : Text} {h} (found : whole? s = some (ds, ⟨r, h⟩)) :
    ∃ cs, ds = numerals cs ∧ s = numerals cs ++ r ∧ Whole cs := by
  cases s with
  | nil => cases found
  | cons c t =>
      rw [whole?] at found
      split at found
      next zero =>
        cases found
        rw [zero]
        exact ⟨['0'], rfl, rfl, whole_zero⟩
      next notZero =>
        split at found
        next digit =>
          generalize run : digits t = digits_ at found
          obtain ⟨ds₁, r₁, h₁⟩ := digits_
          cases found
          obtain ⟨cs, rfl, rfl, all⟩ := digits_numerals_of run
          cases c with
          | surrogate offset => cases digit
          | char d =>
              refine ⟨d :: cs, rfl, rfl, List.forall_mem_cons.mpr ⟨digit, all⟩,
                List.cons_ne_nil _ _, .inr ?_⟩
              simpa using notZero
        next => cases found

theorem fraction_taken {s r : Text} {fs : Option Text} {h} (found : fraction s = (fs, ⟨r, h⟩)) :
    ∃ fs', s = fractionText fs' ++ r ∧ ∀ f ∈ fs', f ≠ [] ∧ ∀ d ∈ f, d.isDigit = true := by
  cases s with
  | nil =>
      cases found
      exact ⟨none, rfl, nofun⟩
  | cons c t =>
      rw [fraction] at found
      generalize run : digits t = digits_ at found
      obtain ⟨ds, r₁, h₁⟩ := digits_
      dsimp only at found
      obtain ⟨cs, rfl, rfl, all⟩ := digits_numerals_of run
      split at found
      next point =>
        cases found
        obtain ⟨rfl, some_⟩ := point
        refine ⟨some cs, rfl, ?_⟩
        rintro f ⟨⟩
        exact ⟨by rintro rfl; exact some_ rfl, all⟩
      next =>
        cases found
        exact ⟨none, rfl, nofun⟩

theorem exponent_taken {s r : Text} {power : Option Int} {h}
    (found : exponent s = (power, ⟨r, h⟩)) : ∃ w, s = w ++ r ∧ IsExponent w := by
  cases s with
  | nil =>
      cases found
      exact ⟨[], rfl, .absent⟩
  | cons c t =>
      rw [exponent] at found
      generalize signed : exponentSign t = signed_ at found
      obtain ⟨negative, r₁, h₁⟩ := signed_
      dsimp only at found
      generalize run : digits r₁ = digits_ at found
      obtain ⟨ds, r₂, h₂⟩ := digits_
      dsimp only at found
      obtain ⟨sign, among, rfl⟩ : ∃ sign ∈ [[], ['+'], ['-']], t = numerals sign ++ r₁ := by
        cases t with
        | nil =>
            cases signed
            exact ⟨[], by simp, rfl⟩
        | cons d t =>
            rw [exponentSign] at signed
            split at signed
            next minus =>
              cases signed
              exact ⟨['-'], by simp, by rw [minus]; rfl⟩
            split at signed
            next plus =>
              cases signed
              exact ⟨['+'], by simp, by rw [plus]; rfl⟩
            next =>
              cases signed
              exact ⟨[], by simp, rfl⟩
      obtain ⟨cs, rfl, rfl, all⟩ := digits_numerals_of run
      split at found
      next letter =>
        cases found
        obtain ⟨isLetter, some_⟩ := letter
        have some_' : cs ≠ [] := by
          rintro rfl
          exact some_ rfl
        obtain rfl | rfl := isLetter
        · exact ⟨_, by simp [numerals], .present (.inl rfl) among some_' all⟩
        · exact ⟨_, by simp [numerals], .present (.inr rfl) among some_' all⟩
      next =>
        cases found
        exact ⟨[], rfl, .absent⟩

theorem number_taken {s r : Text} {v : Json} {h} (read : number s = .ok (v, ⟨r, h⟩)) :
    ∃ w, s = w ++ r ∧ IsNumber w := by
  rw [number] at read
  generalize signed : sign s = signed_ at read
  obtain ⟨negative, r₀, h₀⟩ := signed_
  dsimp only at read
  split at read
  next => cases read
  next ds r₁ h₁ whole =>
    obtain ⟨cs, rfl, rfl, whole_⟩ := whole?_taken whole
    generalize fraction_ : fraction r₁ = taken at read
    obtain ⟨fs, r₂, h₂⟩ := taken
    dsimp only at read
    generalize exponent_ : exponent r₂ = taken at read
    obtain ⟨power, r₃, h₃⟩ := taken
    dsimp only at read
    obtain rfl := sign_taken signed
    obtain ⟨fs', rfl, all⟩ := fraction_taken fraction_
    obtain ⟨w, rfl, isExponent⟩ := exponent_taken exponent_
    have isNumber : IsNumber (signText negative ++ (numerals cs ++ (fractionText fs' ++ w))) :=
      ⟨negative, cs, fs', w, rfl, whole_, all, isExponent⟩
    split at read
    · split at read
      · cases read
      · cases read
        exact ⟨_, by simp, isNumber⟩
    · cases read
      exact ⟨_, by simp, isNumber⟩

theorem word?_taken {s r : Text} {ws : List (Text × Json)} {v : Json} {h}
    (found : word? s ws = some (v, ⟨r, h⟩)) : ∃ w, s = w ++ r ∧ (w, v) ∈ ws := by
  induction ws with
  | nil => cases found
  | cons w ws ih =>
      obtain ⟨word, v'⟩ := w
      cases word with
      | nil =>
          obtain ⟨w, text, among⟩ := ih found
          exact ⟨w, text, List.mem_cons_of_mem _ among⟩
      | cons c word =>
          rw [word?] at found
          split at found
          next starts =>
            cases found
            obtain ⟨rest, rfl⟩ := List.isPrefixOf_iff_prefix.mp starts
            exact ⟨c :: word, by simp, List.mem_cons_self⟩
          next =>
            obtain ⟨w, text, among⟩ := ih found
            exact ⟨w, text, List.mem_cons_of_mem _ among⟩

theorem memberName_taken {s r key : Text} {h} (read : memberName s = .ok (key, ⟨r, h⟩)) :
    ∃ body, s = between body ++ r ∧ StringBody body := by
  cases s with
  | nil => cases read
  | cons c t =>
      rw [memberName] at read
      split at read
      next quote =>
        obtain ⟨⟨key', r₁, h₁⟩, string_, read⟩ := except_bind_ok read
        cases read
        obtain ⟨body, rfl, isBody⟩ := string_taken string_
        exact ⟨body, by simp [between, quote], isBody⟩
      next => cases read

/-! ## Brackets and separators that are read -/

theorem blanks_taken (s : Text) :
    ∃ g, s = g ++ (skipBlanks s).1 ∧ ∀ c ∈ g, isBlank c = true :=
  ⟨s.takeWhile isBlank, List.takeWhile_append_dropWhile.symm,
    fun c among => List.all_eq_true.mp List.all_takeWhile c among⟩

theorem closing?_taken {close : Char} {s r : Text} {h} (found : closing? close s = some ⟨r, h⟩) :
    ∃ g, s = g ++ .char close :: r ∧ ∀ c ∈ g, isBlank c = true := by
  obtain ⟨g, text, blanks⟩ := blanks_taken s
  rw [closing?] at found
  generalize skipBlanks s = skipped at text found
  obtain ⟨t, h⟩ := skipped
  cases t with
  | nil => cases found
  | cons c t =>
      dsimp only at found
      split at found
      next same =>
        cases found
        subst same
        exact ⟨g, text, blanks⟩
      next => cases found

theorem separator_taken {c : Char} {cause : Cause} {s r : Text} {h}
    (read : separator c cause s = .ok ⟨r, h⟩) :
    ∃ g g', s = g ++ .char c :: (g' ++ r) ∧ (∀ c ∈ g, isBlank c = true) ∧
      ∀ c ∈ g', isBlank c = true := by
  obtain ⟨g, text, blanks⟩ := blanks_taken s
  rw [separator] at read
  generalize skipBlanks s = skipped at text read
  obtain ⟨t, h⟩ := skipped
  cases t with
  | nil => cases read
  | cons d t =>
      dsimp only at read text
      split at read
      next same =>
        subst same
        obtain ⟨g', text', blanks'⟩ := blanks_taken t
        cases read
        exact ⟨g, g', by rw [text]; exact congrArg (g ++ CodePoint.char c :: ·) text', blanks, blanks'⟩
      next => cases read

end Json.Reader

namespace Variables

open Json Json.Reader

/-! ## Texts that are read -/

theorem gap_of_blanks {m : Manner} {g : Text} (blanks : ∀ c ∈ g, isBlank c = true) : Gap m g := by
  induction g with
  | nil => exact .nil
  | cons c g ih =>
      obtain ⟨first, later⟩ := List.forall_mem_cons.mp blanks
      exact .blank first (ih later)

/-- What begins a series may have a gap in front of it. -/
theorem series_gap {α : Type} {m : Manner} {each : α → Text → Prop} {xs : List α} {g s : Text}
    (h : Series m each xs s) (gap : Gap m g) : Series m each xs (g ++ s) := by
  cases h with
  | last first laid tail =>
      rw [← List.append_assoc]
      exact .last (gap_append gap first) laid tail
  | next first laid between_ rest =>
      rw [← List.append_assoc]
      exact .next (gap_append gap first) laid between_ rest

mutual

/-- What is read as a value is the text of a tree. -/
theorem value_laid {s r : Text} {x : Json} {h} (read : value s = .ok (x, ⟨r, h⟩)) :
    ∃ v w, s = w ++ r ∧ Laid Manner.plain v w := by
  match s, h, read with
  | [], _, read =>
    rw [value.eq_def] at read
    cases read
  | c :: t, _, read =>
    obtain ⟨g, text, blanks⟩ := blanks_taken t
    have gap : Gap Manner.plain g := gap_of_blanks blanks
    rw [value.eq_def] at read
    dsimp only at read
    generalize skipBlanks t = inside at text read
    obtain ⟨u, shorter⟩ := inside
    dsimp only at text read
    split at read
    next quote =>
      obtain ⟨⟨text, r₁, h₁⟩, string_, read⟩ := except_bind_ok read
      cases read
      obtain ⟨body, rfl, isBody⟩ := string_taken string_
      exact ⟨.string body, between body, by simp [between, quote], .string isBody⟩
    split at read
    next brace =>
      subst brace
      split at read
      next closed =>
        cases read
        obtain ⟨g, rfl, blanks⟩ := closing?_taken closed
        exact ⟨.object [], _, by simp, .noMember (gap_of_blanks blanks)⟩
      next =>
        obtain ⟨⟨fields, r₂, h₂⟩, members_, read⟩ := except_bind_ok read
        obtain ⟨members, w, rfl, series⟩ := members_laid members_
        cases read
        exact ⟨.object members, _, by simp [text], .object (series_gap series gap)⟩
    split at read
    next bracket =>
      subst bracket
      split at read
      next closed =>
        cases read
        obtain ⟨g, rfl, blanks⟩ := closing?_taken closed
        exact ⟨.array [], _, by simp, .noItem (gap_of_blanks blanks)⟩
      next =>
        obtain ⟨⟨items, r₂, h₂⟩, elements_, read⟩ := except_bind_ok read
        obtain ⟨vs, w, rfl, series⟩ := elements_laid elements_
        cases read
        exact ⟨.array vs, _, by simp [text], .array (series_gap series gap)⟩
    split at read
    next word =>
      cases read
      obtain ⟨w, whole, among⟩ := word?_taken word
      exact ⟨.word w x, w, whole, .word among⟩
    next =>
      obtain ⟨w, whole, isNumber⟩ := number_taken read
      exact ⟨.number w, w, whole, .number isNumber⟩
termination_by (s.length, 0)
decreasing_by all_goals exact Prod.Lex.left _ _ (by simp only [List.length_cons]; omega)

theorem elements_laid {s r : Text} {xs : List Json} {h} (read : elements s = .ok (xs, ⟨r, h⟩)) :
    ∃ vs w, s = w ++ .char ']' :: r ∧ Series Manner.plain (Laid Manner.plain) vs w := by
  rw [elements] at read
  obtain ⟨⟨x, r₁, h₁⟩, value_, read⟩ := except_bind_ok read
  obtain ⟨v, w, rfl, laid⟩ := value_laid value_
  dsimp only at read
  split at read
  next closed =>
    cases read
    obtain ⟨g, rfl, blanks⟩ := closing?_taken closed
    exact ⟨[v], _, by simp, .last .nil laid (.gap (gap_of_blanks blanks))⟩
  next =>
    obtain ⟨⟨r₂, h₂⟩, separated, read⟩ := except_bind_ok read
    obtain ⟨⟨ys, r₃, h₃⟩, elements_, read⟩ := except_bind_ok read
    obtain ⟨vs, w', rfl, series⟩ := elements_laid elements_
    cases read
    obtain ⟨g, g', rfl, blanks, blanks'⟩ := separator_taken separated
    refine ⟨v :: vs, _, ?_, .next .nil laid (gap_of_blanks blanks)
      (series_gap series (gap_of_blanks blanks'))⟩
    simp
termination_by (s.length, 1)

theorem members_laid {before fields : Dictionary Json} {s r : Text} {h}
    (read : Reader.members before s = .ok (fields, ⟨r, h⟩)) :
    ∃ ms w, s = w ++ .char '\x7d' :: r ∧
      Series Manner.plain (Named Manner.plain (Laid Manner.plain)) ms w := by
  rw [Reader.members] at read
  obtain ⟨⟨key, r₁, h₁⟩, name, read⟩ := except_bind_ok read
  obtain ⟨⟨r₂, h₂⟩, colon, read⟩ := except_bind_ok read
  obtain ⟨⟨x, r₃, h₃⟩, value_, read⟩ := except_bind_ok read
  obtain ⟨v, w, rfl, laid⟩ := value_laid value_
  obtain ⟨body, rfl, isBody⟩ := memberName_taken name
  obtain ⟨g, g', rfl, blanks, blanks'⟩ := separator_taken colon
  have named := Named.mk (m := Manner.plain) isBody (gap_of_blanks blanks)
    (gap_of_blanks blanks') laid
  dsimp only at read
  split at read
  next closed =>
    cases read
    obtain ⟨g, rfl, blanks⟩ := closing?_taken closed
    exact ⟨[(body, v)], _, by simp, .last .nil named (.gap (gap_of_blanks blanks))⟩
  next =>
    obtain ⟨⟨r₄, h₄⟩, separated, read⟩ := except_bind_ok read
    obtain ⟨⟨all, r₅, h₅⟩, members_, read⟩ := except_bind_ok read
    obtain ⟨ms, w', rfl, series⟩ := members_laid members_
    cases read
    obtain ⟨g, g', rfl, blanks, blanks'⟩ := separator_taken separated
    refine ⟨(body, v) :: ms, _, ?_, .next .nil named (gap_of_blanks blanks)
      (series_gap series (gap_of_blanks blanks'))⟩
    simp
termination_by (s.length, 1)

end

/-- What is read as JSON is a plain text of a tree. -/
theorem read_tree {t : Text} {x : Json} (h : Json.read t = .ok x) :
    ∃ v, Written Manner.plain v t ∧ v.value = .ok x := by
  have read := h
  rw [Json.read] at h
  split at h
  · cases h
  · obtain ⟨⟨y, r, h₁⟩, value_, h⟩ := except_bind_ok h
    obtain ⟨g, text, blanks⟩ := blanks_taken t
    obtain ⟨e, rest, blanks'⟩ := blanks_taken r
    obtain ⟨v, w, taken, laid⟩ := value_laid value_
    dsimp only at h
    split at h
    next nothing =>
      rw [nothing, List.append_nil] at rest
      have taken : (skipBlanks t).1 = w ++ r := taken
      rw [taken, rest] at text
      have written : Written Manner.plain v t :=
        text ▸ .mk (gap_of_blanks blanks) laid (.gap (gap_of_blanks blanks'))
      exact ⟨v, written, (read_written written).symm.trans read⟩
    next => cases h

end Variables

end ApprovedOps
