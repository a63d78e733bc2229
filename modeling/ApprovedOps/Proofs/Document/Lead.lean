import ApprovedOps.Proofs.Document.Cut

/-! # Leads of documents

What stands in front of the first block is kept without the blanks around it. It may be put in front
of another text again, with a line break between: the lexemes in it are the same, but for blanks at
the end of a last comment.
-/

namespace ApprovedOps

namespace Lexeme

/-! ## Blanks -/

/-- The numbers of the blanks. -/
def blankValues : List Nat :=
  [9, 10, 11, 12, 13, 0x1C, 0x1D, 0x1E, 0x1F, 0x20, 0x85, 0xA0, 0x1680, 0x2000, 0x2001, 0x2002,
    0x2003, 0x2004, 0x2005, 0x2006, 0x2007, 0x2008, 0x2009, 0x200A, 0x2028, 0x2029, 0x202F, 0x205F,
    0x3000]

theorem blank_value {c : CodePoint} (h : c.isBlank = true) : c.value ∈ blankValues := by
  simp only [CodePoint.isBlank, Bool.or_eq_true, Bool.and_eq_true, decide_eq_true_eq,
    beq_iff_eq] at h
  simp only [blankValues, List.mem_cons, List.not_mem_nil, or_false]
  omega

theorem blank_not_inNumber {c : CodePoint} (h : c.isBlank = true) : inNumber c = false := by
  have digits : ∀ n ∈ blankValues,
      CodePoint.digitZeros.find? (fun z => z ≤ n && n < z + 10) = none := by
    decide +kernel
  have digit : c.isDigit = false := by
    rw [CodePoint.isDigit, CodePoint.digitValue?, digits _ (blank_value h)]
    rfl
  have others : c ≠ .char '.' ∧ c ≠ .char 'e' ∧ c ≠ .char 'E' ∧ c ≠ .char '+' ∧ c ≠ .char '-' := by
    refine ⟨?_, ?_, ?_, ?_, ?_⟩ <;>
    · rintro rfl
      cases h
  simp [inNumber, digit, others]

theorem isNameContinue_value {c : CodePoint} (h : c.isNameContinue = true) :
    48 ≤ c.value ∧ c.value ≤ 122 := by
  cases c with
  | surrogate offset => cases h
  | char c =>
      change (((decide (c.val ≥ 65 ∧ c.val ≤ 90) || (decide (c.val ≥ 97) && decide (c.val ≤ 122))) ||
        (decide (c.val ≥ 48) && decide (c.val ≤ 57))) || c == '_') = true at h
      simp only [Bool.or_eq_true, Bool.and_eq_true, decide_eq_true_eq, beq_iff_eq, ge_iff_le,
        UInt32.le_iff_toNat_le] at h
      obtain ((⟨low, high⟩ | ⟨low, high⟩) | ⟨low, high⟩) | rfl := h
      · exact ⟨Nat.le_trans (by decide) low, Nat.le_trans high (by decide)⟩
      · exact ⟨Nat.le_trans (by decide) low, high⟩
      · exact ⟨low, Nat.le_trans high (by decide)⟩
      · decide

theorem blank_not_isNameContinue {c : CodePoint} (h : c.isBlank = true) :
    c.isNameContinue = false := by
  refine Bool.eq_false_iff.mpr fun continue_ => ?_
  have range : ∀ n ∈ blankValues, n < 48 ∨ 122 < n := by decide
  have values := isNameContinue_value continue_
  have outside := range _ (blank_value h)
  omega

/-! ## Where tails end -/

theorem commentTail_ends {s : Text} {n : Nat} (h : commentTail s = some n) :
    ∃ x r, s = x ++ .char '/' :: r ∧ n = x.length + 1 := by
  fun_induction commentTail s generalizing n with
  | case1 => cases h
  | case2 c r closes =>
      cases h
      obtain ⟨rfl, slash⟩ := closes
      cases r with
      | nil => cases slash
      | cons d r =>
          obtain rfl : d = .char '/' := by simpa using slash
          exact ⟨[.char '*'], r, rfl, rfl⟩
  | case3 c r goesOn ih =>
      obtain ⟨k, found, rfl⟩ := Option.map_eq_some_iff.mp h
      obtain ⟨x, r', rfl, rfl⟩ := ih found
      exact ⟨c :: x, r', rfl, rfl⟩

theorem quotedTail_ends {s : Text} {n : Nat} (h : quotedTail s = some n) :
    ∃ x r, s = x ++ .char '"' :: r ∧ n = x.length + 1 := by
  fun_induction quotedTail s generalizing n with
  | case1 | case3 | case5 => cases h
  | case2 r =>
      cases h
      exact ⟨[], r, rfl, rfl⟩
  | case4 d r open_ ih =>
      obtain ⟨k, found, rfl⟩ := Option.map_eq_some_iff.mp h
      obtain ⟨x, r', rfl, rfl⟩ := ih found
      exact ⟨.char '\\' :: d :: x, r', rfl, rfl⟩
  | case6 c r open_ plain sameLine ih =>
      obtain ⟨k, found, rfl⟩ := Option.map_eq_some_iff.mp h
      obtain ⟨x, r', rfl, rfl⟩ := ih found
      exact ⟨c :: x, r', rfl, rfl⟩

theorem tripleQuote_begins {s : Text} (h : tripleQuote.isPrefixOf s = true) :
    ∃ r, s = .char '"' :: .char '"' :: .char '"' :: r := by
  obtain ⟨r, rfl⟩ := List.isPrefixOf_iff_prefix.mp h
  exact ⟨r, rfl⟩

theorem blockTail_ends {s : Text} {n : Nat} (h : blockTail s = some n) :
    ∃ x r, s = x ++ .char '"' :: r ∧ n = x.length + 1 := by
  induction s using blockTail.induct generalizing n with
  | case1 =>
      rw [blockTail] at h
      cases h
  | case2 c r closes =>
      rw [blockTail, if_pos closes] at h
      cases h
      obtain ⟨r', text⟩ := tripleQuote_begins closes
      exact ⟨[.char '"', .char '"'], r', text, rfl⟩
  | case3 c r open_ escapes k later ih =>
      rw [blockTail, if_neg open_, if_pos escapes, later] at h
      cases h
      obtain ⟨x, r', rest, rfl⟩ := ih later
      obtain ⟨r'', rfl⟩ := tripleQuote_begins escapes.2
      obtain rfl : r'' = x ++ .char '"' :: r' := rest
      exact ⟨c :: .char '"' :: .char '"' :: .char '"' :: x, r', rfl, rfl⟩
  | case4 c r open_ escapes later ih =>
      rw [blockTail, if_neg open_, if_pos escapes, later] at h
      cases h
      obtain ⟨r', rfl⟩ := tripleQuote_begins escapes.2
      exact ⟨[c, .char '"', .char '"'], r', rfl, rfl⟩
  | case5 c r open_ plain ih =>
      rw [blockTail, if_neg open_, if_neg plain] at h
      obtain ⟨k, found, rfl⟩ := Option.map_eq_some_iff.mp h
      obtain ⟨x, r', rfl, rfl⟩ := ih found
      exact ⟨c :: x, r', rfl, rfl⟩

theorem stringTail_ends {s : Text} {n : Nat} (h : stringTail s = some n) :
    ∃ x r, s = x ++ .char '"' :: r ∧ n = x.length + 1 := by
  rw [stringTail] at h
  obtain block | ⟨-, quoted⟩ := Option.or_eq_some_iff.mp h
  · split at block
    next triple =>
      obtain ⟨k, found, rfl⟩ := Option.map_eq_some_iff.mp block
      obtain ⟨r, text⟩ := tripleQuote_begins triple
      obtain rfl := (List.cons.inj text).2
      obtain ⟨x, r', rest, rfl⟩ := blockTail_ends found
      obtain rfl : r = x ++ .char '"' :: r' := rest
      exact ⟨.char '"' :: .char '"' :: x, r', rfl, rfl⟩
    next => cases block
  · exact quotedTail_ends quoted

/-- What ends with something else than a blank ends before the blanks. -/
theorem ends_before_blanks {y b u x r : Text} {d : CodePoint}
    (text : y ++ (b ++ u) = x ++ d :: r) (blanks : ∀ c ∈ b, c.isBlank = true)
    (solid : d.isBlank = false) (fits : x.length + 1 ≤ y.length + b.length) :
    x.length + 1 ≤ y.length := by
  refine Decidable.byContradiction fun beyond => ?_
  have place : (y ++ (b ++ u))[x.length]? = some d := by rw [text]; simp
  rw [List.getElem?_append_right (by omega), List.getElem?_append_left (by omega)] at place
  have blank := blanks d (List.mem_of_getElem? place)
  rw [solid] at blank
  cases blank

/-! ## Block strings in front of a line break -/

/-- A block string is left open only if no three quotes follow. -/
theorem blockTail_none {s : Text} : blockTail s = none ↔ ¬tripleQuote <:+: s := by
  have prefixed {s : Text} (h : tripleQuote.isPrefixOf s = true) : tripleQuote <:+: s :=
    (List.isPrefixOf_iff_prefix.mp h).isInfix
  induction s using blockTail.induct with
  | case1 => simp [blockTail, tripleQuote]
  | case2 c r closes =>
      rw [blockTail, if_pos closes]
      exact iff_of_false (Option.some_ne_none _) (not_not_intro (prefixed closes))
  | case3 c r open_ escapes k later ih =>
      rw [blockTail, if_neg open_, if_pos escapes, later]
      exact iff_of_false (Option.some_ne_none _)
        (not_not_intro (List.infix_cons (prefixed escapes.2)))
  | case4 c r open_ escapes later ih =>
      rw [blockTail, if_neg open_, if_pos escapes, later]
      exact iff_of_false (Option.some_ne_none _)
        (not_not_intro (List.infix_cons (prefixed escapes.2)))
  | case5 c r open_ plain ih =>
      have notFirst : ¬tripleQuote <+: c :: r := fun first =>
        open_ (List.isPrefixOf_iff_prefix.mpr first)
      rw [blockTail, if_neg open_, if_neg plain, Option.map_eq_none_iff, List.infix_cons_iff, not_or]
      exact ih.trans (and_iff_right notFirst).symm

/-- Whether three quotes come next is settled before what is no quote. -/
theorem tripleQuote_stops {z : Text} (stops : z.head? ≠ some (.char '"')) (y : Text) :
    tripleQuote.isPrefixOf (y ++ z) = tripleQuote.isPrefixOf y := by
  match y with
  | [] =>
      cases z with
      | nil => rfl
      | cons c z =>
          have other : c ≠ .char '"' := by simpa using stops
          simp [tripleQuote, List.isPrefixOf, Ne.symm other]
  | [_] =>
      cases z with
      | nil => rfl
      | cons c z =>
          have other : c ≠ .char '"' := by simpa using stops
          simp [tripleQuote, List.isPrefixOf, Ne.symm other]
  | [_, _] =>
      cases z with
      | nil => rfl
      | cons c z =>
          have other : c ≠ .char '"' := by simpa using stops
          simp [tripleQuote, List.isPrefixOf, Ne.symm other]
  | _ :: _ :: _ :: _ => simp [tripleQuote, List.isPrefixOf]

theorem infix_tripleQuote_break {c : CodePoint} {y u : Text} (other : c ≠ .char '"')
    (h : tripleQuote <:+: y ++ c :: u) : tripleQuote <:+: y ∨ tripleQuote <:+: u := by
  have stops (y : Text) : tripleQuote.isPrefixOf (y ++ c :: u) = tripleQuote.isPrefixOf y :=
    tripleQuote_stops (by simpa using other) y
  induction y with
  | nil =>
      obtain here | later := List.infix_cons_iff.mp h
      · have none_ := stops []
        rw [List.nil_append, List.isPrefixOf_iff_prefix.mpr here] at none_
        cases none_
      · exact .inr later
  | cons c y ih =>
      rw [List.cons_append] at h
      obtain here | later := List.infix_cons_iff.mp h
      · have first := stops (c :: y)
        rw [List.cons_append, List.isPrefixOf_iff_prefix.mpr here] at first
        exact .inl (List.isPrefixOf_iff_prefix.mp first.symm).isInfix
      · exact (ih later).imp_left List.infix_cons

section

variable {y z u : Text} (quotes : tripleQuote <:+: u → tripleQuote <:+: z)

include quotes

theorem blockTail_none_break (h : blockTail (y ++ z) = none) :
    blockTail (y ++ .char '\n' :: u) = none := by
  rw [blockTail_none] at h ⊢
  intro inside
  obtain front | back := infix_tripleQuote_break (by decide) inside
  · exact h (front.trans (List.prefix_append y z).isInfix)
  · exact h ((quotes back).trans (List.suffix_append y z).isInfix)

variable (stops : z.head? ≠ some (.char '"'))

include stops

/-- A block string that ends in front of a text ends there in front of a line break. -/
theorem blockTail_break {n : Nat} (h : blockTail (y ++ z) = some n) (fits : n ≤ y.length) :
    blockTail (y ++ .char '\n' :: u) = some n := by
  have stops' : (CodePoint.char '\n' :: u).head? ≠ some (.char '"') := by simp
  have kept (y : Text) : tripleQuote.isPrefixOf (y ++ .char '\n' :: u) =
      tripleQuote.isPrefixOf (y ++ z) := by
    rw [tripleQuote_stops stops', tripleQuote_stops stops]
  induction y using blockTail.induct generalizing n with
  | case1 =>
      have atLeast := blockTail_ge h
      simp at fits
      omega
  | case2 c r closes =>
      rw [List.cons_append, blockTail, ← List.cons_append, tripleQuote_append _ closes, if_pos rfl] at h ⊢
      exact h
  | case3 c r open_ escapes k later ih | case4 c r open_ escapes later ih =>
      have long : 3 ≤ r.length := (List.isPrefixOf_iff_prefix.mp escapes.2).length_le
      have open_' (t : Text) (stops : t.head? ≠ some (.char '"')) :
          ¬tripleQuote.isPrefixOf (c :: (r ++ t)) = true := by
        rwa [← List.cons_append, tripleQuote_stops stops]
      rw [List.cons_append, blockTail, if_neg (open_' z stops),
        if_pos ⟨escapes.1, tripleQuote_append _ escapes.2⟩, List.drop_append_of_le_length long] at h
      rw [List.cons_append, blockTail, if_neg (open_' _ stops'),
        if_pos ⟨escapes.1, tripleQuote_append _ escapes.2⟩, List.drop_append_of_le_length long]
      cases whole : blockTail (r.drop 3 ++ z) with
      | none => simpa only [blockTail_none_break quotes whole, whole] using h
      | some j =>
          simp only [whole, Option.some.injEq] at h
          have same := ih whole (by simp at fits ⊢; omega)
          simp only [same, h]
  | case5 c r open_ plain ih =>
      have open_' (t : Text) (stops : t.head? ≠ some (.char '"')) :
          ¬tripleQuote.isPrefixOf (c :: (r ++ t)) = true := by
        rwa [← List.cons_append, tripleQuote_stops stops]
      rw [List.cons_append, blockTail, if_neg (open_' z stops), tripleQuote_stops stops,
        if_neg plain] at h
      rw [List.cons_append, blockTail, if_neg (open_' _ stops'), tripleQuote_stops stops',
        if_neg plain]
      obtain ⟨k, found, rfl⟩ := Option.map_eq_some_iff.mp h
      rw [ih found (by simpa using fits), Option.map_some]

theorem stringTail_break {n : Nat} (h : stringTail (y ++ z) = some n) (fits : n ≤ y.length) :
    stringTail (y ++ .char '\n' :: u) = some n := by
  have stops' : (CodePoint.char '\n' :: u).head? ≠ some (.char '"') := by simp
  have quoted (h : quotedTail (y ++ z) = some n) : quotedTail (y ++ .char '\n' :: u) = some n :=
    quotedTail_context (quotedTail_cut h fits)
  rw [stringTail, ← List.cons_append, tripleQuote_stops stops] at h
  rw [stringTail, ← List.cons_append, tripleQuote_stops stops']
  by_cases triple : tripleQuote.isPrefixOf (.char '"' :: y) = true
  · have long : 2 ≤ y.length := by
      have long := (List.isPrefixOf_iff_prefix.mp triple).length_le
      simpa [tripleQuote] using long
    simp only [triple, if_true, List.drop_append_of_le_length long] at h ⊢
    cases found : blockTail (y.drop 2 ++ z) with
    | none =>
        rw [found, Option.map_none, Option.none_or] at h
        rw [blockTail_none_break quotes found, Option.map_none, Option.none_or]
        exact quoted h
    | some k =>
        simp only [found, Option.map_some, Option.some_or, Option.some.injEq] at h
        have inside : k ≤ (y.drop 2).length := by
          rw [List.length_drop]
          omega
        rw [blockTail_break quotes stops found inside, Option.map_some, Option.some_or, h]
  · simp only [triple, Bool.false_eq_true, if_false, Option.none_or] at h ⊢
    exact quoted h

end

/-! ## Pieces in front of a line break -/

theorem takeWhile_break {p : CodePoint → Bool} {y z : Text} (t : Text)
    (stops : p (.char '\n') = false) (fits : ((y ++ z).takeWhile p).length ≤ y.length) :
    (y ++ .char '\n' :: t).takeWhile p = (y ++ z).takeWhile p := by
  induction y with
  | nil =>
      rw [List.nil_append] at fits ⊢
      rw [List.nil_append, List.eq_nil_of_length_eq_zero (Nat.le_zero.mp fits),
        List.takeWhile_cons_of_neg (by simp [stops])]
  | cons c y ih =>
      cases goes : p c with
      | false => simp [goes]
      | true =>
          simp only [List.cons_append, List.takeWhile_cons, goes, if_true, List.length_cons,
            Nat.add_le_add_iff_right] at fits ⊢
          rw [ih fits]

theorem takeWhile_before_blanks {p : CodePoint → Bool} {y b u : Text}
    (blanks : ∀ c ∈ b, p c = false)
    (fits : ((y ++ (b ++ u)).takeWhile p).length ≤ y.length + b.length) :
    ((y ++ (b ++ u)).takeWhile p).length ≤ y.length := by
  induction y with
  | nil =>
      cases b with
      | nil => exact fits
      | cons d b => simp [blanks d List.mem_cons_self]
  | cons c y ih =>
      cases goes : p c with
      | false => simp [goes]
      | true =>
          simp only [List.cons_append, List.takeWhile_cons, goes, if_true, List.length_cons] at fits ⊢
          have later := ih (by omega)
          omega

/-- A comment to the end of its line goes up to the line break. -/
theorem lineTail_break (y z t : Text) :
    lineTail (y ++ .char '\n' :: t) = min (lineTail (y ++ z)) y.length := by
  induction y with
  | nil => simp [lineTail]
  | cons c y ih =>
      simp only [lineTail, List.cons_append, List.takeWhile_cons, List.length_cons] at ih ⊢
      split
      · rw [List.length_cons, List.length_cons, ih]
        omega
      · simp

theorem numberTail_le (y : Text) : numberTail y ≤ y.length := by
  have whole := digitRun_le y
  have fraction := fractionTail_le (y.drop (digitRun y))
  have exponent (y : Text) : exponentTail y ≤ y.length := by
    cases y with
    | nil => simp [exponentTail]
    | cons c y =>
        have digits (s : Nat) := digitRun_le (y.drop s)
        simp only [exponentTail, List.length_cons, List.length_drop] at digits ⊢
        split
        next sign =>
          have one := digits 1
          split <;> omega
        next =>
          have none_ := digits 0
          split <;> omega
  have last := exponent (y.drop (digitRun y + fractionTail (y.drop (digitRun y))))
  rw [List.length_drop] at fraction last
  rw [numberTail]
  split
  · exact Nat.zero_le _
  · dsimp only
    omega

/-- Does the text begin with nothing that numbers, strings and comments in front of it go on with? -/
def Breaks (z : Text) : Prop :=
  ∀ c, z.head? = some c → inNumber c = false ∧ c ≠ .char '"' ∧ c ≠ .char '/' ∧ c ≠ .char '*'

/-- A piece that begins in front of blanks, and ends in front of what follows them, ends at the same
    place in front of a line break. Only a comment may lose some of the blanks. -/
theorem piece_break {c : CodePoint} {y b u u' : Text} {kind : Kind} {n : Nat}
    (breaks : Breaks (b ++ u)) (blanks : ∀ d ∈ b, d.isBlank = true)
    (quotes : tripleQuote <:+: u' → tripleQuote <:+: u)
    (piece : Piece.of c (y ++ (b ++ u)) = .lexeme kind n) (fits : n ≤ y.length + b.length) :
    Piece.of c (y ++ .char '\n' :: u') = .lexeme kind (min n y.length) ∧
      (kind = .comment ∨ n ≤ y.length) := by
  have noBreak : EndsNumber (b ++ u) := fun d head => (breaks d head).1
  have noBreak' : EndsNumber (.char '\n' :: u') := by
    rintro d ⟨⟩
    decide
  have head (d : CodePoint) (other : d ≠ .char '\n') (other' : (b ++ u).head? ≠ some d) :
      (y ++ .char '\n' :: u').head? = some d ↔ (y ++ (b ++ u)).head? = some d := by
    cases y with
    | nil => exact iff_of_false (by simpa using other.symm) other'
    | cons e y => rfl
  have slash_ : (b ++ u).head? ≠ some (.char '/') := fun first => (breaks _ first).2.2.1 rfl
  have star_ : (b ++ u).head? ≠ some (.char '*') := fun first => (breaks _ first).2.2.2 rfl
  have quote_ : (b ++ u).head? ≠ some (.char '"') := fun first => (breaks _ first).2.1 rfl
  by_cases blank : c.isBlank = true
  · simp [Piece.of, blank] at piece
  by_cases hash : c = .char '#'
  · subst hash
    simp only [Piece.of, blank, Bool.false_eq_true, if_false, if_true, Piece.lexeme.injEq] at piece ⊢
    obtain ⟨rfl, rfl⟩ := piece
    exact ⟨⟨rfl, lineTail_break y _ _⟩, .inl rfl⟩
  by_cases slash : c = .char '/'
  · subst slash
    simp only [Piece.of, blank, hash, Bool.false_eq_true, if_false, if_true,
      head _ (by decide) slash_, head _ (by decide) star_] at piece ⊢
    by_cases line : (y ++ (b ++ u)).head? = some (.char '/')
    · simp only [line, if_true, Piece.lexeme.injEq] at piece ⊢
      obtain ⟨rfl, rfl⟩ := piece
      exact ⟨⟨rfl, lineTail_break y _ _⟩, .inl rfl⟩
    by_cases block : (y ++ (b ++ u)).head? = some (.char '*')
    · rw [if_neg line, if_pos block] at piece ⊢
      cases y with
      | nil => exact absurd block star_
      | cons d y =>
          simp only [List.cons_append, List.drop_succ_cons, List.drop_zero] at piece ⊢
          cases found : commentTail (y ++ (b ++ u)) with
          | none =>
              rw [found] at piece
              cases piece
          | some k =>
              rw [found] at piece
              simp only [Piece.lexeme.injEq] at piece
              obtain ⟨rfl, rfl⟩ := piece
              obtain ⟨x, r, text, rfl⟩ := commentTail_ends found
              rw [List.length_cons] at fits ⊢
              have inside := ends_before_blanks text blanks (by decide) (by omega)
              have kept := commentTail_context (t := .char '\n' :: u')
                (commentTail_cut found inside)
              simp only [kept, Piece.lexeme.injEq, true_and]
              exact ⟨by omega, .inl trivial⟩
    · rw [if_neg line, if_neg block] at piece ⊢
      cases piece
      exact ⟨by simp, .inr (Nat.zero_le _)⟩
  by_cases quote : c = .char '"'
  · subst quote
    rw [Piece.of_quote] at piece ⊢
    cases found : stringTail (y ++ (b ++ u)) with
    | none =>
        rw [found] at piece
        cases piece
    | some k =>
        rw [found] at piece
        simp only [Piece.lexeme.injEq] at piece
        obtain ⟨rfl, rfl⟩ := piece
        obtain ⟨x, r, text, rfl⟩ := stringTail_ends found
        have inside := ends_before_blanks text blanks (by decide) fits
        have quotes' : tripleQuote <:+: u' → tripleQuote <:+: b ++ u := fun h =>
          (quotes h).trans (List.suffix_append b u).isInfix
        rw [stringTail_break quotes' quote_ found inside, Nat.min_eq_left inside]
        exact ⟨rfl, .inr inside⟩
  by_cases name : c.isNameStart = true
  · simp only [Piece.of, blank, hash, slash, quote, name, Bool.false_eq_true, if_false, if_true,
      Piece.lexeme.injEq] at piece ⊢
    obtain ⟨rfl, rfl⟩ := piece
    have inside := takeWhile_before_blanks
      (fun d among => blank_not_isNameContinue (blanks d among)) fits
    rw [takeWhile_break u' rfl inside, Nat.min_eq_left inside]
    exact ⟨⟨rfl, rfl⟩, .inr inside⟩
  have number : numberTail (c :: (y ++ (b ++ u))) = numberTail (c :: y) :=
    numberTail_ends noBreak (c :: y)
  have number' : numberTail (c :: (y ++ .char '\n' :: u')) = numberTail (c :: y) :=
    numberTail_ends noBreak' (c :: y)
  have within := numberTail_le (c :: y)
  have within' := numberTail_le y
  rw [List.length_cons] at within
  simp only [Piece.of, blank, hash, slash, quote, name, Bool.false_eq_true, if_false, number,
    number', numberTail_ends noBreak, numberTail_ends noBreak'] at piece ⊢
  have inside : n ≤ y.length := by
    split at piece
    · cases piece
      omega
    split at piece
    · split at piece <;> cases piece <;> omega
    · cases piece
      omega
  rw [Nat.min_eq_left inside]
  exact ⟨piece, .inr inside⟩

/-! ## Leads -/

theorem scan_sorted (k : Nat) (s : Text) :
    (scanWith Piece.of k s).1.Pairwise fun l l' => l.start < l'.start := by
  fun_induction scanWith Piece.of k s with
  | case1 => exact .nil
  | case2 k c r n found ih => exact ih
  | case3 k c r kind n found rest failure split ih =>
      have later {l : Lexeme} (among : l ∈ rest) : k + n + 1 ≤ l.start :=
        scan_start (by rw [split]; exact among)
      rw [split] at ih
      exact .cons (fun l among => Nat.lt_of_lt_of_le (by simp only; omega) (later among)) ih
  | case4 => exact .nil

theorem scan_blanks {b : Text} (blanks : ∀ c ∈ b, c.isBlank = true) (k : Nat) (u : Text) :
    scanWith Piece.of k (b ++ u) = scanWith Piece.of (k + b.length) u := by
  induction b generalizing k with
  | nil => rfl
  | cons c b ih =>
      obtain ⟨blank, blanks⟩ := List.forall_mem_cons.mp blanks
      rw [List.cons_append, scan_blank blank, ih blanks, List.length_cons]
      congr 1
      omega

theorem scan_piece {piece : CodePoint → Text → Piece} {c : CodePoint} {r : Text} {kind : Kind}
    {n : Nat} (found : piece c r = .lexeme kind n) (k : Nat) :
    scanWith piece k (c :: r) =
      (⟨kind, c :: r.take n, k⟩ :: (scanWith piece (k + n + 1) (r.drop n)).1,
        (scanWith piece (k + n + 1) (r.drop n)).2) := by
  rw [scanWith, found]

theorem piece_solid {c : CodePoint} (solid : c.isBlank = false) (r : Text) (n : Nat) :
    Piece.of c r ≠ .blank n := by
  intro blank
  unfold Piece.of at blank
  simp only [solid, Bool.false_eq_true, if_false] at blank
  split at blank
  · cases blank
  split at blank
  · split at blank
    · cases blank
    split at blank
    · split at blank <;> cases blank
    · cases blank
  split at blank
  · split at blank <;> cases blank
  split at blank
  · cases blank
  split at blank
  · cases blank
  split at blank
  · split at blank <;> cases blank
  · cases blank

theorem breaks_blanks {b u : Text} (blanks : ∀ c ∈ b, c.isBlank = true) (breaks : Breaks u) :
    Breaks (b ++ u) := by
  cases b with
  | nil => exact breaks
  | cons d b =>
      rintro c ⟨⟩
      have blank := blanks d List.mem_cons_self
      refine ⟨blank_not_inNumber blank, ?_, ?_, ?_⟩ <;>
      · rintro rfl
        cases blank

/-- What is read in front of a lexeme is read in front of a line break too, if the text up to the
    blanks before the lexeme is put there. -/
theorem scan_lead {y b u u' : Text} {k : Nat} {lead rest : List Lexeme} {opener : Lexeme}
    (breaks : Breaks u) (blanks : ∀ d ∈ b, d.isBlank = true)
    (last : ∀ x d, y = x ++ [d] → d.isBlank = false)
    (quotes : tripleQuote <:+: u' → tripleQuote <:+: u)
    (start : opener.start = k + y.length + b.length)
    (h : (scanWith Piece.of k (y ++ (b ++ u))).1 = lead ++ opener :: rest) (k' : Nat) :
    ∃ lead', List.Forall₂ Alike lead lead' ∧
      scanWith Piece.of k' (y ++ .char '\n' :: u') =
        (lead' ++ (scanWith Piece.of (k' + y.length + 1) u').1,
          (scanWith Piece.of (k' + y.length + 1) u').2) := by
  match y with
  | [] =>
      have sorted := scan_sorted k (b ++ u)
      rw [List.nil_append] at h
      cases lead with
      | nil =>
          refine ⟨[], .nil, ?_⟩
          rw [List.nil_append, scan_blank (by decide)]
          rfl
      | cons l lead =>
          rw [h] at sorted
          have before := List.rel_of_pairwise_cons sorted (List.mem_append_right lead List.mem_cons_self)
          have behind : k + b.length ≤ l.start := by
            rw [scan_blanks blanks] at h
            exact scan_start (s := u) (by rw [h]; exact List.mem_cons_self)
          rw [start, List.length_nil] at before
          omega
  | c :: y =>
      have last' (n : Nat) : ∀ x d, y.drop n = x ++ [d] → d.isBlank = false := by
        intro x d text
        refine last (c :: y.take n ++ x) d ?_
        rw [List.append_assoc, ← text, List.cons_append, List.take_append_drop]
      rw [List.cons_append] at h
      rw [List.length_cons] at start ⊢
      cases blank : c.isBlank with
      | true =>
          rw [scan_blank blank] at h
          have later := scan_lead breaks blanks (last' 0) quotes
            (by rw [List.drop_zero]; omega) h (k' + 1)
          rw [List.drop_zero, Nat.add_right_comm k' 1 y.length] at later
          rw [List.cons_append, scan_blank blank]
          exact later
      | false =>
          cases piece : Piece.of c (y ++ (b ++ u)) with
          | blank n => exact absurd piece (piece_solid blank _ n)
          | unterminated what => simp [scanWith, piece] at h
          | lexeme kind n =>
              rw [scan_piece piece] at h
              cases lead with
              | nil =>
                  have first := congrArg Lexeme.start (List.cons.inj h).1
                  simp only at first
                  omega
              | cons first lead =>
                  obtain ⟨rfl, lexemes⟩ := List.cons.inj h
                  have fits : n ≤ y.length + b.length := by
                    have beyond := scan_start (l := opener) (by rw [lexemes]; simp)
                    omega
                  obtain ⟨piece', kept⟩ :=
                    piece_break (breaks_blanks blanks breaks) blanks quotes piece fits
                  have rest_ : (y ++ (b ++ u)).drop n = y.drop n ++ (b.drop (n - y.length) ++ u) := by
                    rw [List.drop_append, List.drop_append_of_le_length (by omega)]
                  have rest' : (y ++ .char '\n' :: u').drop (min n y.length) =
                      y.drop n ++ .char '\n' :: u' := by
                    obtain inside | beyond := Nat.le_total n y.length
                    · rw [Nat.min_eq_left inside, List.drop_append_of_le_length inside]
                    · rw [Nat.min_eq_right beyond, List.drop_left, List.drop_of_length_le beyond]
                      rfl
                  rw [rest_] at lexemes
                  have ends : opener.start =
                      k + n + 1 + (y.drop n).length + (b.drop (n - y.length)).length := by
                    rw [List.length_drop, List.length_drop]
                    omega
                  obtain ⟨lead', alike, later⟩ := scan_lead breaks
                    (fun d among => blanks d (List.mem_of_mem_drop among)) (last' n) quotes ends
                    lexemes (k' + min n y.length + 1)
                  have position : k' + min n y.length + 1 + (y.drop n).length + 1 =
                      k' + (y.length + 1) + 1 := by
                    rw [List.length_drop]
                    omega
                  refine ⟨⟨kind, c :: (y ++ .char '\n' :: u').take (min n y.length), k'⟩ :: lead',
                    .cons ⟨rfl, kept.imp_right fun inside => ?_⟩ alike, ?_⟩
                  · simp only
                    rw [Nat.min_eq_left inside, List.take_append_of_le_length inside,
                      List.take_append_of_le_length inside]
                  · rw [List.cons_append, scan_piece piece', rest', later, position]
                    rfl
termination_by y.length
decreasing_by all_goals simp only [List.length_cons, List.length_drop]; omega

end Lexeme

end ApprovedOps
