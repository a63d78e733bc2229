import ApprovedOps.Document.Lexeme

/-! # Lexemes in context

A text that ends with a closing brace has the same lexemes wherever it stands: nothing in front of
the brace looks beyond it. Block strings are the exception. One whose only closing quotes are escaped
still ends there if no others follow, so what follows matters. The strict reading, in which an
escape is always one, leaves them open, and where it leaves nothing open the text can stand anywhere.
-/

namespace ApprovedOps.Lexeme

/-- The brace that ends a block. -/
def closingBrace : CodePoint := .char '}'

/-- How many code points a block string takes after its opening quotes, if it is closed and every
    escape in it is one. -/
def strictBlockTail : Text → Option Nat
  | [] => none
  | c :: r =>
    if tripleQuote.isPrefixOf (c :: r) then
      some 3
    else if c = .char '\\' ∧ tripleQuote.isPrefixOf r then
      (strictBlockTail (r.drop 3)).map (· + 4)
    else
      (strictBlockTail r).map (· + 1)
termination_by s => s.length
decreasing_by all_goals simp only [List.length_cons, List.length_drop]; omega

/-- What a code point and the text after it begin with, if three quotes always open a block string
    and every escape in it is one. -/
def Piece.strict (c : CodePoint) (r : Text) : Piece :=
  if tripleQuote.isPrefixOf (c :: r) then
    match strictBlockTail (r.drop 2) with
    | some n => .lexeme .string (n + 2)
    | none => .unterminated .string
  else
    Piece.of c r

/-- Does the piece end, and within so many code points after the first? -/
def Piece.Fits (limit : Nat) : Piece → Prop
  | .blank n | .lexeme _ n => n ≤ limit
  | .unterminated _ => False

/-! ## Tails -/

/-- A run ends where something else comes. -/
theorem takeWhile_bounded {α : Type} {p : α → Bool} {run rest : List α} (all : ∀ c ∈ run, p c = true)
    (stops : ∀ c, rest.head? = some c → p c = false) : (run ++ rest).takeWhile p = run := by
  rw [List.takeWhile_append_of_pos all]
  cases rest with
  | nil => simp
  | cons c rest => simp [stops c rfl]

theorem takeWhile_context {α : Type} {p : α → Bool} {y t : List α} {b : α}
    (fits : ((y ++ [b]).takeWhile p).length ≤ y.length) :
    (y ++ b :: t).takeWhile p = (y ++ [b]).takeWhile p := by
  induction y with
  | nil =>
      cases stops : p b with
      | false => simp [stops]
      | true => simp [stops] at fits
  | cons a y ih =>
      cases goes : p a with
      | false => simp [goes]
      | true =>
          simp only [List.cons_append, List.takeWhile_cons, goes, if_true, List.length_cons,
            Nat.add_le_add_iff_right] at fits ⊢
          rw [ih fits]

theorem commentTail_context {s t : Text} {n : Nat} (h : commentTail s = some n) :
    commentTail (s ++ t) = some n := by
  fun_induction commentTail s generalizing n with
  | case1 => cases h
  | case2 c r closes => grind [commentTail]
  | case3 c r goesOn ih =>
      obtain ⟨k, found, rfl⟩ := Option.map_eq_some_iff.mp h
      have later := ih found
      cases r with
      | nil => cases found
      | cons d r => grind [commentTail]

theorem quotedTail_context {s t : Text} {n : Nat} (h : quotedTail s = some n) :
    quotedTail (s ++ t) = some n := by
  fun_induction quotedTail s generalizing n with
  | case1 | case3 | case5 => cases h
  | case2 =>
      rw [List.cons_append, quotedTail.eq_def]
      exact h
  | case4 d r open_ ih =>
      obtain ⟨k, found, rfl⟩ := Option.map_eq_some_iff.mp h
      simp [quotedTail, ih found]
  | case6 c r open_ plain sameLine ih =>
      obtain ⟨k, found, rfl⟩ := Option.map_eq_some_iff.mp h
      rw [List.cons_append, quotedTail.eq_def]
      simp [open_, plain, sameLine, ih found]

/-- Whether three quotes come next is settled by three code points. -/
theorem tripleQuote_context {s : Text} (t : Text) (long : 3 ≤ s.length) :
    tripleQuote.isPrefixOf (s ++ t) = tripleQuote.isPrefixOf s := by
  match s, long with
  | a :: b :: c :: s, _ => simp [tripleQuote, List.isPrefixOf]

theorem strictBlockTail_le {s : Text} {n : Nat} (h : strictBlockTail s = some n) :
    3 ≤ n ∧ n ≤ s.length := by
  fun_induction strictBlockTail s generalizing n with
  | case1 => cases h
  | case2 c r closes =>
      cases h
      exact ⟨Nat.le_refl 3, (List.isPrefixOf_iff_prefix.mp closes).length_le⟩
  | case3 c r open_ escapes ih =>
      obtain ⟨k, found, rfl⟩ := Option.map_eq_some_iff.mp h
      have bounds := ih found
      simp only [List.length_drop, List.length_cons] at bounds ⊢
      omega
  | case4 c r open_ plain ih =>
      obtain ⟨k, found, rfl⟩ := Option.map_eq_some_iff.mp h
      have bounds := ih found
      simp only [List.length_cons]
      omega

/-- Where the strict reading closes a block string, it is closed there, whatever follows. -/
theorem blockTail_context {s t : Text} {n : Nat} (h : strictBlockTail s = some n) :
    blockTail (s ++ t) = some n := by
  fun_induction strictBlockTail s generalizing n with
  | case1 => cases h
  | case2 c r closes =>
      cases h
      have long := (List.isPrefixOf_iff_prefix.mp closes).length_le
      rw [List.cons_append, blockTail, ← List.cons_append, tripleQuote_context t long, if_pos closes]
  | case3 c r open_ escapes ih =>
      obtain ⟨k, found, rfl⟩ := Option.map_eq_some_iff.mp h
      have inside := strictBlockTail_le found
      rw [List.length_drop] at inside
      have long : 3 ≤ r.length := by omega
      have later : blockTail ((r ++ t).drop 3) = some k := by
        rw [List.drop_append_of_le_length long, ih found]
      have longer : 3 ≤ (c :: r).length := Nat.le_succ_of_le long
      rw [List.cons_append, blockTail, ← List.cons_append, tripleQuote_context t longer,
        if_neg open_, tripleQuote_context t long, if_pos escapes, later]
  | case4 c r open_ plain ih =>
      obtain ⟨k, found, rfl⟩ := Option.map_eq_some_iff.mp h
      have inside := strictBlockTail_le found
      have long : 3 ≤ r.length := by omega
      have longer : 3 ≤ (c :: r).length := Nat.le_succ_of_le long
      rw [List.cons_append, blockTail, ← List.cons_append, tripleQuote_context t longer,
        if_neg open_, tripleQuote_context t long, if_neg plain, ih found, Option.map_some]

/-! ## Numbers -/

/-- May the code point stand in a number? -/
def inNumber (c : CodePoint) : Bool :=
  c.isDigit || c = .char '.' || c = .char 'e' || c = .char 'E' || c = .char '+' || c = .char '-'

/-- Does no number go on with the text? -/
def EndsNumber (z : Text) : Prop :=
  ∀ c, z.head? = some c → inNumber c = false

theorem endsNumber_brace (t : Text) : EndsNumber (closingBrace :: t) := by
  rintro c ⟨⟩
  decide

theorem not_inNumber {c : CodePoint} (h : inNumber c = false) :
    c.isDigit = false ∧ c ≠ .char '.' ∧ c ≠ .char 'e' ∧ c ≠ .char 'E' ∧ c ≠ .char '+' ∧
      c ≠ .char '-' := by
  simpa [inNumber, and_assoc] using h

theorem digitRun_ends {z : Text} (ends : EndsNumber z) (y : Text) :
    digitRun (y ++ z) = digitRun y := by
  induction y with
  | nil =>
      cases z with
      | nil => rfl
      | cons c z => simp [digitRun, (not_inNumber (ends c rfl)).1]
  | cons c y ih =>
      simp only [digitRun, List.cons_append, List.takeWhile_cons] at ih ⊢
      split
      · rw [List.length_cons, List.length_cons, ih]
      · rfl

theorem digitRun_le (y : Text) : digitRun y ≤ y.length :=
  (List.takeWhile_sublist _).length_le

theorem fractionTail_ends {z : Text} (ends : EndsNumber z) (y : Text) :
    fractionTail (y ++ z) = fractionTail y := by
  cases y with
  | nil =>
      cases z with
      | nil => rfl
      | cons c z => simp [fractionTail, (not_inNumber (ends c rfl)).2.1]
  | cons c y => simp only [List.cons_append, fractionTail, digitRun_ends ends]

theorem fractionTail_le (y : Text) : fractionTail y ≤ y.length := by
  cases y with
  | nil => simp [fractionTail]
  | cons c y =>
      have digits := digitRun_le y
      simp only [fractionTail, List.length_cons]
      split <;> omega

theorem exponentTail_ends {z : Text} (ends : EndsNumber z) (y : Text) :
    exponentTail (y ++ z) = exponentTail y := by
  match y with
  | [] =>
      cases z with
      | nil => rfl
      | cons c z => simp [exponentTail, not_inNumber (ends c rfl)]
  | [c] =>
      have none : digitRun z = 0 := digitRun_ends ends []
      have unsigned : z.head? ≠ some (.char '+') ∧ z.head? ≠ some (.char '-') := by
        constructor <;>
        · intro sign
          cases ends _ sign
      have nothing : digitRun [] = 0 := rfl
      simp [exponentTail, none, unsigned, nothing]
  | c :: d :: y =>
      have digits := digitRun_ends ends (d :: y)
      rw [List.cons_append] at digits
      by_cases signed : d = .char '+' ∨ d = .char '-'
      · simp [exponentTail, signed, digitRun_ends ends]
      · simp [exponentTail, signed, digits]

theorem numberTail_ends {z : Text} (ends : EndsNumber z) (y : Text) :
    numberTail (y ++ z) = numberTail y := by
  have whole := digitRun_le y
  have fraction := fractionTail_le (y.drop (digitRun y))
  rw [List.length_drop] at fraction
  simp only [numberTail, digitRun_ends ends, List.drop_append_of_le_length whole,
    fractionTail_ends ends]
  rw [List.drop_append_of_le_length (by omega), exponentTail_ends ends]

theorem numberTail_context (y t : Text) :
    numberTail (y ++ closingBrace :: t) = numberTail y :=
  numberTail_ends (endsNumber_brace t) y

/-! ## Pieces -/

theorem head?_context (y t : Text) :
    (y ++ closingBrace :: t).head? = (y ++ [closingBrace]).head? := by
  cases y <;> rfl

theorem tripleQuote_before_brace (y t : Text) (c : CodePoint) :
    tripleQuote.isPrefixOf (c :: (y ++ closingBrace :: t)) =
      tripleQuote.isPrefixOf (c :: (y ++ [closingBrace])) := by
  match y with
  | [] => simp [tripleQuote, closingBrace, List.isPrefixOf]
  | [d] => simp [tripleQuote, closingBrace, List.isPrefixOf]
  | d :: e :: y => simp [tripleQuote, List.isPrefixOf]

/-- A string that no three quotes open is read as the quoted one it is. -/
theorem string_context {y t : Text} {n : Nat}
    (single : tripleQuote.isPrefixOf (.char '"' :: (y ++ [closingBrace])) = false)
    (h : stringTail (y ++ [closingBrace]) = some n) :
    stringTail (y ++ closingBrace :: t) = some n := by
  have single' := (tripleQuote_before_brace y t (.char '"')).trans single
  simp only [stringTail, single, single', Bool.false_eq_true, if_false, Option.none_or] at h ⊢
  have later := quotedTail_context (t := t) h
  rwa [List.append_assoc, List.singleton_append] at later

theorem comment_context {y t : Text} {n : Nat}
    (opens : (y ++ [closingBrace]).head? = some (.char '*'))
    (h : commentTail ((y ++ [closingBrace]).drop 1) = some n) :
    commentTail ((y ++ closingBrace :: t).drop 1) = some n := by
  cases y with
  | nil => simp [closingBrace] at opens
  | cons d y =>
      have later := commentTail_context (t := t) h
      simpa using later

/-- A piece that fits before the brace is the same whatever follows the brace, unless it is a block
    string. -/
theorem Piece.of_context {c : CodePoint} {y : Text} (t : Text)
    (single : tripleQuote.isPrefixOf (c :: (y ++ [closingBrace])) = false)
    (fits : (Piece.of c (y ++ [closingBrace])).Fits y.length) :
    Piece.of c (y ++ closingBrace :: t) = Piece.of c (y ++ [closingBrace]) := by
  by_cases blank : c.isBlank = true
  · simp only [Piece.of, blank, if_true, Fits] at fits ⊢
    rw [takeWhile_context fits]
  by_cases hash : c = .char '#'
  · subst hash
    simp only [Piece.of, blank, Bool.false_eq_true, if_false, if_true, Fits, lineTail] at fits ⊢
    rw [takeWhile_context fits]
  by_cases slash : c = .char '/'
  · subst slash
    simp only [Piece.of, blank, hash, Bool.false_eq_true, if_false, if_true, head?_context] at fits ⊢
    by_cases line : (y ++ [closingBrace]).head? = some (.char '/')
    · simp only [line, if_true, Fits, lineTail] at fits ⊢
      rw [takeWhile_context fits]
    by_cases block : (y ++ [closingBrace]).head? = some (.char '*')
    · rw [if_neg line, if_pos block] at fits ⊢
      rw [if_neg line, if_pos block]
      cases found : commentTail ((y ++ [closingBrace]).drop 1) with
      | none =>
          rw [found] at fits
          cases fits
      | some n => simp only [comment_context block found]
    · rw [if_neg line, if_neg block, if_neg line, if_neg block]
  by_cases quote : c = .char '"'
  · subst quote
    simp only [Piece.of, blank, hash, slash, Bool.false_eq_true, if_false, if_true] at fits ⊢
    cases found : stringTail (y ++ [closingBrace]) with
    | none =>
        rw [found] at fits
        cases fits
    | some n => simp only [string_context single found]
  by_cases name : c.isNameStart = true
  · simp only [Piece.of, blank, hash, slash, quote, name, Bool.false_eq_true, if_false, if_true,
      Fits] at fits ⊢
    rw [takeWhile_context fits]
  have number : numberTail (c :: (y ++ closingBrace :: t)) = numberTail (c :: (y ++ [closingBrace])) :=
    (numberTail_context (c :: y) t).trans (numberTail_context (c :: y) []).symm
  have signed : numberTail (y ++ closingBrace :: t) = numberTail (y ++ [closingBrace]) :=
    (numberTail_context y t).trans (numberTail_context y []).symm
  simp only [Piece.of, blank, hash, slash, quote, name, number, signed, Bool.false_eq_true, if_false]

theorem Piece.of_quote (r : Text) :
    Piece.of (.char '"') r =
      match stringTail r with
      | some n => .lexeme .string n
      | none => .unterminated .string := rfl

/-- A piece that ends before the brace is the same whatever follows the brace. -/
theorem Piece.strict_context {c : CodePoint} {y : Text} (t : Text)
    (fits : (Piece.strict c (y ++ [closingBrace])).Fits y.length) :
    Piece.of c (y ++ closingBrace :: t) = Piece.strict c (y ++ [closingBrace]) := by
  cases triple : tripleQuote.isPrefixOf (c :: (y ++ [closingBrace])) with
  | false =>
      simp only [strict, triple, Bool.false_eq_true, if_false] at fits ⊢
      exact of_context t triple fits
  | true =>
      simp only [strict, triple, if_true] at fits ⊢
      rcases y with _ | ⟨d, _ | ⟨e, y⟩⟩
      · simp [tripleQuote, closingBrace, List.isPrefixOf] at triple
      · simp [tripleQuote, closingBrace, List.isPrefixOf] at triple
      · obtain ⟨rfl, rfl, rfl⟩ : .char '"' = c ∧ .char '"' = d ∧ .char '"' = e := by
          simpa [tripleQuote, List.isPrefixOf] using triple
        simp only [List.cons_append, List.drop_succ_cons, List.drop_zero] at fits ⊢
        cases found : strictBlockTail (y ++ [closingBrace]) with
        | none =>
            rw [found] at fits
            cases fits
        | some n =>
            have later : blockTail (y ++ closingBrace :: t) = some n := by
              simpa using blockTail_context (t := t) found
            have block : stringTail (.char '"' :: .char '"' :: (y ++ closingBrace :: t)) =
                some (n + 2) := by
              simp [stringTail, tripleQuote, List.isPrefixOf, later]
            rw [of_quote, block]

/-! ## Scanning -/

/-- The lexeme in a text that begins `by_` code points earlier. -/
def shift (by_ : Nat) (l : Lexeme) : Lexeme :=
  { l with start := by_ + l.start }

/-- The lexeme of the closing brace at an offset. -/
def brace (start : Nat) : Lexeme :=
  ⟨.mark, [closingBrace], start⟩

@[simp] theorem scanWith_nil (piece : CodePoint → Text → Piece) (k : Nat) :
    scanWith piece k [] = ([], none) := by
  rw [scanWith]

/-- What leaves lexemes to be read does not reach beyond the text. -/
theorem inside_of_scan {piece : CodePoint → Text → Piece} {k n : Nat} {y : Text} {b : CodePoint}
    {lexemes : List Lexeme} {last : Lexeme} {failure : Option Unterminated}
    (h : scanWith piece k ((y ++ [b]).drop n) = (lexemes ++ [last], failure)) : n ≤ y.length := by
  refine Decidable.byContradiction fun beyond => ?_
  have empty : (y ++ [b]).drop n = [] := by
    rw [List.drop_eq_nil_iff, List.length_append, List.length_singleton]
    omega
  simp [empty] at h

/-- A text that is all read, up to a last closing brace, has the same lexemes in front of any other
    text. -/
theorem scan_context {body : Text} {k e : Nat} {lexemes : List Lexeme} (ends : e = k + body.length)
    (h : scanWith Piece.strict k (body ++ [closingBrace]) = (lexemes ++ [brace e], none))
    (j : Nat) (t : Text) :
    scanWith Piece.of (j + k) (body ++ closingBrace :: t) =
      ((lexemes ++ [brace e]).map (shift j) ++ (scanWith Piece.of (j + e + 1) t).1,
        (scanWith Piece.of (j + e + 1) t).2) := by
  match body with
  | [] =>
      obtain rfl : e = k := ends
      have strict : Piece.strict closingBrace [] = .lexeme .mark 0 := by decide
      have plain : Piece.of closingBrace t = .lexeme .mark 0 := rfl
      rw [List.nil_append, scanWith, strict] at h
      simp only [List.drop_zero, List.take_zero, scanWith_nil, Prod.mk.injEq, and_true] at h
      rw [List.nil_append, scanWith, plain, ← h]
      rfl
  | c :: y =>
      have offset (n : Nat) : j + k + n + 1 = j + (k + n + 1) := by omega
      rw [List.length_cons] at ends
      rw [List.cons_append, scanWith] at h
      rw [List.cons_append, scanWith]
      cases piece : Piece.strict c (y ++ [closingBrace]) with
      | unterminated what => simp [piece] at h
      | blank n =>
          simp only [piece] at h
          have inside : n ≤ y.length := inside_of_scan h
          have same : Piece.of c (y ++ closingBrace :: t) = .blank n :=
            (Piece.strict_context t (by rw [piece]; exact inside)).trans piece
          rw [List.drop_append_of_le_length inside] at h
          simp only [same]
          rw [List.drop_append_of_le_length inside, offset n]
          exact scan_context (by rw [List.length_drop]; omega) h j t
      | lexeme kind n =>
          simp only [piece, Prod.mk.injEq] at h
          obtain ⟨found, complete⟩ := h
          cases lexemes with
          | nil =>
              have head := (List.cons.inj found).1
              simp only [brace, Lexeme.mk.injEq] at head
              omega
          | cons first lexemes =>
              obtain ⟨rfl, later⟩ := List.cons.inj found
              have rest : scanWith Piece.strict (k + n + 1) ((y ++ [closingBrace]).drop n) =
                  (lexemes ++ [brace e], none) := Prod.ext later complete
              have inside : n ≤ y.length := inside_of_scan rest
              have same : Piece.of c (y ++ closingBrace :: t) = .lexeme kind n :=
                (Piece.strict_context t (by rw [piece]; exact inside)).trans piece
              rw [List.drop_append_of_le_length inside] at rest
              have ih := scan_context (by rw [List.length_drop]; omega) rest j t
              simp only [same]
              rw [List.drop_append_of_le_length inside, List.take_append_of_le_length inside,
                List.take_append_of_le_length inside, offset n, ih]
              rfl
termination_by body.length
decreasing_by all_goals simp only [List.length_cons, List.length_drop]; omega

end ApprovedOps.Lexeme
