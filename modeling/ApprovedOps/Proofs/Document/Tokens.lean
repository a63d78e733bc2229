import ApprovedOps.Proofs.GraphQL.Excerpts
import ApprovedOps.Proofs.Document.Outline

/-! # Lexemes and tokens

A document is read twice: as lexemes, to be cut into parts, and part by part as tokens of the grammar.
Where the grammar finds no fault, and no token begins inside what is read as a comment, both readings
go in step: every token is a lexeme, the three dots are three of them, and all other lexemes are
comments, commas and byte order marks.
-/

namespace ApprovedOps

namespace GraphQL

open Lexeme (Piece scanWith)

/-! ## Pieces of tokens -/

/-- Are the code points of the text neither quotes nor backslashes nor line feeds? -/
def Inert (x : Text) : Prop :=
  ∀ c ∈ x, c ≠ .char '"' ∧ c ≠ .char '\\' ∧ c ≠ .char '\n'

theorem quotedTail_inert {x : Text} (inert : Inert x) (r : Text) :
    Lexeme.quotedTail (x ++ r) = (Lexeme.quotedTail r).map (· + x.length) := by
  induction x with
  | nil => simp
  | cons c x ih =>
      obtain ⟨⟨noQuote, noSlash, sameLine⟩, inert⟩ := List.forall_mem_cons.mp inert
      rw [List.cons_append, Lexeme.quotedTail.eq_def]
      simp only [noQuote, noSlash, sameLine, if_false, ih inert, Option.map_map, List.length_cons]
      congr 1

theorem hexValue_inert {c : CodePoint} {v : Nat} (h : c.hexValue? = some v) :
    c ≠ .char '"' ∧ c ≠ .char '\\' ∧ c ≠ .char '\n' := by
  refine ⟨?_, ?_, ?_⟩ <;>
  · rintro rfl
    cases h

theorem braced_inert {digits number n : Nat} {s : Text} {p : CodePoint}
    (h : Literal.braced digits number s = .ok (p, n)) :
    ∃ x r, s = x ++ r ∧ digits + x.length = n ∧ Inert x := by
  induction s generalizing digits number with
  | nil => cases h
  | cons c s ih =>
      rw [Literal.braced] at h
      split at h
      next closes =>
        subst closes
        split at h
        next => cases h
        next =>
          cases h
          exact ⟨[_], s, rfl, rfl, by simp [Inert]⟩
      next =>
        split at h
        next v hex =>
          obtain ⟨x, r, rfl, long, inert⟩ := ih h
          refine ⟨c :: x, r, rfl, by rw [List.length_cons]; omega, ?_⟩
          exact List.forall_mem_cons.mpr ⟨hexValue_inert hex, inert⟩
        next => cases h

theorem fourDigits?_inert {s : Text} {n : Nat} (h : Literal.fourDigits? s = some n) :
    ∃ x r, s = x ++ r ∧ x.length = 4 ∧ Inert x := by
  match s with
  | a :: b :: c :: d :: r =>
      obtain ⟨_, hexA, h⟩ := Option.bind_eq_some_iff.mp h
      obtain ⟨_, hexB, h⟩ := Option.bind_eq_some_iff.mp h
      obtain ⟨_, hexC, h⟩ := Option.bind_eq_some_iff.mp h
      obtain ⟨_, hexD, -⟩ := Option.bind_eq_some_iff.mp h
      refine ⟨[a, b, c, d], r, rfl, rfl, ?_⟩
      simp only [Inert, List.forall_mem_cons]
      exact ⟨hexValue_inert hexA, hexValue_inert hexB, hexValue_inert hexC, hexValue_inert hexD, nofun⟩
  | [] | [_] | [_, _] | [_, _, _] => cases h

theorem quotedTail_backslash (c : CodePoint) (r : Text) :
    Lexeme.quotedTail (.char '\\' :: c :: r) = (Lexeme.quotedTail r).map (· + 2) := by
  rw [Lexeme.quotedTail.eq_def]
  rfl

theorem quotedTail_fourDigits {s : Text} {p : CodePoint} {n : Nat}
    (h : Literal.fourDigitEscape s = some (p, n)) :
    ∃ x r, s = x ++ r ∧ x.length + 1 = n ∧
      Lexeme.quotedTail s = (Lexeme.quotedTail r).map (· + x.length) := by
  rw [Literal.fourDigitEscape] at h
  obtain ⟨high, first, next⟩ := Option.bind_eq_some_iff.mp h
  obtain ⟨x, r, rfl, long, inert⟩ := fourDigits?_inert first
  split at next
  next =>
    cases next
    exact ⟨x, r, rfl, by rw [long], quotedTail_inert inert r⟩
  next =>
    rw [List.drop_left' long] at next
    split at next
    next lead =>
      obtain ⟨low, second, made⟩ := Option.bind_eq_some_iff.mp next
      obtain ⟨r₁, rfl⟩ := List.isPrefixOf_iff_prefix.mp lead.2
      rw [← List.append_assoc, List.drop_left' (by simp [long])] at second
      obtain ⟨y, r, rfl, long', inert'⟩ := fourDigits?_inert second
      split at made
      next =>
        obtain ⟨-, rfl⟩ := Prod.mk.inj (Option.some.inj made)
        refine ⟨x ++ ([.char '\\', .char 'u'] ++ y), r, by simp, by simp [long, long'], ?_⟩
        rw [quotedTail_inert inert, List.cons_append, List.cons_append, List.nil_append,
          quotedTail_backslash, quotedTail_inert inert', Option.map_map, Option.map_map]
        congr 1
        funext m
        simp only [Function.comp_apply, List.length_append, List.length_cons, List.length_nil]
        omega
      next => cases made
    next => cases next

/-- A backslash takes its escape along, whatever the escape stands for. -/
theorem quotedTail_escape {s : Text} {p : CodePoint} {n : Nat} (h : Literal.escape s = .ok (p, n)) :
    Lexeme.quotedTail (.char '\\' :: s) = (Lexeme.quotedTail (s.drop n)).map (· + (n + 1)) := by
  cases s with
  | nil => cases h
  | cons c s =>
      rw [Literal.escape] at h
      rw [quotedTail_backslash]
      split at h
      next =>
        split at h
        next brace =>
          split at h
          next found =>
            cases h
            obtain ⟨x, y, text, rfl, inert⟩ := braced_inert found
            have more : s.drop 1 = x ++ (y ++ (s.drop 1).drop Literal.maxBraced) := by
              rw [← List.append_assoc, ← text, List.take_append_drop]
            have inert' : Inert (.char '\x7b' :: x) :=
              List.forall_mem_cons.mpr ⟨by decide, inert⟩
            rw [cons_of_head? brace more, ← List.cons_append, quotedTail_inert inert', Option.map_map,
              ← List.cons_append, List.drop_left' (by simp)]
            congr 1
            funext m
            simp only [Function.comp_apply, List.length_cons]
            omega
          next => cases h
        next =>
          split at h
          next found =>
            cases h
            obtain ⟨x, r, rfl, rfl, tail⟩ := quotedTail_fourDigits found
            rw [tail, Option.map_map, ← List.cons_append, List.drop_left' (by simp)]
            congr 1
          next => cases h
      next =>
        split at h
        next =>
          cases h
          rfl
        next => cases h

theorem quotedTail_string {s v : Text} {n : Nat} (h : Literal.string s = .ok (v, n)) :
    Lexeme.quotedTail s = some n := by
  fun_induction Literal.string s generalizing v n with
  | case2 =>
      cases h
      rw [Lexeme.quotedTail.eq_def]
      rfl
  | case4 r p k escaped value j read _ ih =>
      cases h
      rw [quotedTail_escape escaped, ih read]
      simp only [Option.map_some]
      congr 1
      omega
  | case8 r c value j read noQuote noSlash sameLine ih =>
      cases h
      have flat : CodePoint.char c ≠ .char '\n' := fun same => sameLine (by rw [same]; rfl)
      rw [Lexeme.quotedTail.eq_def]
      simp only [noQuote, noSlash, flat, if_false, ih read, Option.map_some]
  | case1 | case3 | case5 | case6 | case7 | case9 => cases h

theorem blockTail_plain {c : CodePoint} {r : Text}
    (open_ : ¬Literal.tripleQuote.isPrefixOf (c :: r) = true)
    (plain : ¬(c = .char '\\' ∧ Literal.tripleQuote.isPrefixOf r = true)) :
    Lexeme.blockTail (c :: r) = (Lexeme.blockTail r).map (· + 1) := by
  rw [Lexeme.blockTail]
  exact (if_neg open_).trans (if_neg plain)

theorem blockTail_lines {s first : Text} {rest : List Text} {n : Nat}
    (h : Literal.blockLines s = .ok (first, rest, n)) : Lexeme.blockTail s = some n := by
  fun_induction Literal.blockLines s generalizing first rest n with
  | case1 => cases h
  | case2 c r closes =>
      cases h
      rw [Lexeme.blockTail]
      exact if_pos closes
  | case3 c r open_ escapes l ls k read ih =>
      cases h
      rw [Lexeme.blockTail, ih read]
      exact (if_neg open_).trans (if_pos escapes)
  | case5 c r open_ plain feed l ls k read ih =>
      cases h
      obtain ⟨rfl, next⟩ := feed
      rw [blockTail_plain open_ plain]
      rw [cons_of_head? next rfl, blockTail_plain (by simp [Literal.tripleQuote, List.isPrefixOf])
        (by simp), ih read]
      rfl
  | case7 c r open_ plain noFeed newline l ls k read ih =>
      cases h
      rw [blockTail_plain open_ plain, ih read]
      rfl
  | case10 r c l ls k read open_ plain noFeed noBreak ih =>
      cases h
      rw [blockTail_plain open_ plain, ih read]
      rfl
  | case4 | case6 | case8 | case9 | case11 => cases h

theorem stringTail_block {r v : Text} {n : Nat} (triple : r.startsWith [.char '"', .char '"'] = true)
    (h : Literal.blockString (r.drop 2) = .ok (v, n)) : Lexeme.stringTail r = some (n + 2) := by
  rw [Literal.blockString] at h
  split at h
  next read =>
    cases h
    have quotes : Lexeme.tripleQuote.isPrefixOf (.char '"' :: r) = true := triple
    rw [Lexeme.stringTail, if_pos quotes, blockTail_lines read]
    rfl
  next => cases h

theorem stringTail_string {r v : Text} {n : Nat}
    (single : ¬r.startsWith [.char '"', .char '"'] = true) (h : Literal.string r = .ok (v, n)) :
    Lexeme.stringTail r = some n := by
  have quotes : ¬Lexeme.tripleQuote.isPrefixOf (.char '"' :: r) = true := single
  rw [Lexeme.stringTail, if_neg quotes, quotedTail_string h]
  rfl

/-! ## Numbers -/

theorem isAsciiDigit_value {p : CodePoint} : p.isAsciiDigit = true ↔ 48 ≤ p.value ∧ p.value < 58 := by
  cases p with
  | surrogate offset =>
      have high : 58 ≤ CodePoint.value (.surrogate offset) :=
        Nat.le_trans (by decide) (Nat.le_add_right 0xD800 _)
      exact iff_of_false nofun fun low => absurd low.2 (Nat.not_lt_of_le high)
  | char c =>
      change (decide (c.val ≥ 48) && decide (c.val ≤ 57)) = true ↔ 48 ≤ c.val.toNat ∧ c.val.toNat < 58
      simp only [Bool.and_eq_true, decide_eq_true_eq, ge_iff_le, UInt32.le_iff_toNat_le]
      exact and_congr_right' Nat.lt_succ_iff.symm

theorem asciiDigit_isDigit {p : CodePoint} (h : p.isAsciiDigit = true) : p.isDigit = true := by
  obtain ⟨low, high⟩ := isAsciiDigit_value.mp h
  have first : (48 ≤ p.value && p.value < 48 + 10) = true := by simp [low, high]
  rw [CodePoint.isDigit, CodePoint.digitValue?, Option.isSome_map, List.find?_isSome]
  exact ⟨48, by decide, first⟩

/-- The digits of other scripts lie beyond all that the grammar knows. -/
theorem not_isDigit {p : CodePoint} (low : p.value < 0x660) (other : p.isAsciiDigit = false) :
    p.isDigit = false := by
  refine Bool.eq_false_iff.mpr fun digit => ?_
  rw [CodePoint.isDigit, CodePoint.digitValue?, Option.isSome_map] at digit
  obtain ⟨z, found⟩ := Option.isSome_iff_exists.mp digit
  have bounds := List.find?_some found
  rw [Bool.and_eq_true, decide_eq_true_eq, decide_eq_true_eq] at bounds
  have zeros : ∀ z ∈ CodePoint.digitZeros, z = 48 ∨ 0x660 ≤ z := by decide
  obtain rfl | high := zeros z (List.mem_of_find?_eq_some found)
  · rw [isAsciiDigit_value.mpr bounds] at other
    cases other
  · omega

theorem begins_low {c : CodePoint} {r v : Text} {kind : TokenKind} {n : Nat}
    (h : Lexed.Begins c r kind v n) : c.value < 0x660 := by
  cases h with
  | block | string | dots => decide
  | mark mark =>
      cases c with
      | surrogate => cases mark
      | char c => exact of_decide_eq_true (of_isMark (P := fun c => c.toNat < 0x660) (by decide) mark)
  | number numeric =>
      obtain digit | rfl := numeric
      · exact Nat.lt_trans (isAsciiDigit_value.mp digit).2 (by decide)
      · decide
  | name start =>
      exact Nat.lt_of_le_of_lt (Lexeme.isNameContinue_value (nameStart_continues start)).2 (by decide)

/-- Does no digit of any script come next? -/
def NoDigit (s : Text) : Prop :=
  ∀ c ∈ s.head?, c.isDigit = false

theorem digitRun_digits {ds s : Text} (digits : IsDigits ds) (stops : NoDigit s) :
    Lexeme.digitRun (ds ++ s) = ds.length := by
  rw [Lexeme.digitRun, takeWhile_front (fun c among => asciiDigit_isDigit (digits.2 c among)) stops]

theorem whole_digits {x : Text} (whole : IsWhole x) : IsDigits x := by
  obtain rfl | ⟨digits, -⟩ := whole
  · exact ⟨List.cons_ne_nil _ _, by decide⟩
  · exact digits

theorem digits_pos {ds : Text} (digits : IsDigits ds) : 0 < ds.length :=
  List.length_pos_iff.mpr digits.1

theorem fractionTail_read {x s : Text} (fraction : IsFraction x) (stops : NoDigit s)
    (noPoint : s.head? ≠ some (.char '.')) : Lexeme.fractionTail (x ++ s) = x.length := by
  obtain rfl | ⟨ds, rfl, digits⟩ := fraction
  · cases s with
    | nil => rfl
    | cons c s => exact if_neg fun point => noPoint (congrArg some point.1)
  · rw [List.cons_append, Lexeme.fractionTail, digitRun_digits digits stops]
    exact if_pos ⟨rfl, digits_pos digits⟩

theorem exponentTail_read {x s : Text} (exponent : IsExponent x) (stops : NoDigit s)
    (noLetter : ¬(s.head? = some (.char 'e') ∨ s.head? = some (.char 'E'))) :
    Lexeme.exponentTail (x ++ s) = x.length := by
  obtain rfl | ⟨e, sign, ds, rfl, letter, signs, digits⟩ := exponent
  · cases s with
    | nil => rfl
    | cons c s =>
        exact if_neg fun letter => noLetter (letter.1.imp (congrArg some) (congrArg some))
  · have run := digitRun_digits digits stops
    have some_ := digits_pos digits
    obtain ⟨d, ds, rfl⟩ := List.exists_cons_of_ne_nil digits.1
    obtain rfl | rfl | rfl := signs
    · have digit := digits.2 d List.mem_cons_self
      have unsigned : d ≠ .char '+' ∧ d ≠ .char '-' := by
        constructor <;>
        · rintro rfl
          cases digit
      simp_all [Lexeme.exponentTail]
    · simp_all [Lexeme.exponentTail]
    · simp_all [Lexeme.exponentTail]

theorem numberTail_read {x y z s : Text} (whole : IsWhole x) (fraction : IsFraction y)
    (exponent : IsExponent z) (ends : EndsNumber s) (stops : NoDigit s) :
    Lexeme.numberTail (x ++ (y ++ (z ++ s))) = x.length + (y.length + z.length) := by
  have noPoint : s.head? ≠ some (.char '.') := fun first => (ends _ first).2 rfl
  have noLetter : ¬(s.head? = some (.char 'e') ∨ s.head? = some (.char 'E')) := by
    rintro (first | first)
    · cases (ends _ first).1
    · cases (ends _ first).1
  have stops₁ : NoDigit (z ++ s) ∧ (z ++ s).head? ≠ some (.char '.') := by
    obtain rfl | ⟨e, sign, ds, rfl, rfl | rfl, -⟩ := exponent
    · exact ⟨stops, noPoint⟩
    · exact ⟨fun c first => Option.some.inj first ▸ by decide, by simp⟩
    · exact ⟨fun c first => Option.some.inj first ▸ by decide, by simp⟩
  have stops₂ : NoDigit (y ++ (z ++ s)) := by
    obtain rfl | ⟨ds, rfl, -⟩ := fraction
    · exact stops₁.1
    · exact fun c first => Option.some.inj first ▸ by decide
  have some_ := digits_pos (whole_digits whole)
  rw [Lexeme.numberTail, digitRun_digits (whole_digits whole) stops₂, List.drop_left,
    fractionTail_read fraction stops₁.1 stops₁.2]
  dsimp only
  rw [← List.drop_drop, List.drop_left, List.drop_left,
    exponentTail_read exponent stops noLetter, if_neg (by omega), Nat.add_assoc]

/-! ## Lexemes of tokens -/

/-- Is the lexeme the same piece of the text as the token? -/
structure Token.Same (t : Token) (l : Lexeme) : Prop where
  start : l.start = t.start
  solid : l.kind ≠ .comment
  mark : ∀ c : Char, l.isMark c = true ↔ t.kind = Reader.mark c
  name : l.kind = .name ↔ t.kind = .name
  text : t.kind = .name → l.text = t.value

/-- Is the lexeme one that no token is read from? -/
def Silent (l : Lexeme) : Prop :=
  l.kind = .comment ∨ l.isMark ',' = true ∨ l.isMark '\uFEFF' = true

/-- The lexeme of a dot. -/
def dot (k : Nat) : Lexeme :=
  ⟨.mark, [.char '.'], k⟩

/-- Are the lexemes those of the tokens, with silent ones between them? -/
inductive Aligned : List Token → List Lexeme → Prop where
  | nil : Aligned [] []
  | silent {ts l ls} : Silent l → Aligned ts ls → Aligned ts (l :: ls)
  | same {t ts l ls} : t.Same l → Aligned ts ls → Aligned (t :: ts) (l :: ls)
  | dots {t ts ls} : t.kind = .mark (Text.ofString "...") → Aligned ts ls →
      Aligned (t :: ts) (dot t.start :: dot (t.start + 1) :: dot (t.start + 2) :: ls)

/-- Does the text go on with what is at most a digit of the grammar? -/
def Known (s : Text) : Prop :=
  ∀ c ∈ s.head?, c.isAsciiDigit = false → c.isDigit = false

theorem piece_digit {c : CodePoint} (digit : c.isAsciiDigit = true) (r : Text) :
    Piece.of c r = .lexeme .number (Lexeme.numberTail (c :: r) - 1) := by
  have solid : c.isBlank = false := Bool.eq_false_iff.mpr fun blank => by
    cases (digit_continues digit).symm.trans (Lexeme.blank_not_isNameContinue blank)
  have noStart : c.isNameStart = false := Bool.eq_false_iff.mpr fun start => by
    cases digit.symm.trans (nameStart_notDigit start)
  have others : c ≠ .char '#' ∧ c ≠ .char '/' ∧ c ≠ .char '"' := by
    refine ⟨?_, ?_, ?_⟩ <;>
    · rintro rfl
      cases digit
  simp only [Piece.of, solid, others, noStart, asciiDigit_isDigit digit, Bool.false_eq_true, if_false,
    if_true]

theorem piece_minus {r : Text} (some_ : 0 < Lexeme.numberTail r) :
    Piece.of (.char '-') r = .lexeme .number (Lexeme.numberTail r) :=
  if_pos some_

theorem number_piece {c : CodePoint} {r : Text} {isFloat : Bool} {n : Nat}
    (h : Literal.number (c :: r) = .ok (isFloat, n)) (known : Known (r.drop (n - 1))) :
    Piece.of c r = .lexeme .number (n - 1) := by
  obtain ⟨d, s, text, rfl, number, ends⟩ := number_ok h
  obtain ⟨sign, x, y, z, rfl, signs, whole, fraction, exponent, -⟩ := number
  have some_ := digits_pos (whole_digits whole)
  have behind : r.drop ((sign ++ (x ++ (y ++ z))).length - 1) = s := by
    rw [← List.drop_succ_cons (a := c), Nat.sub_add_cancel, text, List.drop_left]
    simp only [List.length_append]
    omega
  rw [behind] at known
  have noDigit : NoDigit s := fun p first => known p first (ends.stops p first)
  have tail := numberTail_read whole fraction exponent ends noDigit
  simp only [List.append_assoc] at text
  obtain rfl | rfl := signs
  · obtain ⟨e, x', rfl, digit⟩ := whole_first whole
    obtain rfl := (List.cons.inj text).1
    rw [piece_digit digit, text, List.nil_append, tail, List.nil_append, List.length_append,
      List.length_append]
  · obtain ⟨rfl, rfl⟩ := List.cons.inj text
    change Piece.of (.char '-') (x ++ (y ++ (z ++ s))) = _
    rw [piece_minus (by omega), tail]
    simp

/-- What is neither a blank nor begins anything else is a mark. -/
theorem piece_mark {c : CodePoint} (other : c.isBlank = false ∧ c ≠ .char '#' ∧ c ≠ .char '/' ∧
    c ≠ .char '"' ∧ c.isNameStart = false ∧ c.isDigit = false ∧ c ≠ .char '-') (r : Text) :
    Piece.of c r = .lexeme .mark 0 := by
  simp only [Piece.of, other, Bool.false_eq_true, if_false]

theorem mark_piece {c : Char} (mark : Lexed.isMark (.char c) = true) (r : Text) :
    Piece.of (.char c) r = .lexeme .mark 0 :=
  piece_mark (of_decide_eq_true (of_isMark (P := fun c => CodePoint.isBlank (.char c) = false ∧
    CodePoint.char c ≠ .char '#' ∧ CodePoint.char c ≠ .char '/' ∧ CodePoint.char c ≠ .char '"' ∧
    CodePoint.isNameStart (.char c) = false ∧ CodePoint.isDigit (.char c) = false ∧
    CodePoint.char c ≠ .char '-') (by decide) mark)) r

theorem same_mark {c : Char} (k : Nat) : Token.Same ⟨.mark [.char c], k, []⟩ ⟨.mark, [.char c], k⟩ where
  start := rfl
  solid := nofun
  mark d := by simp [Lexeme.isMark, Reader.mark]
  name := iff_of_false nofun nofun
  text := nofun

/-- A token that is no mark, and what is read as another kind of lexeme than marks and comments. -/
theorem same_other {kind : TokenKind} {lk : Lexeme.Kind} {k : Nat} {v x : Text}
    (noMark : ∀ c, kind ≠ .mark c) (other : lk ≠ .comment ∧ lk ≠ .mark)
    (name : lk = .name ↔ kind = .name) (text : kind = .name → x = v) :
    Token.Same ⟨kind, k, v⟩ ⟨lk, x, k⟩ where
  start := rfl
  solid := other.1
  mark d := by simp [Lexeme.isMark, other.2, noMark _, Reader.mark]
  name := name
  text := text

/-- A token is one lexeme, or it is three dots. -/
theorem begins_same {c : CodePoint} {r v : Text} {kind : TokenKind} {n : Nat}
    (h : Lexed.Begins c r kind v n) (known : Known (r.drop n)) :
    (∃ lk, Piece.of c r = .lexeme lk n ∧ ∀ k, Token.Same ⟨kind, k, v⟩ ⟨lk, c :: r.take n, k⟩) ∨
      ∃ s, r = .char '.' :: .char '.' :: s ∧ c = .char '.' ∧ n = 2 ∧
        kind = .mark (Text.ofString "...") := by
  cases h with
  | block triple read =>
      refine .inl ⟨.string, ?_, fun k => same_other nofun (by decide) (by decide) nofun⟩
      rw [Piece.of_quote, stringTail_block triple read]
  | string single read =>
      refine .inl ⟨.string, ?_, fun k => same_other nofun (by decide) (by decide) nofun⟩
      rw [Piece.of_quote, stringTail_string single read]
  | mark mark =>
      cases c with
      | surrogate => cases mark
      | char c => exact .inl ⟨.mark, mark_piece mark r, fun k => same_mark k⟩
  | @number _ _ isFloat _ numeric read =>
      refine .inl ⟨.number, number_piece read known, fun k => ?_⟩
      cases isFloat <;> exact same_other nofun (by decide) (by decide) nofun
  | name start =>
      refine .inl ⟨.name, Lexeme.piece_of_start start r, fun k => ?_⟩
      refine same_other nofun (by decide) (by decide) fun _ => ?_
      rw [← List.prefix_iff_eq_take.mp (List.takeWhile_prefix _)]
  | dots three =>
      obtain ⟨s, rfl⟩ := List.isPrefixOf_iff_prefix.mp three
      exact .inr ⟨s, rfl, rfl, rfl, rfl⟩

/-! ## Texts -/

/-- Has the grammar nothing against the text? -/
def Faultless (k : Nat) (s : Text) (ts : List Token) : Prop :=
  ∃ last : Token, last.kind = .eof ∧ Lexed.scanFrom k s = ts.map .token ++ [.token last]

theorem Faultless.ignored {k : Nat} {c : CodePoint} {r : Text} {ts : List Token}
    (h : Faultless k (c :: r) ts) (ignored : Lexed.isIgnored c = true) : Faultless (k + 1) r ts := by
  rwa [Faultless, scanFrom_ignored ignored] at h

theorem Faultless.comment {k : Nat} {r : Text} {ts : List Token}
    (h : Faultless k (.char '#' :: r) ts) :
    Faultless (k + Lexed.commentTail r + 1) (r.drop (Lexed.commentTail r)) ts := by
  rwa [Faultless, scanFrom_comment] at h

theorem begins_inside {c : CodePoint} {r v : Text} {kind : TokenKind} {n : Nat}
    (h : Lexed.Begins c r kind v n) : kind ≠ .eof := by
  cases h with
  | @number _ _ isFloat => cases isFloat <;> nofun
  | block | string | mark | name | dots => nofun

/-- Where nothing is ignored, a token begins. -/
theorem Faultless.solid {k : Nat} {c : CodePoint} {r : Text} {ts : List Token}
    (h : Faultless k (c :: r) ts) (solid : ¬Lexed.isIgnored c = true) (noHash : c ≠ .char '#') :
    ∃ kind v n ts', Lexed.Begins c r kind v n ∧ ts = ⟨kind, k, v⟩ :: ts' ∧
      Faultless (k + n + 1) (r.drop n) ts' := by
  obtain ⟨last, isEnd, scanned⟩ := h
  cases found : Lexed.tokenAt c r with
  | error e =>
      rw [scanFrom_broken solid noHash found] at scanned
      cases ts with
      | nil => cases scanned
      | cons t ts => cases ts <;> cases scanned
  | ok p =>
      obtain ⟨kind, v, n⟩ := p
      rw [scanFrom_token solid noHash found] at scanned
      have begins := tokenAt_begins found
      cases ts with
      | nil =>
          obtain rfl := Lexed.token.inj (List.cons.inj scanned).1
          exact absurd isEnd (begins_inside begins)
      | cons t ts =>
          obtain ⟨same, rest⟩ := List.cons.inj scanned
          exact ⟨kind, v, n, ts, begins, by rw [← Lexed.token.inj same], last, isEnd, rest⟩

theorem Faultless.known {k : Nat} {s : Text} {ts : List Token} (h : Faultless k s ts) : Known s := by
  cases s with
  | nil => exact nofun
  | cons c r =>
      rintro p ⟨⟩ other
      by_cases ignored : Lexed.isIgnored c = true
      · simp only [Lexed.isIgnored, Bool.or_eq_true, decide_eq_true_eq] at ignored
        obtain ((((rfl | rfl) | rfl) | rfl) | rfl) | rfl := ignored <;> decide
      by_cases hash : c = .char '#'
      · subst hash
        decide
      · obtain ⟨kind, v, n, ts', begins, -⟩ := h.solid ignored hash
        exact not_isDigit (begins_low begins) other

theorem Faultless.start {k : Nat} {s : Text} {ts : List Token} (h : Faultless k s ts) :
    ∀ t ∈ ts, k ≤ t.start := by
  obtain ⟨last, -, scanned⟩ := h
  intro t among
  exact scanFrom_start (s := s) (scanned ▸ List.mem_append_left _ (List.mem_map_of_mem among))

theorem commentTail_le_line (r : Text) : Lexed.commentTail r ≤ Lexeme.lineTail r := by
  induction r with
  | nil => exact Nat.le_refl 0
  | cons c r ih =>
      simp only [Lexed.commentTail, Lexeme.lineTail, List.takeWhile_cons] at ih ⊢
      by_cases feed : c = .char '\n'
      · subst feed
        exact Nat.zero_le _
      · rw [if_pos (decide_eq_true feed), List.length_cons]
        cases c with
        | surrogate => exact Nat.zero_le _
        | char c =>
            dsimp only
            split
            · exact Nat.succ_le_succ ih
            · exact Nat.zero_le _

theorem lineTail_cons {c : CodePoint} (inLine : c ≠ .char '\n') (r : Text) :
    Lexeme.lineTail (c :: r) = Lexeme.lineTail r + 1 := by
  rw [Lexeme.lineTail, List.takeWhile_cons_of_pos (by simpa using inLine)]
  rfl

theorem lineTail_drop {r : Text} {n : Nat} (h : n ≤ Lexeme.lineTail r) :
    Lexeme.lineTail (r.drop n) = Lexeme.lineTail r - n := by
  induction n generalizing r with
  | zero => rfl
  | succ n ih =>
      cases r with
      | nil => cases h
      | cons c r =>
          rw [List.drop_succ_cons]
          by_cases feed : c = .char '\n'
          · subst feed
            cases h
          · rw [lineTail_cons feed] at h ⊢
            rw [Nat.add_sub_add_right]
            exact ih (Nat.le_of_succ_le_succ h)

/-- Where no token begins up to the end of the line, the grammar passes over it. -/
theorem Faultless.line {k : Nat} {s : Text} {ts : List Token} (h : Faultless k s ts)
    (behind : ∀ t ∈ ts, k + Lexeme.lineTail s ≤ t.start) :
    Faultless (k + Lexeme.lineTail s) (s.drop (Lexeme.lineTail s)) ts := by
  match s with
  | [] => exact h
  | c :: r =>
      by_cases feed : c = .char '\n'
      · subst feed
        exact h
      rw [lineTail_cons feed] at behind ⊢
      by_cases ignored : Lexed.isIgnored c = true
      · have later := (h.ignored ignored).line fun t among => by
          have place := behind t among
          omega
        rwa [Nat.add_assoc, Nat.add_comm 1] at later
      by_cases hash : c = .char '#'
      · subst hash
        have inside := commentTail_le_line r
        have rest := lineTail_drop inside
        have later := h.comment.line fun t among => by
          have place := behind t among
          omega
        rw [rest, List.drop_drop] at later
        have place : k + Lexed.commentTail r + 1 + (Lexeme.lineTail r - Lexed.commentTail r) =
            k + (Lexeme.lineTail r + 1) := by omega
        rwa [place, Nat.add_sub_cancel' inside] at later
      · obtain ⟨kind, v, n, ts', -, rfl, -⟩ := h.solid ignored hash
        have place := behind _ List.mem_cons_self
        simp only at place
        omega
termination_by s.length
decreasing_by all_goals simp only [List.length_cons, List.length_drop]; omega

/-- Where the grammar finds no fault, and no token begins inside what is read as a comment, all
    lexemes are complete, and they are in step with the tokens. -/
theorem scan_aligned {k : Nat} {s : Text} {ts : List Token} (h : Faultless k s ts)
    (visible : ∀ l ∈ (scanWith Piece.of k s).1, l.kind = .comment → ∀ t ∈ ts,
      t.start < l.start ∨ l.stop ≤ t.start) :
    (scanWith Piece.of k s).2 = none ∧ Aligned ts (scanWith Piece.of k s).1 := by
  match s with
  | [] =>
      obtain ⟨last, -, scanned⟩ := h
      rw [Lexed.scanFrom] at scanned
      cases ts with
      | nil => exact ⟨by rw [scanWith], by rw [scanWith]; exact .nil⟩
      | cons t ts => cases ts <;> cases scanned
  | c :: r =>
      by_cases ignored : Lexed.isIgnored c = true
      · by_cases blank : c.isBlank = true
        · rw [Lexeme.scan_blank blank] at visible ⊢
          exact scan_aligned (h.ignored ignored) visible
        · have silent : (c = .char ',' ∨ c = .char '\uFEFF') := by
            simp only [Lexed.isIgnored, Bool.or_eq_true, decide_eq_true_eq] at ignored
            obtain ((((rfl | rfl) | rfl) | rfl) | rfl) | rfl := ignored
            · exact .inr rfl
            · exact absurd rfl blank
            · exact absurd rfl blank
            · exact .inl rfl
            · exact absurd rfl blank
            · exact absurd rfl blank
          have piece : Piece.of c r = .lexeme .mark 0 := by
            obtain rfl | rfl := silent <;> exact piece_mark (by decide) r
          rw [Lexeme.scan_piece piece] at visible ⊢
          obtain ⟨complete, later⟩ := scan_aligned (h.ignored ignored)
            fun l among => visible l (List.mem_cons_of_mem _ among)
          refine ⟨complete, .silent (.inr ?_) later⟩
          obtain rfl | rfl := silent
          · exact .inl rfl
          · exact .inr rfl
      by_cases hash : c = .char '#'
      · subst hash
        have piece : Piece.of (.char '#') r = .lexeme .comment (Lexeme.lineTail r) := rfl
        have long : Lexeme.lineTail (.char '#' :: r) = Lexeme.lineTail r + 1 :=
          lineTail_cons (by decide) r
        have inside : Lexeme.lineTail r ≤ r.length := (List.takeWhile_sublist _).length_le
        rw [Lexeme.scan_piece piece] at visible ⊢
        have rest := h.line fun t among => by
          have here := h.comment.start t among
          have place := visible _ List.mem_cons_self rfl t among
          simp only [Lexeme.stop, List.length_cons, List.length_take, Nat.min_eq_left inside] at place
          omega
        rw [long, List.drop_succ_cons, ← Nat.add_assoc] at rest
        obtain ⟨complete, later⟩ := scan_aligned rest
          fun l among => visible l (List.mem_cons_of_mem _ among)
        exact ⟨complete, .silent (.inl rfl) later⟩
      obtain ⟨kind, v, n, ts', begins, rfl, rest⟩ := h.solid ignored hash
      have next := scan_aligned rest
      obtain ⟨lk, piece, same⟩ | ⟨s, rfl, rfl, rfl, rfl⟩ := begins_same begins rest.known
      · rw [Lexeme.scan_piece piece] at visible ⊢
        obtain ⟨complete, later⟩ := next fun l among comment t later =>
          visible l (List.mem_cons_of_mem _ among) comment t (List.mem_cons_of_mem _ later)
        exact ⟨complete, .same (same k) later⟩
      · have point (k : Nat) (r : Text) : scanWith Piece.of k (.char '.' :: r) =
            (dot k :: (scanWith Piece.of (k + 1) r).1, (scanWith Piece.of (k + 1) r).2) :=
          Lexeme.scan_piece (piece_mark (by decide) r) k
        rw [point, point, point] at visible ⊢
        obtain ⟨complete, later⟩ := next fun l among comment t later =>
          visible l (List.mem_cons_of_mem _ (List.mem_cons_of_mem _ (List.mem_cons_of_mem _ among)))
            comment t (List.mem_cons_of_mem _ later)
        exact ⟨complete, .dots rfl later⟩
termination_by s.length
decreasing_by all_goals simp only [List.length_cons, List.length_drop]; omega

end GraphQL

end ApprovedOps
