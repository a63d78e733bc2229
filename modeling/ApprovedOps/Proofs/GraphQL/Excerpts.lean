import ApprovedOps.Proofs.GraphQL.Repeated.Documents

/-! # Excerpts

Nothing in front of a token's end depends on what comes after it. So an excerpt of a text that begins
where a token can begin and ends behind a mark has the tokens that the text has there.
-/

namespace ApprovedOps

namespace GraphQL

/-! ## Strings -/

theorem startsWith_take {s : Text} {a b : CodePoint} {m : Nat} (long : 2 ≤ m) :
    Text.startsWith (s.take m) [a, b] = Text.startsWith s [a, b] := by
  obtain ⟨m, rfl⟩ := Nat.exists_eq_add_of_le' long
  match s with
  | [] | [_] | _ :: _ :: _ => rfl

theorem head?_take {s : Text} {m : Nat} (some_ : 1 ≤ m) : (s.take m).head? = s.head? := by
  obtain ⟨m, rfl⟩ := Nat.exists_eq_add_of_le' some_
  cases s <;> rfl

theorem triple_take {s : Text} {m : Nat} (long : 3 ≤ m) :
    Literal.tripleQuote.isPrefixOf (s.take m) = Literal.tripleQuote.isPrefixOf s := by
  obtain ⟨m, rfl⟩ := Nat.exists_eq_add_of_le' long
  match s with
  | [] | [_] | [_, _] | _ :: _ :: _ :: _ => rfl

theorem triple_cons_take {c : CodePoint} {r : Text} {m : Nat} (long : 2 ≤ m) :
    Literal.tripleQuote.isPrefixOf (c :: r.take m) = Literal.tripleQuote.isPrefixOf (c :: r) := by
  rw [← List.take_succ_cons]
  exact triple_take (Nat.succ_le_succ long)

theorem fourDigits?_take {s : Text} {m : Nat} (long : 4 ≤ m) :
    Literal.fourDigits? (s.take m) = Literal.fourDigits? s := by
  obtain ⟨m, rfl⟩ := Nat.exists_eq_add_of_le' long
  match s with
  | [] | [_] | [_, _] | [_, _, _] | _ :: _ :: _ :: _ :: _ => rfl

theorem braced_take {digits number n m : Nat} {s : Text} {p : CodePoint}
    (h : Literal.braced digits number s = .ok (p, n)) (long : n ≤ digits + m) :
    digits < n ∧ Literal.braced digits number (s.take m) = .ok (p, n) := by
  induction s generalizing digits number m with
  | nil => cases h
  | cons c s ih =>
      have read := h
      rw [Literal.braced] at h
      by_cases closes : c = .char '\x7d'
      · rw [if_pos closes] at h
        split at h
        next => cases h
        next =>
          cases h
          obtain ⟨m, rfl⟩ := Nat.exists_eq_add_of_le' (by omega : 1 ≤ m)
          rw [Literal.braced, if_pos closes] at read
          refine ⟨by omega, ?_⟩
          rw [List.take_succ_cons, Literal.braced, if_pos closes]
          exact read
      · rw [if_neg closes] at h
        cases hex : c.hexValue? with
        | none =>
            rw [hex] at h
            cases h
        | some v =>
            rw [hex] at h
            obtain ⟨more, later⟩ := @ih (digits + 1) (number * 16 + v) (m - 1) h (by omega)
            obtain ⟨m, rfl⟩ := Nat.exists_eq_add_of_le' (by omega : 1 ≤ m)
            refine ⟨by omega, ?_⟩
            rw [List.take_succ_cons, Literal.braced, if_neg closes, hex]
            exact later

theorem fourDigitEscape_take {s : Text} {p : CodePoint} {n m : Nat}
    (h : Literal.fourDigitEscape s = some (p, n)) (long : n ≤ m + 1) :
    0 < n ∧ Literal.fourDigitEscape (s.take m) = some (p, n) := by
  rw [Literal.fourDigitEscape] at h
  obtain ⟨high, first, next⟩ := Option.bind_eq_some_iff.mp h
  by_cases valid : Literal.isScalar high = true
  · rw [if_pos valid] at next
    cases next
    refine ⟨by omega, ?_⟩
    rw [Literal.fourDigitEscape, fourDigits?_take (by omega), first]
    exact if_pos valid
  · rw [if_neg valid] at next
    by_cases lead : high < 0xDC00 ∧ Text.startsWith (s.drop 4) [.char '\\', .char 'u'] = true
    · rw [if_pos lead] at next
      obtain ⟨low, second, made⟩ := Option.bind_eq_some_iff.mp next
      by_cases trail : 0xDC00 ≤ low ∧ low < 0xE000
      · rw [if_pos trail] at made
        obtain ⟨rfl, rfl⟩ := Prod.mk.inj (Option.some.inj made)
        refine ⟨by omega, ?_⟩
        rw [Literal.fourDigitEscape, fourDigits?_take (by omega), first]
        simp only [Option.bind_eq_bind, Option.bind_some, valid, Bool.false_eq_true, if_false,
          List.drop_take]
        rw [startsWith_take (by omega), if_pos lead, fourDigits?_take (by omega), second]
        exact if_pos trail
      · rw [if_neg trail] at made
        cases made
    · rw [if_neg lead] at next
      cases next

theorem escape_take {s : Text} {p : CodePoint} {n m : Nat} (h : Literal.escape s = .ok (p, n))
    (long : n ≤ m) : Literal.escape (s.take m) = .ok (p, n) := by
  cases s with
  | nil => cases h
  | cons c s =>
      rw [Literal.escape] at h
      by_cases unicode : c = .char 'u'
      · rw [if_pos unicode] at h
        by_cases brace : s.head? = some (.char '\x7b')
        · rw [if_pos brace] at h
          cases found : Literal.braced 0 0 ((s.drop 1).take Literal.maxBraced) with
          | error =>
              rw [found] at h
              cases h
          | ok q =>
              rw [found] at h
              cases h
              obtain ⟨m, rfl⟩ := Nat.exists_eq_add_of_le' (by omega : 2 ≤ m)
              have again := (braced_take found (by omega : q.2 ≤ 0 + m)).2
              rw [List.take_succ_cons, Literal.escape, if_pos unicode, head?_take (by omega),
                if_pos brace, List.drop_take, List.take_take, Nat.min_comm, ← List.take_take,
                Nat.add_sub_cancel, again]
        · rw [if_neg brace] at h
          cases found : Literal.fourDigitEscape s with
          | none =>
              rw [found] at h
              cases h
          | some q =>
              rw [found] at h
              cases h
              have some_ := (fourDigitEscape_take found (Nat.le_succ n)).1
              obtain ⟨m, rfl⟩ := Nat.exists_eq_add_of_le' (by omega : 1 ≤ m)
              have again := (fourDigitEscape_take found long).2
              have other : ¬(s.take m).head? = some (.char '\x7b') := by
                cases m with
                | zero => simp
                | succ m => rwa [head?_take (by omega)]
              rw [List.take_succ_cons, Literal.escape, if_pos unicode, if_neg other, again]
      · rw [if_neg unicode] at h
        cases letter : Literal.escapeLetter? c with
        | none =>
            rw [letter] at h
            cases h
        | some q =>
            rw [letter] at h
            cases h
            obtain ⟨m, rfl⟩ := Nat.exists_eq_add_of_le' long
            rw [List.take_succ_cons, Literal.escape, if_neg unicode, letter]

theorem string_take {s v : Text} {n m : Nat} (h : Literal.string s = .ok (v, n)) (long : n ≤ m) :
    Literal.string (s.take m) = .ok (v, n) := by
  fun_induction Literal.string s generalizing v n m with
  | case2 =>
      cases h
      obtain ⟨m, rfl⟩ := Nat.exists_eq_add_of_le' long
      rw [List.take_succ_cons, Literal.string, if_pos rfl]
  | case4 r p k escaped value j read _ ih =>
      cases h
      obtain ⟨m, rfl⟩ := Nat.exists_eq_add_of_le' (by omega : 1 ≤ m)
      have later := @ih _ _ (m - k) read (by omega)
      rw [List.take_succ_cons, Literal.string, if_neg (by decide), if_pos rfl,
        escape_take escaped (by omega)]
      dsimp only
      rw [List.drop_take, later]
  | case8 r c value j read noQuote noSlash sameLine ih =>
      cases h
      obtain ⟨m, rfl⟩ := Nat.exists_eq_add_of_le' (by omega : 1 ≤ m)
      have later := @ih _ _ m read (by omega)
      rw [List.take_succ_cons, Literal.string, if_neg noQuote, if_neg noSlash, if_neg sameLine, later]
  | case1 | case3 | case5 | case6 | case7 | case9 => cases h

theorem blockLines_take {s first : Text} {rest : List Text} {n m : Nat}
    (h : Literal.blockLines s = .ok (first, rest, n)) (long : n ≤ m) :
    3 ≤ n ∧ Literal.blockLines (s.take m) = .ok (first, rest, n) := by
  fun_induction Literal.blockLines s generalizing first rest n m with
  | case1 => cases h
  | case2 c r closes =>
      cases h
      obtain ⟨m, rfl⟩ := Nat.exists_eq_add_of_le' (by omega : 1 ≤ m)
      refine ⟨Nat.le_refl 3, ?_⟩
      rw [List.take_succ_cons, Literal.blockLines.eq_def]
      dsimp only
      rw [triple_cons_take (by omega), if_pos closes]
  | case3 c r open_ escapes l ls k read ih =>
      cases h
      obtain ⟨m, rfl⟩ := Nat.exists_eq_add_of_le' (by omega : 1 ≤ m)
      obtain ⟨more, later⟩ := @ih _ _ _ (m - 3) read (by omega)
      refine ⟨by omega, ?_⟩
      rw [List.take_succ_cons, Literal.blockLines.eq_def]
      dsimp only
      rw [triple_cons_take (by omega), if_neg open_,
        triple_take (by omega), if_pos escapes, List.drop_take, later]
  | case5 c r open_ plain feed l ls k read ih =>
      cases h
      obtain ⟨m, rfl⟩ := Nat.exists_eq_add_of_le' (by omega : 1 ≤ m)
      obtain ⟨more, later⟩ := @ih _ _ _ (m - 1) read (by omega)
      refine ⟨by omega, ?_⟩
      rw [List.take_succ_cons, Literal.blockLines.eq_def]
      dsimp only
      rw [triple_cons_take (by omega), if_neg open_,
        triple_take (by omega), if_neg plain, head?_take (by omega), if_pos feed, List.drop_take, later]
  | case7 c r open_ plain noFeed newline l ls k read ih =>
      cases h
      obtain ⟨m, rfl⟩ := Nat.exists_eq_add_of_le' (by omega : 1 ≤ m)
      obtain ⟨more, later⟩ := @ih _ _ _ m read (by omega)
      refine ⟨by omega, ?_⟩
      rw [List.take_succ_cons, Literal.blockLines.eq_def]
      dsimp only
      rw [triple_cons_take (by omega), if_neg open_,
        triple_take (by omega), if_neg plain, head?_take (by omega), if_neg noFeed, if_pos newline,
        later]
  | case10 r c l ls k read open_ plain noFeed noBreak ih =>
      cases h
      obtain ⟨m, rfl⟩ := Nat.exists_eq_add_of_le' (by omega : 1 ≤ m)
      obtain ⟨more, later⟩ := @ih _ _ _ m read (by omega)
      refine ⟨by omega, ?_⟩
      rw [List.take_succ_cons, Literal.blockLines.eq_def]
      dsimp only
      rw [triple_cons_take (by omega), if_neg open_,
        triple_take (by omega), if_neg plain, head?_take (by omega), if_neg noFeed, if_neg noBreak,
        later]
  | case4 | case6 | case8 | case9 | case11 => cases h

theorem blockString_take {s v : Text} {n m : Nat} (h : Literal.blockString s = .ok (v, n))
    (long : n ≤ m) : Literal.blockString (s.take m) = .ok (v, n) := by
  rw [Literal.blockString] at h
  split at h
  next first rest k read =>
    cases h
    rw [Literal.blockString, (blockLines_take read long).2]
  next => cases h

/-! ## Tokens -/

theorem takeWhile_take {p : CodePoint → Bool} {s : Text} {m : Nat}
    (long : (s.takeWhile p).length ≤ m) : (s.take m).takeWhile p = s.takeWhile p := by
  induction s generalizing m with
  | nil => rw [List.take_nil]
  | cons c s ih =>
      cases stops : p c with
      | false =>
          cases m with
          | zero => simp [stops]
          | succ m => simp [stops]
      | true =>
          simp only [List.takeWhile_cons, stops, if_true, List.length_cons] at long ⊢
          obtain ⟨m, rfl⟩ := Nat.exists_eq_add_of_le' (by omega : 1 ≤ m)
          rw [List.take_succ_cons, List.takeWhile_cons, stops, if_pos rfl, ih (by omega)]

theorem number_take {s : Text} {isFloat : Bool} {n m : Nat}
    (h : Literal.number s = .ok (isFloat, n)) (long : n ≤ m) :
    1 ≤ n ∧ Literal.number (s.take m) = .ok (isFloat, n) ∧ (s.take m).take n = s.take n := by
  obtain ⟨d, r, rfl, rfl, number, ends⟩ := number_ok h
  obtain ⟨c, r', rfl, -⟩ := number_first number
  refine ⟨by simp, ?_, by rw [List.take_take, Nat.min_eq_left long]⟩
  rw [List.take_append, List.take_of_length_le long]
  refine number_read number fun p first => ends p ?_
  by_cases some_ : 1 ≤ m - (c :: r').length
  · rwa [head?_take some_] at first
  · rw [Nat.lt_one_iff.mp (Nat.lt_of_not_le some_), List.take_zero] at first
    cases first

/-- What a token can be that begins with a code point and takes `n` more. -/
inductive Lexed.Begins : CodePoint → Text → TokenKind → Text → Nat → Prop where
  | block {r v n} : r.startsWith [.char '"', .char '"'] = true →
      Literal.blockString (r.drop 2) = .ok (v, n) → Begins (.char '"') r .blockString v (n + 2)
  | string {r v n} : ¬r.startsWith [.char '"', .char '"'] = true → Literal.string r = .ok (v, n) →
      Begins (.char '"') r .string v n
  | mark {c r} : Lexed.isMark c = true → Begins c r (.mark [c]) [] 0
  | number {c r isFloat n} : c.isAsciiDigit = true ∨ c = .char '-' →
      Literal.number (c :: r) = .ok (isFloat, n) →
      Begins c r (if isFloat then .float else .int) ((c :: r).take n) (n - 1)
  | name {c r} : c.isNameStart = true → Begins c r .name (c :: r.takeWhile CodePoint.isNameContinue)
      (r.takeWhile CodePoint.isNameContinue).length
  | dots {r} : r.startsWith [.char '.', .char '.'] = true →
      Begins (.char '.') r (.mark (Text.ofString "...")) [] 2

theorem begins_mark {c : CodePoint} {r v : Text} {kind : TokenKind} {n : Nat} {d : Char}
    (h : Lexed.Begins c r kind v n) (mark : kind = Reader.mark d) : n = 0 := by
  cases h with
  | mark => rfl
  | @number _ _ isFloat => cases isFloat <;> cases mark
  | block | string | name | dots => cases mark

theorem dots_ok {r v : Text} {kind : TokenKind} {n : Nat} (h : Lexed.dots r = .ok (kind, v, n)) :
    Lexed.Begins (.char '.') r kind v n := by
  rw [Lexed.dots] at h
  split at h
  next three =>
    cases h
    exact .dots three
  next =>
    split at h
    next => cases h
    next =>
      dsimp only at h
      split at h <;> cases h

theorem tokenAt_begins {c : CodePoint} {r v : Text} {kind : TokenKind} {n : Nat}
    (h : Lexed.tokenAt c r = .ok (kind, v, n)) : Lexed.Begins c r kind v n := by
  unfold Lexed.tokenAt at h
  split at h
  next quote =>
    subst quote
    split at h
    next block =>
      obtain ⟨⟨value, k⟩, read, h⟩ := except_bind_ok h
      cases h
      exact .block block (after_ok read)
    next single =>
      obtain ⟨⟨value, k⟩, read, h⟩ := except_bind_ok h
      cases h
      exact .string single (after_ok read)
  split at h
  next mark =>
    cases h
    exact .mark mark
  split at h
  next numeric =>
    obtain ⟨⟨isFloat, k⟩, read, h⟩ := except_bind_ok h
    cases h
    exact .number (by simpa using numeric) read
  split at h
  next start =>
    cases h
    exact .name start
  split at h
  next point =>
    subst point
    cases found : Lexed.dots r with
    | error => rw [found] at h; cases h
    | ok p =>
        rw [found] at h
        cases h
        exact dots_ok found
  split at h
  next => cases h
  next => split at h <;> cases h

theorem begins_tokenAt {c : CodePoint} {r v : Text} {kind : TokenKind} {n : Nat}
    (h : Lexed.Begins c r kind v n) : Lexed.tokenAt c r = .ok (kind, v, n) := by
  unfold Lexed.tokenAt
  cases h with
  | block block read => rw [if_pos rfl, if_pos block, read]; rfl
  | string single read => rw [if_pos rfl, if_neg single, read]; rfl
  | mark mark =>
      have noQuote : c ≠ .char '"' := by rintro rfl; exact absurd mark (by decide)
      rw [if_neg noQuote, if_pos mark]
  | number numeric read =>
      obtain ⟨-, noMark, -, noQuote⟩ := numeric_other numeric
      have begins : (c.isAsciiDigit || decide (c = .char '-')) = true := by simpa using numeric
      rw [if_neg noQuote, if_neg (Bool.eq_false_iff.mp noMark), if_pos begins, read]
      rfl
  | name start =>
      obtain ⟨-, noMark, -, noQuote, noMinus⟩ := nameStart_other start
      rw [if_neg noQuote, if_neg (Bool.eq_false_iff.mp noMark),
        if_neg (by simp [nameStart_notDigit start, noMinus]), if_pos start]
  | dots three =>
      rw [if_neg (by decide), if_neg (by decide), if_neg (by decide), if_neg (by decide), if_pos rfl,
        Lexed.dots, if_pos three]

/-- A token is the same in a text that ends anywhere behind it. -/
theorem tokenAt_take {c : CodePoint} {r v : Text} {kind : TokenKind} {n m : Nat}
    (h : Lexed.tokenAt c r = .ok (kind, v, n)) (long : n ≤ m) :
    Lexed.tokenAt c (r.take m) = .ok (kind, v, n) := by
  cases tokenAt_begins h with
  | @block _ _ k block read =>
      refine begins_tokenAt (.block (by rwa [startsWith_take (by omega)]) ?_)
      rw [List.drop_take]
      exact blockString_take read (by omega)
  | string single read =>
      refine begins_tokenAt (.string (fun triple => single ?_) (string_take read long))
      exact List.isPrefixOf_iff_prefix.mpr
        ((List.isPrefixOf_iff_prefix.mp triple).trans (List.take_prefix m r))
  | mark mark => exact begins_tokenAt (.mark mark)
  | @number _ _ _ k numeric read =>
      obtain ⟨some_, again, same⟩ := number_take read (m := m + 1) (by omega)
      rw [List.take_succ_cons] at again same
      rw [← same]
      exact begins_tokenAt (.number numeric again)
  | name start =>
      have all := takeWhile_take long
      rw [← all]
      exact begins_tokenAt (.name start)
  | dots three => exact begins_tokenAt (.dots (by rwa [startsWith_take long]))

/-! ## Texts -/

section

variable {k : Nat} {c : CodePoint} {r s : Text} {t : Token}

theorem scanFrom_ignored (ignored : Lexed.isIgnored c = true) (k : Nat) (r : Text) :
    Lexed.scanFrom k (c :: r) = Lexed.scanFrom (k + 1) r := by
  rw [Lexed.scanFrom, if_pos ignored]

theorem scanFrom_comment (k : Nat) (r : Text) : Lexed.scanFrom k (.char '#' :: r) =
    Lexed.scanFrom (k + Lexed.commentTail r + 1) (r.drop (Lexed.commentTail r)) := by
  rw [Lexed.scanFrom, if_neg (by decide), if_pos rfl]

theorem scanFrom_token {v : Text} {kind : TokenKind} {n : Nat}
    (solid : ¬Lexed.isIgnored c = true) (noHash : c ≠ .char '#')
    (found : Lexed.tokenAt c r = .ok (kind, v, n)) (k : Nat) : Lexed.scanFrom k (c :: r) =
      .token ⟨kind, k, v⟩ :: Lexed.scanFrom (k + n + 1) (r.drop n) := by
  rw [Lexed.scanFrom, if_neg solid, if_neg noHash, found]

theorem scanFrom_broken {e : Misread} (solid : ¬Lexed.isIgnored c = true) (noHash : c ≠ .char '#')
    (found : Lexed.tokenAt c r = .error e) (k : Nat) :
    Lexed.scanFrom k (c :: r) = [.broken ⟨k + e.distance, e.problem⟩] := by
  rw [Lexed.scanFrom, if_neg solid, if_neg noHash, found]

theorem scanFrom_start (among : .token t ∈ Lexed.scanFrom k s) : k ≤ t.start := by
  fun_induction Lexed.scanFrom k s with
  | case1 k =>
      cases List.mem_singleton.mp among
      exact Nat.le_refl k
  | case2 k c r ignored ih => exact Nat.le_of_succ_le (ih among)
  | case3 k r n ignored ih => exact Nat.le_trans (by omega) (ih among)
  | case4 k c r ignored plain kind v n found ih =>
      obtain same | later := List.mem_cons.mp among
      · cases same
        exact Nat.le_refl k
      · exact Nat.le_trans (by omega) (ih later)
  | case5 => cases List.mem_singleton.mp among

/-- The words of a text do not depend on where it starts. -/
theorem scanFrom_words (k k' : Nat) (s : Text) :
    (Lexed.scanFrom k s).map Lexed.word? = (Lexed.scanFrom k' s).map Lexed.word? := by
  fun_induction Lexed.scanFrom k s generalizing k' with
  | case1 => rw [Lexed.scanFrom]; rfl
  | case2 k c r ignored ih => rw [ih (k' + 1), scanFrom_ignored ignored]
  | case3 k r n ignored ih => rw [ih (k' + n + 1), scanFrom_comment]
  | case4 k c r ignored plain kind v n found ih =>
      rw [List.map_cons, ih (k' + n + 1), scanFrom_token ignored plain found]
      rfl
  | case5 k c r ignored plain e found =>
      rw [scanFrom_broken ignored plain found]
      rfl

theorem scanFrom_place {front more : List Lexed}
    (h : Lexed.scanFrom k s = front ++ .token t :: more) : k ≤ t.start :=
  scanFrom_start (h ▸ List.mem_append_right front List.mem_cons_self)

theorem drop_cons_sub (c : CodePoint) (r : Text) {j : Nat} (place : k < j) :
    (c :: r).drop (j - k) = r.drop (j - (k + 1)) := by
  rw [show j - k = j - (k + 1) + 1 by omega, List.drop_succ_cons]

/-- From a token on, a text is read as if it began there. -/
theorem scanFrom_drop {front more : List Lexed}
    (h : Lexed.scanFrom k s = front ++ .token t :: more) :
    Lexed.scanFrom t.start (s.drop (t.start - k)) = .token t :: more := by
  fun_induction Lexed.scanFrom k s generalizing front with
  | case1 k =>
      cases front with
      | nil =>
          cases h
          rw [Nat.sub_self, List.drop_zero, Lexed.scanFrom]
      | cons l front => cases front <;> cases h
  | case2 k c r ignored ih =>
      rw [drop_cons_sub c r (scanFrom_place h)]
      exact ih h
  | case3 k r n ignored =>
      rename_i ih
      have later := scanFrom_place h
      rw [drop_cons_sub _ r (by omega), ← ih h, List.drop_drop]
      congr 2
      omega
  | case4 k c r ignored plain kind v n found ih =>
      cases front with
      | nil =>
          cases h
          rw [Nat.sub_self, List.drop_zero]
          exact scanFrom_token ignored plain found _
      | cons l front =>
          have rest := (List.cons.inj h).2
          have later := scanFrom_place rest
          rw [drop_cons_sub c r (by omega), ← ih rest, List.drop_drop]
          congr 2
          omega
  | case5 =>
      cases front with
      | nil => cases h
      | cons l front => cases front <;> cases h

/-- Up to a mark, a text is read as if it ended there. -/
theorem scanFrom_take {ts : List Token} {last : Token} {more : List Lexed} {d : Char}
    (h : Lexed.scanFrom k s = ts.map .token ++ .token last :: more)
    (mark : last.kind = Reader.mark d) :
    Lexed.scanFrom k (s.take (last.start + 1 - k)) =
      ts.map .token ++ [.token last, .token ⟨.eof, last.start + 1, []⟩] := by
  fun_induction Lexed.scanFrom k s generalizing ts with
  | case1 k =>
      cases ts with
      | nil =>
          cases h
          cases mark
      | cons t ts => cases ts <;> cases h
  | case2 k c r ignored ih =>
      have later := scanFrom_place h
      rw [show last.start + 1 - k = last.start + 1 - (k + 1) + 1 by omega, List.take_succ_cons,
        scanFrom_ignored ignored]
      exact ih h
  | case3 k r n ignored =>
      rename_i ih
      have later := scanFrom_place h
      have tail : Lexed.commentTail (r.take (last.start - k)) = Lexed.commentTail r :=
        congrArg List.length (takeWhile_take (by
          change Lexed.commentTail r ≤ _
          omega))
      rw [show last.start + 1 - k = last.start - k + 1 by omega, List.take_succ_cons,
        scanFrom_comment, tail, List.drop_take, ← ih h]
      congr 2
      omega
  | case4 k c r ignored plain kind v n found ih =>
      cases ts with
      | nil =>
          cases h
          obtain rfl := begins_mark (tokenAt_begins found) mark
          have alone := tokenAt_take found (Nat.le_refl 0)
          rw [Nat.add_sub_cancel_left, List.take_succ_cons, scanFrom_token ignored plain alone,
            List.take_zero, List.drop_nil, Lexed.scanFrom]
          rfl
      | cons t ts =>
          obtain ⟨same, rest⟩ := List.cons.inj h
          have later := scanFrom_place rest
          have again := tokenAt_take found (show n ≤ last.start - k by omega)
          rw [show last.start + 1 - k = last.start - k + 1 by omega, List.take_succ_cons,
            scanFrom_token ignored plain again, List.drop_take, List.map_cons, List.cons_append, ← same,
            ← ih rest]
          congr 3
          omega
  | case5 =>
      cases ts with
      | nil => cases h
      | cons t ts => cases ts <;> cases h

/-- An excerpt from a token to a mark has the words of the text from the one to the other. -/
theorem scan_excerpt {front more : List Lexed} {first last : Token} {inner : List Token} {d : Char}
    (h : Lexed.scan s = front ++ ((first :: inner).map .token ++ .token last :: more))
    (mark : last.kind = Reader.mark d) :
    (Lexed.scan ((s.take (last.start + 1)).drop first.start)).map Lexed.word? =
      ((first :: inner ++ [last]).map Token.word ++ [Word.eof]).map some := by
  have from_ := scanFrom_drop h
  rw [Nat.sub_zero] at from_
  have upTo := @scanFrom_take _ _ (first :: inner) _ _ _ from_ mark
  rw [Lexed.scan, List.drop_take, scanFrom_words 0 first.start, upTo]
  simp [Lexed.word?, Word.eof, Token.word]

end

end GraphQL

end ApprovedOps
