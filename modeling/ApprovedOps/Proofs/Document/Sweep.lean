import ApprovedOps.Proofs.Document.Divided

/-! # Comments and strings from left to right

A sweep over a text, one code point after the other, that is always inside a comment, inside a string
or outside both. Three quotes always open a block string, and what is escaped in it is never read
again. The lexemes of a text are read piece by piece instead, and a block string that does not end is
tried again: as one that ends with its last escaped quotes, or as an empty string. Where the sweep
finds no such string open in the end, both find the same comments and strings.
-/

namespace ApprovedOps.Lexeme

/-! ## The sweep -/

/-- What a sweep can be inside of. -/
inductive Mode where
  /-- Neither a comment nor a string. -/
  | outside
  /-- `# …` or `// …`. -/
  | line
  /-- `/* …`. -/
  | comment
  /-- `"…`. -/
  | quoted
  /-- `"""…`. -/
  | block
  deriving DecidableEq, Repr

/-- A lexeme in front of others. -/
def before (l : Lexeme) (read : List Lexeme × Option Unterminated) :
    List Lexeme × Option Unterminated :=
  (l :: read.1, read.2)

/-- The comments and strings of a text, up to the first one that does not end. `start` is the offset
    at which the one began that the sweep is inside of, and `past` what has been passed of it. -/
def sweepFrom (mode : Mode) (start : Nat) (past : Text) (s : Text) :
    List Lexeme × Option Unterminated :=
  match mode, s with
  | .outside, [] => ([], none)
  | .outside, c :: r =>
    if c = .char '#' ∨ c = .char '/' ∧ r.head? = some (.char '/') then
      sweepFrom .line start [c] r
    else if c = .char '/' ∧ r.head? = some (.char '*') then
      sweepFrom .comment start [c, .char '*'] (r.drop 1)
    else if tripleQuote.isPrefixOf (c :: r) then
      sweepFrom .block start tripleQuote (r.drop 2)
    else if c = .char '"' then
      sweepFrom .quoted start [c] r
    else
      sweepFrom .outside (start + 1) [] r
  | .line, [] => ([⟨.comment, past, start⟩], none)
  | .line, c :: r =>
    if c = .char '\n' then
      before ⟨.comment, past, start⟩ (sweepFrom .outside (start + past.length + 1) [] r)
    else
      sweepFrom .line start (past ++ [c]) r
  | .comment, [] => ([], some ⟨.comment, start⟩)
  | .comment, c :: r =>
    if c = .char '*' ∧ r.head? = some (.char '/') then
      before ⟨.comment, past ++ [c, .char '/'], start⟩
        (sweepFrom .outside (start + past.length + 2) [] (r.drop 1))
    else
      sweepFrom .comment start (past ++ [c]) r
  | .quoted, [] => ([], some ⟨.string, start⟩)
  | .quoted, c :: r =>
    if c = .char '"' then
      before ⟨.string, past ++ [c], start⟩ (sweepFrom .outside (start + past.length + 1) [] r)
    else if c = .char '\\' then
      sweepFrom .quoted start (past ++ c :: r.take 1) (r.drop 1)
    else if c = .char '\n' then
      ([], some ⟨.string, start⟩)
    else
      sweepFrom .quoted start (past ++ [c]) r
  | .block, [] => ([], some ⟨.string, start⟩)
  | .block, c :: r =>
    if tripleQuote.isPrefixOf (c :: r) then
      before ⟨.string, past ++ tripleQuote, start⟩
        (sweepFrom .outside (start + past.length + 3) [] (r.drop 2))
    else if c = .char '\\' ∧ tripleQuote.isPrefixOf r then
      sweepFrom .block start (past ++ c :: tripleQuote) (r.drop 3)
    else
      sweepFrom .block start (past ++ [c]) r
termination_by s.length
decreasing_by all_goals simp only [List.length_cons, List.length_drop]; omega

/-- The comments and strings of a text, up to the first one that does not end. -/
def sweep (t : Text) : List Lexeme × Option Unterminated :=
  sweepFrom .outside 0 [] t

/-! ## Inside a comment or a string -/

/-- The kind of what may be left open. -/
def Bracketed.kind : Bracketed → Kind
  | comment => .comment
  | string => .string

/-- What a sweep finds that is inside something, if so many code points of it are still to come; none
    if it does not end. -/
def behind (what : Bracketed) (start : Nat) (past s : Text) :
    Option Nat → List Lexeme × Option Unterminated
  | some n => before ⟨what.kind, past ++ s.take n, start⟩
      (sweepFrom .outside (start + past.length + n) [] (s.drop n))
  | none => ([], some ⟨what, start⟩)

theorem behind_append (what : Bracketed) (start : Nat) (past x s : Text) (tail : Option Nat) :
    behind what start (past ++ x) s tail =
      behind what start past (x ++ s) (tail.map (· + x.length)) := by
  cases tail with
  | none => rfl
  | some n =>
      have size : start + (past ++ x).length + n = start + past.length + (x.length + n) := by
        rw [List.length_append]
        omega
      rw [Option.map_some, Nat.add_comm n, behind, behind, size, List.take_length_add_append,
        List.drop_length_add_append, List.append_assoc]

/-- Outside, the sweep passes over code points that open nothing. -/
def Idle (c : CodePoint) : Prop :=
  c ≠ .char '#' ∧ c ≠ .char '/' ∧ c ≠ .char '"'

instance : DecidablePred Idle :=
  fun _ => inferInstanceAs (Decidable (_ ∧ _ ∧ _))

theorem sweep_idle {c : CodePoint} (idle : Idle c) (k : Nat) (past r : Text) :
    sweepFrom .outside k past (c :: r) = sweepFrom .outside (k + 1) [] r := by
  obtain ⟨hash, slash, quote⟩ := idle
  have single : tripleQuote.isPrefixOf (c :: r) = false := by
    simp [tripleQuote, List.isPrefixOf, Ne.symm quote]
  rw [sweepFrom, if_neg (by simp [hash, slash]), if_neg (by simp [slash]), single,
    if_neg Bool.false_ne_true, if_neg quote]

theorem sweep_idles {x : Text} (idle : ∀ c ∈ x, Idle c) (k : Nat) (s : Text) :
    sweepFrom .outside k [] (x ++ s) = sweepFrom .outside (k + x.length) [] s := by
  induction x generalizing k with
  | nil => rfl
  | cons c x ih =>
      obtain ⟨first, rest⟩ := List.forall_mem_cons.mp idle
      rw [List.cons_append, sweep_idle first, ih rest, List.length_cons]
      congr 1
      omega

/-- A comment to the end of its line is passed up to there. -/
theorem sweep_line (k : Nat) (past s : Text) :
    sweepFrom .line k past s = behind .comment k past s (some (lineTail s)) := by
  induction s generalizing past with
  | nil => simp [sweepFrom, behind, before, lineTail, Bracketed.kind]
  | cons c r ih =>
      rw [sweepFrom]
      split
      next newline =>
        subst newline
        have stop : lineTail (CodePoint.char '\n' :: r) = 0 := rfl
        rw [stop, behind, List.take_zero, List.append_nil, List.drop_zero,
          sweep_idle (by decide) _ [] r]
        rfl
      next goesOn =>
        have longer : some (lineTail (c :: r)) = (some (lineTail r)).map (· + [c].length) := by
          simp [lineTail, goesOn]
        rw [ih, behind_append, longer, List.singleton_append]

/-- A block comment is passed up to its closing mark. -/
theorem sweep_comment (k : Nat) (past s : Text) :
    sweepFrom .comment k past s = behind .comment k past s (commentTail s) := by
  induction s generalizing past with
  | nil => rw [sweepFrom, commentTail, behind]
  | cons c r ih =>
      rw [sweepFrom, commentTail]
      split
      next closes =>
        obtain ⟨r, rfl⟩ : ∃ r', r = .char '/' :: r' := ⟨_, List.eq_cons_of_mem_head? closes.2⟩
        rfl
      next =>
        rw [ih]
        exact behind_append .comment k past [c] r _

/-- A string is passed up to its closing quote. -/
theorem sweep_quoted (k : Nat) (past s : Text) :
    sweepFrom .quoted k past s = behind .string k past s (quotedTail s) := by
  fun_induction quotedTail s generalizing past with
  | case1 => rw [sweepFrom, behind]
  | case2 r =>
      rw [sweepFrom, if_pos rfl]
      rfl
  | case3 open_ => rw [sweepFrom, if_neg open_, if_pos rfl, List.drop_nil, sweepFrom, behind]
  | case4 d r open_ ih =>
      rw [sweepFrom, if_neg open_, if_pos rfl]
      exact (ih _).trans (behind_append .string k past [.char '\\', d] r _)
  | case5 r open_ plain => rw [sweepFrom, if_neg open_, if_neg plain, if_pos rfl, behind]
  | case6 c r open_ plain sameLine ih =>
      rw [sweepFrom, if_neg open_, if_neg plain, if_neg sameLine, ih]
      exact behind_append .string k past [c] r _

/-- A block string is passed up to its closing quotes. -/
theorem sweep_block (k : Nat) (past s : Text) :
    sweepFrom .block k past s = behind .string k past s (strictBlockTail s) := by
  fun_induction strictBlockTail s generalizing past with
  | case1 => rw [sweepFrom, behind]
  | case2 c r closes =>
      rw [sweepFrom, if_pos closes]
      obtain ⟨r', text⟩ := tripleQuote_begins closes
      obtain ⟨rfl, rfl⟩ := List.cons.inj text
      rfl
  | case3 c r open_ escapes ih =>
      rw [sweepFrom, if_neg open_, if_pos escapes, ih]
      obtain ⟨r', rfl⟩ := tripleQuote_begins escapes.2
      exact behind_append .string k past (c :: tripleQuote) r' _
  | case4 c r open_ plain ih =>
      rw [sweepFrom, if_neg open_, if_neg plain, ih]
      exact behind_append .string k past [c] r _

/-! ## Outside -/

/-- What begins with a comment or string of which so many code points follow the first one. -/
def Piece.ofTail (what : Bracketed) : Option Nat → Piece
  | some n => .lexeme what.kind n
  | none => .unterminated what

/-- What a sweep finds that passes a piece. -/
def sweepPast (k : Nat) (c : CodePoint) (r : Text) : Piece → List Lexeme × Option Unterminated
  | .blank n => sweepFrom .outside (k + n + 1) [] (r.drop n)
  | .lexeme kind n =>
    if kind = .comment ∨ kind = .string then
      before ⟨kind, c :: r.take n, k⟩ (sweepFrom .outside (k + n + 1) [] (r.drop n))
    else
      sweepFrom .outside (k + n + 1) [] (r.drop n)
  | .unterminated what => ([], some ⟨what, k⟩)

theorem behind_first (what : Bracketed) (k : Nat) (c : CodePoint) (r : Text) (tail : Option Nat) :
    behind what k [c] r tail = sweepPast k c r (.ofTail what tail) := by
  cases tail with
  | none => rfl
  | some n =>
      have enclosed : what.kind = .comment ∨ what.kind = .string := by cases what <;> decide
      rw [behind, Piece.ofTail, sweepPast, if_pos enclosed, Nat.add_right_comm]
      rfl

theorem sweepFrom_nil (k k' : Nat) :
    sweepFrom .outside k [] [] = sweepFrom .outside k' [] [] := by
  rw [sweepFrom, sweepFrom]

/-- Idle pieces are passed over. -/
theorem sweep_idle_piece {c : CodePoint} {r : Text} {n : Nat} (idle : ∀ d ∈ c :: r.take n, Idle d)
    (k : Nat) : sweepFrom .outside k [] (c :: r) = sweepFrom .outside (k + n + 1) [] (r.drop n) := by
  have split : c :: r = (c :: r.take n) ++ r.drop n := by
    rw [List.cons_append, List.take_append_drop]
  conv_lhs => rw [split, sweep_idles idle, List.length_cons]
  by_cases within : n ≤ r.length
  · rw [List.length_take, Nat.min_eq_left within]
    rfl
  · rw [List.drop_eq_nil_of_le (Nat.le_of_not_le within)]
    exact sweepFrom_nil _ _

theorem idle_of_class {p : CodePoint → Bool} {c : CodePoint} (hash : p (.char '#') = false)
    (slash : p (.char '/') = false) (quote : p (.char '"') = false) (h : p c = true) : Idle c := by
  refine ⟨?_, ?_, ?_⟩
  · rintro rfl
    simp [hash] at h
  · rintro rfl
    simp [slash] at h
  · rintro rfl
    simp [quote] at h

theorem idle_takeWhile {p : CodePoint → Bool} (hash : p (.char '#') = false)
    (slash : p (.char '/') = false) (quote : p (.char '"') = false) (r : Text) :
    ∀ d ∈ r.take (r.takeWhile p).length, Idle d := by
  intro d among
  rw [← List.prefix_iff_eq_take.mp (List.takeWhile_prefix p)] at among
  exact idle_of_class hash slash quote (List.mem_takeWhile_imp among)

theorem idle_number {s : Text} : ∀ d ∈ s.take (numberTail s), Idle d := by
  intro d among
  exact idle_of_class (by decide +kernel) (by decide +kernel) (by decide +kernel)
    (numberTail_chars s d among)

/-- What begins with no comment and no string is passed over. -/
theorem idle_piece {c : CodePoint} (idle : Idle c) (k : Nat) (r : Text) :
    sweepFrom .outside k [] (c :: r) = sweepPast k c r (Piece.of c r) := by
  have run {tail : Text} (rest : ∀ d ∈ tail, Idle d) : ∀ d ∈ c :: tail, Idle d :=
    List.forall_mem_cons.mpr ⟨idle, rest⟩
  have single : sweepFrom .outside k [] (c :: r) = sweepPast k c r (.lexeme .mark 0) :=
    sweep_idle_piece (n := 0) (run (by simp)) k
  obtain ⟨hash, slash, quote⟩ := idle
  unfold Piece.of
  rw [if_neg hash, if_neg slash, if_neg quote]
  split
  next =>
    exact sweep_idle_piece (run (idle_takeWhile (by decide) (by decide) (by decide) r)) k
  next =>
    split
    next =>
      exact sweep_idle_piece (run (idle_takeWhile (by decide) (by decide) (by decide) r)) k
    next =>
      split
      next =>
        cases size : numberTail (c :: r) with
        | zero => exact single
        | succ n =>
            refine sweep_idle_piece (n := n) ?_ k
            rw [← List.take_succ_cons, ← size]
            exact idle_number
      next =>
        split
        next =>
          split
          next => exact sweep_idle_piece (run idle_number) k
          next => exact single
        next => exact single

/-- Outside, the sweep passes the piece that comes first in the strict reading. -/
theorem sweep_piece (k : Nat) (c : CodePoint) (r : Text) :
    sweepFrom .outside k [] (c :: r) = sweepPast k c r (Piece.strict c r) := by
  cases triple : tripleQuote.isPrefixOf (c :: r) with
  | true =>
      obtain ⟨s, text⟩ := tripleQuote_begins triple
      obtain ⟨rfl, rfl⟩ := List.cons.inj text
      have piece : Piece.strict (.char '"') (.char '"' :: .char '"' :: s) =
          .ofTail .string ((strictBlockTail s).map (· + 2)) := by
        rw [Piece.strict, if_pos triple]
        change (match strictBlockTail s with
          | some n => _
          | none => _) = _
        cases strictBlockTail s <;> rfl
      rw [piece, ← behind_first, sweepFrom, if_neg (by simp), if_neg (by simp), if_pos triple]
      exact (sweep_block k tripleQuote s).trans
        (behind_append .string k [.char '"'] [.char '"', .char '"'] s _)
  | false =>
      rw [Piece.strict, triple, if_neg Bool.false_ne_true]
      by_cases hash : c = .char '#'
      · subst hash
        rw [sweepFrom, if_pos (.inl rfl), sweep_line, behind_first]
        rfl
      by_cases slash : c = .char '/'
      · subst slash
        by_cases line : r.head? = some (.char '/')
        · have piece : Piece.of (.char '/') r = .ofTail .comment (some (lineTail r)) := by
            rw [Piece.of, if_neg (by decide), if_neg (by decide), if_pos rfl, if_pos line]
            rfl
          rw [sweepFrom, if_pos (.inr ⟨rfl, line⟩), sweep_line, behind_first, piece]
        by_cases block : r.head? = some (.char '*')
        · obtain ⟨s, rfl⟩ : ∃ s, r = .char '*' :: s := ⟨_, List.eq_cons_of_mem_head? block⟩
          have piece : Piece.of (.char '/') (.char '*' :: s) =
              .ofTail .comment ((commentTail s).map (· + 1)) := by
            rw [Piece.of, if_neg (by decide), if_neg (by decide), if_pos rfl, if_neg line,
              if_pos block, List.drop_one, List.tail_cons]
            cases commentTail s <;> rfl
          rw [piece, ← behind_first, sweepFrom, if_neg (by simp), if_pos ⟨rfl, block⟩]
          exact (sweep_comment k [.char '/', .char '*'] s).trans
            (behind_append .comment k [.char '/'] [.char '*'] s _)
        · rw [sweepFrom, if_neg (by simp [line]), if_neg (by simp [block]), triple,
            if_neg Bool.false_ne_true, if_neg (by decide), Piece.of, if_neg (by decide),
            if_neg (by decide), if_pos rfl, if_neg line, if_neg block]
          rfl
      by_cases quote : c = .char '"'
      · subst quote
        have tail : stringTail r = quotedTail r := by simp [stringTail, triple]
        rw [sweepFrom, if_neg (by simp), if_neg (by simp), triple, if_neg Bool.false_ne_true,
          if_pos rfl, sweep_quoted, behind_first, Piece.of_quote, tail]
        cases quotedTail r <;> rfl
      rw [idle_piece ⟨hash, slash, quote⟩]

/-- Is it a comment or a string? -/
def isEnclosed (l : Lexeme) : Bool :=
  l.kind = .comment || l.kind = .string

/-- The sweep finds the comments and strings of the strict reading. -/
theorem sweep_strict (k : Nat) (s : Text) : sweepFrom .outside k [] s =
    ((scanWith Piece.strict k s).1.filter isEnclosed, (scanWith Piece.strict k s).2) := by
  fun_induction scanWith Piece.strict k s with
  | case1 =>
      rw [sweepFrom]
      rfl
  | case2 k c r n found ih => rw [sweep_piece, found, sweepPast, ih]
  | case3 k c r kind n found rest failure split ih =>
      rw [split] at ih
      rw [sweep_piece, found, sweepPast, ih]
      split
      next enclosed => rw [List.filter_cons_of_pos (by simpa [isEnclosed] using enclosed), before]
      next other => rw [List.filter_cons_of_neg (by simpa [isEnclosed] using other)]
  | case4 k c r what found => rw [sweep_piece, found, sweepPast, List.filter_nil]

/-! ## Block strings that are left open -/

/-- Is it the text of a string that is read where a block string is left open: an empty string, or a
    block string whose last quotes are escaped? -/
def Reread (text : Text) : Prop :=
  text = [.char '"', .char '"'] ∨ ∃ body, text = tripleQuote ++ (body ++ .char '\\' :: tripleQuote)

/-- Where the strict reading leaves a block string open, escaped quotes end it, if any do. -/
theorem blockTail_escaped {s : Text} {n : Nat} (open_ : strictBlockTail s = none)
    (h : blockTail s = some n) : ∃ body, s.take n = body ++ .char '\\' :: tripleQuote := by
  induction s using blockTail.induct generalizing n with
  | case1 => simp [blockTail] at h
  | case2 c r closes => simp [strictBlockTail, closes] at open_
  | case3 c r noQuotes escapes k later ih =>
      rw [strictBlockTail, if_neg noQuotes, if_pos escapes, Option.map_eq_none_iff] at open_
      rw [blockTail, if_neg noQuotes, if_pos escapes, later] at h
      cases h
      obtain ⟨body, cut⟩ := ih open_ later
      obtain ⟨r', rfl⟩ := tripleQuote_begins escapes.2
      exact ⟨c :: (tripleQuote ++ body), congrArg (c :: tripleQuote ++ ·) cut⟩
  | case4 c r noQuotes escapes later ih =>
      rw [blockTail, if_neg noQuotes, if_pos escapes, later] at h
      cases h
      obtain ⟨rfl, quotes⟩ := escapes
      obtain ⟨r', rfl⟩ := tripleQuote_begins quotes
      exact ⟨[], rfl⟩
  | case5 c r noQuotes plain ih =>
      rw [strictBlockTail, if_neg noQuotes, if_neg plain, Option.map_eq_none_iff] at open_
      rw [blockTail, if_neg noQuotes, if_neg plain] at h
      obtain ⟨k, found, rfl⟩ := Option.map_eq_some_iff.mp h
      obtain ⟨body, cut⟩ := ih open_ found
      exact ⟨c :: body, congrArg (c :: ·) cut⟩

/-- At three quotes a string is read in any case. -/
theorem block_piece {c : CodePoint} {r : Text} (triple : tripleQuote.isPrefixOf (c :: r) = true) :
    ∃ n, Piece.of c r = .lexeme .string n ∧ (Piece.strict c r = .lexeme .string n ∨
      Piece.strict c r = .unterminated .string ∧ Reread (c :: r.take n)) := by
  obtain ⟨s, text⟩ := tripleQuote_begins triple
  obtain ⟨rfl, rfl⟩ := List.cons.inj text
  have tail : stringTail (.char '"' :: .char '"' :: s) = ((blockTail s).map (· + 2)).or (some 1) := by
    rw [stringTail, if_pos triple]
    rfl
  rw [Piece.strict, if_pos triple, Piece.of_quote, tail, List.drop_succ_cons, List.drop_succ_cons,
    List.drop_zero]
  cases closed : strictBlockTail s with
  | some n =>
      have same := blockTail_context (t := []) closed
      rw [List.append_nil] at same
      exact ⟨n + 2, by rw [same]; rfl, .inl rfl⟩
  | none =>
      cases escaped : blockTail s with
      | none => exact ⟨1, rfl, .inr ⟨rfl, .inl rfl⟩⟩
      | some n =>
          obtain ⟨body, cut⟩ := blockTail_escaped closed escaped
          exact ⟨n + 2, rfl, .inr ⟨rfl, .inr ⟨body, congrArg (tripleQuote ++ ·) cut⟩⟩⟩

theorem strict_of_single {c : CodePoint} {r : Text}
    (single : tripleQuote.isPrefixOf (c :: r) = false) : Piece.strict c r = Piece.of c r := by
  rw [Piece.strict, single, if_neg Bool.false_ne_true]

/-- What the strict reading finds is read, unless it is a block string left open. -/
theorem piece_of_strict {c : CodePoint} {r : Text} {p : Piece} (found : Piece.strict c r = p)
    (ends : p ≠ .unterminated .string) : Piece.of c r = p := by
  cases triple : tripleQuote.isPrefixOf (c :: r) with
  | false => rw [← strict_of_single triple, found]
  | true =>
      obtain ⟨n, piece, same | ⟨open_, -⟩⟩ := block_piece triple
      · rw [piece, ← same, found]
      · exact absurd (found.symm.trans open_) ends

/-- A text is read strictly, or else up to a block string that the strict reading leaves open and in
    whose place another string is read. -/
theorem scan_reread {t s : Text} {k : Nat} (place : t.drop k = s) :
    (scanWith Piece.of k s = scanWith Piece.strict k s ∧
      ∀ j, (scanWith Piece.strict k s).2 = some ⟨.string, j⟩ → ¬tripleQuote <+: t.drop j) ∨
    ∃ j l more, (scanWith Piece.strict k s).2 = some ⟨.string, j⟩ ∧ tripleQuote <+: t.drop j ∧
      (scanWith Piece.of k s).1 = (scanWith Piece.strict k s).1 ++ l :: more ∧
      l.kind = .string ∧ l.start = j ∧ Reread l.text := by
  fun_induction scanWith Piece.strict k s with
  | case1 => exact .inl ⟨scanWith_nil _ _, by rintro j ⟨⟩⟩
  | case2 k c r n found ih =>
      rw [scanWith, piece_of_strict found (by rintro ⟨⟩)]
      exact ih (Parts.drop_past place n)
  | case3 k c r kind n found rest failure split ih =>
      rw [scan_piece (piece_of_strict found (by rintro ⟨⟩))]
      rw [split] at ih
      refine (ih (Parts.drop_past place n)).imp ?_ ?_
      · rintro ⟨same, single⟩
        exact ⟨by rw [same], single⟩
      · rintro ⟨j, l, more, stops, quotes, lexemes, rest⟩
        exact ⟨j, l, more, stops, quotes, congrArg (_ :: ·) lexemes, rest⟩
  | case4 k c r what found =>
      cases triple : tripleQuote.isPrefixOf (c :: r) with
      | false =>
          refine .inl ⟨?_, ?_⟩
          · rw [scanWith, ← strict_of_single triple, found]
          · rintro j stops quotes
            obtain rfl : k = j := congrArg (·.start) (Option.some.inj stops)
            rw [place, ← List.isPrefixOf_iff_prefix, triple] at quotes
            cases quotes
      | true =>
          obtain ⟨n, piece, same | ⟨open_, reread⟩⟩ := block_piece triple
          · rw [found] at same
            cases same
          · obtain rfl := (Piece.unterminated.inj (found.symm.trans open_))
            refine .inr ⟨k, _, _, rfl, ?_, by rw [scan_piece piece, List.nil_append], rfl, rfl, reread⟩
            rw [place]
            exact List.isPrefixOf_iff_prefix.mp triple

/-- Does the sweep stop in a block string that is open from an offset on? -/
def StopsInBlock (t : Text) (j : Nat) : Prop :=
  (sweep t).2 = some ⟨.string, j⟩ ∧ tripleQuote <+: t.drop j

/-- Do reading and sweep refuse the same, and find the same comments and strings in what is not
    refused? -/
def AgreesWithSweep (t : Text) : Prop :=
  ((scan t).2 = none ↔ (sweep t).2 = none) ∧
    ((scan t).2 = none → (scan t).1.filter isEnclosed = (sweep t).1)

/-- Unless it stops in a block string, the sweep finds the comments and strings among the lexemes, and
    stops where the reading does. Where it stops in a block string, it has found all comments and
    strings in front of it, but the reading goes on with another string in its place. So both agree
    exactly where the reading stops too, in whatever comes later. -/
theorem scan_sweep (t : Text) :
    ((∀ j, ¬StopsInBlock t j) → sweep t = ((scan t).1.filter isEnclosed, (scan t).2)) ∧
      (∀ j, StopsInBlock t j → ∃ l more, (scan t).1.filter isEnclosed = (sweep t).1 ++ l :: more ∧
        l.kind = .string ∧ l.start = j ∧ Reread l.text) ∧
      (AgreesWithSweep t ↔ ∀ j, StopsInBlock t j → (scan t).2 ≠ none) := by
  have strict : sweep t = _ := sweep_strict 0 t
  obtain ⟨same, single⟩ | ⟨j, l, more, stops, quotes, lexemes, kind, start, reread⟩ :=
    scan_reread (t := t) (s := t) (k := 0) rfl
  · have never (j : Nat) : ¬StopsInBlock t j := by
      rintro ⟨stops, quotes⟩
      rw [strict] at stops
      exact single j stops quotes
    rw [← same] at strict
    have agree : sweep t = ((scan t).1.filter isEnclosed, (scan t).2) := strict
    refine ⟨fun _ => agree, fun j stops => absurd stops (never j), ?_⟩
    refine iff_of_true ⟨by rw [agree], fun _ => by rw [agree]⟩ fun j stops => absurd stops (never j)
  · have stopped : StopsInBlock t j := ⟨by rw [strict, stops], quotes⟩
    refine ⟨fun never => absurd stopped (never j), ?_, ?_⟩
    · rintro j' ⟨stops', -⟩
      obtain rfl : j = j' := by
        rw [stopped.1] at stops'
        exact congrArg (·.start) (Option.some.inj stops')
      refine ⟨l, more.filter isEnclosed, ?_, kind, start, reread⟩
      rw [strict, scan, lexemes, List.filter_append, List.filter_cons_of_pos (by simp [isEnclosed, kind])]
    · constructor
      · rintro ⟨refuse, -⟩ _ _ complete
        rw [refuse, stopped.1] at complete
        cases complete
      · intro refused
        have refused := refused j stopped
        exact ⟨iff_of_false refused (by rw [stopped.1]; exact Option.some_ne_none _),
          fun complete => absurd complete refused⟩

/-- A block string that is left open is read as an empty string and what follows. -/
theorem open_block_read : (scan (Text.ofString "\"\"\"a\"")).2 = none ∧
    (sweep (Text.ofString "\"\"\"a\"")).2 = some ⟨.string, 0⟩ ∧
    ¬AgreesWithSweep (Text.ofString "\"\"\"a\"") := by
  have complete : (scan (Text.ofString "\"\"\"a\"")).2 = none := by decide +kernel
  have stops : (sweep (Text.ofString "\"\"\"a\"")).2 = some ⟨.string, 0⟩ := by decide +kernel
  refine ⟨complete, stops, fun agrees => ?_⟩
  have none_ := agrees.1.mp complete
  rw [stops] at none_
  cases none_

end ApprovedOps.Lexeme
