import ApprovedOps.Proofs.Yaml.BlockScalar
import ApprovedOps.Proofs.Yaml.DoubleQuoted
import ApprovedOps.Proofs.Yaml.Plain
import ApprovedOps.Proofs.Yaml.SingleQuoted
import ApprovedOps.Yaml.Tokens

/-! # Written scalars as tokens

Whatever its style, a scalar that is written after a key or a dash is the next token, with the text
as it is read again, and the reader then stands where the next line begins, with no key pending.
-/

namespace ApprovedOps.Yaml.Token.Progress

open Cursor

variable {s d e : Progress} {p : CodePoint} {r t x : Text} {parent indent column k n line : Nat}

/-! ## Between tokens -/

/-- The progress once blanks are passed and stale places for keys forgotten. -/
def settled (s : Progress) : Except Failure Progress :=
  (skipBlanks (s.place.rest.length + 1) s).forgetStale

/-- No brackets are open, and a key that may have begun on a line need not have begun. -/
def Pending (line : Nat) (keys : List (Option KeyPlace)) : Prop :=
  keys = [none] ∨ ∃ spot : KeyPlace, keys = [some spot] ∧ spot.required = false ∧ spot.line = line

theorem Pending.outside (h : Pending line s.keys) : s.inFlow = false := by
  obtain none_ | ⟨spot, some_, -⟩ := h
  · rw [inFlow, none_]
    rfl
  · rw [inFlow, some_]
    rfl

/-- Nothing is forgotten by force, and on a later line everything is forgotten. -/
theorem Pending.forgets (h : Pending line s.keys) :
    ∃ keys, s.forgetStale = .ok { s with keys } ∧ Pending line keys ∧
      (line < s.place.line → keys = [none]) := by
  obtain none_ | ⟨spot, some_, free, rfl⟩ := h
  · refine ⟨[none], ?_, .inl rfl, fun _ => rfl⟩
    rw [forgetStale, none_]
    rfl
  · by_cases stale : s.isStale (some spot) = true
    · refine ⟨[none], ?_, .inl rfl, fun _ => rfl⟩
      simp only [forgetStale, some_, List.mapM_cons, List.mapM_nil, stale, if_true,
        forget, free]
      rfl
    · refine ⟨[some spot], ?_, .inr ⟨spot, rfl, free, rfl⟩, fun later => ?_⟩
      · simp only [forgetStale, some_, List.mapM_cons, List.mapM_nil, stale]
        rfl
      · have other : spot.line ≠ s.place.line := Nat.ne_of_lt later
        simp [isStale, other] at stale

theorem forgetKey_fresh (fresh : s.keys = [none]) : s.forgetKey = .ok s := by
  simp only [forgetKey, fresh, forget, bind, Except.bind, pure, Except.pure]
  rw [← fresh]

/-- A key that may begin further to the right than the block need not begin there. -/
theorem rememberKey_pending (fresh : s.keys = [none]) (inside : s.indent < s.column) :
    ∃ keys, s.rememberKey = .ok { s with keys } ∧ Pending s.place.line keys := by
  by_cases allowed : s.allowsKey = true
  · have free : (!s.inFlow && s.indent == s.column) = false := by
      rw [beq_eq_false_iff_ne.mpr (Int.ne_of_lt inside), Bool.and_false]
    let spot : KeyPlace :=
      { number := s.found.length, required := !s.inFlow && s.indent == s.column,
        index := s.place.index, line := s.place.line, column := s.place.column }
    refine ⟨[some spot], ?_, .inr ⟨spot, rfl, free, rfl⟩⟩
    simp only [rememberKey, allowed, if_true, forgetKey_fresh fresh, bind, Except.bind, fresh]
    rfl
  · refine ⟨[none], ?_, .inl rfl⟩
    rw [rememberKey, if_neg allowed, ← fresh]
    rfl

/-- A line is passed that has nothing more on it than spaces. -/
theorem skipComment_spaces {c : Cursor} (here : c.rest = spaces k ++ r)
    (shown : ∀ p ∈ r.head?, isBlank p = false ∧ p ≠ .char '#') :
    c.skipComment = c.past (spaces k) := by
  have skipped : c.skipWhile Cursor.isSpace = c.past (spaces k) := by
    refine skipWhile_eq here (by simp [spaces, Cursor.isSpace]) ?_
    cases r with
    | nil => rfl
    | cons p r =>
        have unblank := (Scalar.isBlank_eq_false (shown p rfl).1).1
        exact (Bool.or_eq_false_iff.mp unblank).1
  have next := past_rest here
  rw [skipComment, skipped]
  cases r with
  | nil => simp [isAtChar_nil next]
  | cons p r => simp [isAtChar_eq next, (shown p rfl).2]

theorem skipBlanks_spaces (here : s.place.rest = spaces k ++ r)
    (shown : ∀ p ∈ r.head?, isBlank p = false ∧ p ≠ .char '#') :
    skipBlanks (n + 1) s = { s with place := s.place.past (spaces k) } := by
  have next := past_rest here
  have ends : (s.place.past (spaces k)).isAt isBreak = false := by
    cases r with
    | nil => exact isAt_nil next _
    | cons p r =>
        rw [isAt_eq next]
        exact (Scalar.isBlank_eq_false (shown p rfl).1).2
  rw [skipBlanks, skipComment_spaces here shown]
  simp [ends]

theorem skipBlanks_newline (flow : s.inFlow = false)
    (here : s.place.rest = .char '\n' :: (spaces k ++ r))
    (shown : ∀ p ∈ r.head?, isBlank p = false ∧ p ≠ .char '#') :
    skipBlanks (n + 2) s =
      { s with place := s.place.past (.char '\n' :: spaces k), allowsKey := true } := by
  have same : s.place.skipComment = s.place := by
    have skipped : s.place.skipWhile Cursor.isSpace = s.place.past [] :=
      skipWhile_eq (t := []) here (by simp) (by simp [Cursor.isSpace])
    rw [skipComment, skipped, past_nil, isAtChar_eq here]
    simp
  have break_ : isBreak (.char '\n') = true := by decide
  rw [skipBlanks, same, isAt_eq here, break_, lineBreak_eq here break_ (by decide), if_pos rfl,
    skipBlanks_spaces (past_rest (t := [_]) here) shown]
  simp [flow, ← past_append]

/-! ## One token -/

theorem unwind_inside (inside : s.indent ≤ s.column) : s.unwind s.column = s := by
  have stays : unwindTo s.column s.indent s.outer = (s.indent, s.outer, 0) := by
    cases s.outer with
    | nil => rfl
    | cons o outer => rw [unwindTo, if_neg (by omega)]
  rw [unwind]
  split
  · rfl
  · rw [stays]
    rfl

theorem takeNext_token (ready : s.settled = .ok e) (inside : e.indent ≤ e.column)
    (here : e.place.rest = p :: r) (taken : e.takeToken p = .ok d) :
    s.takeNext = d.forgetStale.map (·, true) := by
  rw [settled] at ready
  simp only [takeNext, ready, bind, Except.bind, unwind_inside inside, peek_eq here, taken]
  cases d.forgetStale <;> rfl

/-- After a token that ends on a later line than a key may have begun, nothing is pending. -/
theorem settled_newline (pending : Pending line s.keys) (before : line ≤ s.place.line)
    (here : s.place.rest = .char '\n' :: (spaces k ++ r))
    (shown : ∀ p ∈ r.head?, isBlank p = false ∧ p ≠ .char '#') :
    s.settled = .ok { s with
      place := s.place.past (.char '\n' :: spaces k), keys := [none], allowsKey := true } := by
  have later := past_line_lt (s := []) (t := spaces k) here (by decide) (by decide)
  have skipped := skipBlanks_newline (n := (spaces k ++ r).length) pending.outside here shown
  rw [settled, here, List.length_cons, skipped]
  obtain ⟨keys, forgotten, -, none_⟩ := Pending.forgets
    (s := { s with place := s.place.past (.char '\n' :: spaces k), allowsKey := true }) pending
  rw [forgotten, none_ (Nat.lt_of_le_of_lt before later)]

theorem settled_spaces (pending : Pending line s.keys) (here : s.place.rest = spaces k ++ r)
    (shown : ∀ p ∈ r.head?, isBlank p = false ∧ p ≠ .char '#') :
    ∃ keys, s.settled = .ok { s with place := s.place.past (spaces k), keys } ∧
      Pending line keys ∧ (line < (s.place.past (spaces k)).line → keys = [none]) := by
  rw [settled, skipBlanks_spaces here shown]
  exact Pending.forgets (s := { s with place := s.place.past (spaces k) }) pending

/-! ## The first code point of a scalar -/

theorem takeToken_single (column : s.place.column ≠ 0) :
    s.takeToken (.char '\'') = s.takeQuoted false := by
  simp [takeToken, column]

theorem takeToken_double (column : s.place.column ≠ 0) :
    s.takeToken (.char '"') = s.takeQuoted true := by
  simp [takeToken, column]

theorem takeToken_bar (fresh : s.keys = [none]) (column : s.place.column ≠ 0) :
    s.takeToken (.char '|') = s.takeBlock false := by
  simp [takeToken, column, inFlow, fresh]

/-- A plain scalar begins with no indicator, or with one that has no blank after it. -/
theorem takeToken_plain (fresh : s.keys = [none])
    (unseparated : s.place.column = 0 → s.place.isAtSeparator = false) (here : s.place.rest = p :: r) (shown : isBlank p = false)
    (unmarked : Layout.isOneOf "#,[]\x7b\x7d&*!|>'\"%@\x60" p = false)
    (joined : Layout.isOneOf "?:-" p = true → ∃ q y, r = q :: y ∧ isBlank q = false) :
    s.takeToken p = s.takePlain := by
  have flow : s.inFlow = false := by
    rw [inFlow, fresh]
    rfl
  have marks : ¬(s.place.column = 0 ∧ s.place.isAtMark "---" = true) ∧
      ¬(s.place.column = 0 ∧ s.place.isAtMark "..." = true) := by
    simp only [isAtSeparator, Bool.or_eq_false_iff] at unseparated
    refine ⟨fun mark => ?_, fun mark => ?_⟩
    · exact absurd mark.2 (by simp [(unseparated mark.1).1])
    · exact absurd mark.2 (by simp [(unseparated mark.1).2])
  by_cases mark : Layout.isOneOf "?:-" p = true
  · obtain ⟨q, y, rfl, after⟩ := joined mark
    have ends : s.place.endsAt 1 isBlank = false := by
      rw [endsAt, peekAt_one here]
      exact after
    cases p with
    | char c =>
        obtain rfl | rfl | rfl : c = '?' ∨ c = ':' ∨ c = '-' := by
          simpa [Layout.isOneOf] using mark
        all_goals
          have begins : s.beginsPlain = true := by
            simp [beginsPlain, isAt_eq here, shown, flow, ends, Cursor.isOneOf]
          simp [takeToken, marks, flow, ends, begins]
    | surrogate i => cases mark
  · have begins : s.beginsPlain = true := by
      rw [beginsPlain, isAt_eq here]
      cases p with
      | char c => simp_all [Layout.isOneOf, Cursor.isOneOf]
      | surrogate i => simp [shown, Cursor.isOneOf]
    cases p with
    | char c =>
        simp [Layout.isOneOf] at unmarked mark
        simp [takeToken, unmarked, mark, if_neg marks.1, if_neg marks.2, begins]
    | surrogate i => simp [takeToken, marks, begins]

theorem forgetStale_fresh (fresh : s.keys = [none]) : s.forgetStale = .ok s := by
  rw [forgetStale, fresh]
  simp only [List.mapM_cons, List.mapM_nil, isStale, Option.any_none, Bool.false_eq_true, if_false,
    bind, Except.bind, pure, Except.pure]
  rw [← fresh]

theorem settled_fresh (fresh : s.keys = [none]) (here : s.place.rest = spaces k ++ r)
    (shown : ∀ p ∈ r.head?, isBlank p = false ∧ p ≠ .char '#') :
    s.settled = .ok { s with place := s.place.past (spaces k) } := by
  rw [settled, skipBlanks_spaces here shown]
  exact forgetStale_fresh fresh

/-! ## Scalars -/

/-- The progress after a space. -/
def spaced (s : Progress) : Progress :=
  { s with place := s.place.past [.char ' '] }

/-- The progress with one more scalar, which ends at a place where another token may begin. -/
def saying (s : Progress) (t : Text) (plain : Bool) (stop : Cursor) : Progress :=
  { s with
    place := stop, found := .scalar t plain :: s.found, places := s.place.index :: s.places,
    keys := [none], allowsKey := true }

/-- The next token is a scalar, which ends where another token may begin. -/
def Reads (s : Progress) (t : Text) (plain : Bool) (stop : Cursor) : Prop :=
  ∃ n, s.takeNext = .ok (n, true) ∧ n.place.rest.length < s.place.rest.length ∧
    stop.rest.length ≤ n.place.rest.length ∧ n.settled = .ok (s.spaced.saying t plain stop)

/-- A scalar that ends in front of the end of its line. -/
theorem Reads.before_newline {plain allowsKey : Bool} {keys : List (Option KeyPlace)}
    {stop : Cursor} (ready : s.settled = .ok s.spaced) (inside : s.indent ≤ s.spaced.column)
    (here : s.spaced.place.rest = p :: x) (pending : Pending line keys) (before : line ≤ stop.line)
    (taken : s.spaced.takeToken p = .ok { s.spaced with
      place := stop, found := .scalar t plain :: s.found, places := s.spaced.place.index :: s.places,
      keys, allowsKey })
    (shorter : stop.rest.length < s.place.rest.length)
    (after : stop.rest = .char '\n' :: (spaces k ++ r))
    (shown : ∀ p ∈ r.head?, isBlank p = false ∧ p ≠ .char '#') :
    Reads s t plain (stop.past (.char '\n' :: spaces k)) := by
  have next := takeNext_token ready inside here taken
  obtain ⟨keys', forgotten, pending', -⟩ := Pending.forgets
    (s := { s.spaced with
      place := stop, found := .scalar t plain :: s.found, places := s.spaced.place.index :: s.places,
      keys, allowsKey }) pending
  rw [forgotten] at next
  exact ⟨_, next, shorter, past_length_le (t := .char '\n' :: spaces k) after,
    settled_newline pending' before after shown⟩

/-- A scalar that ends on a later line. -/
theorem Reads.on_later {plain : Bool} {keys : List (Option KeyPlace)}
    {stop : Cursor} (ready : s.settled = .ok s.spaced) (inside : s.indent ≤ s.spaced.column)
    (here : s.spaced.place.rest = p :: x) (pending : Pending line keys)
    (later : line < (stop.past (spaces k)).line)
    (taken : s.spaced.takeToken p = .ok { s.spaced with
      place := stop, found := .scalar t plain :: s.found, places := s.spaced.place.index :: s.places,
      keys, allowsKey := true })
    (shorter : stop.rest.length < s.place.rest.length)
    (after : stop.rest = spaces k ++ r)
    (shown : ∀ p ∈ r.head?, isBlank p = false ∧ p ≠ .char '#') :
    Reads s t plain (stop.past (spaces k)) := by
  have next := takeNext_token ready inside here taken
  obtain ⟨keys', forgotten, pending', -⟩ := Pending.forgets
    (s := { s.spaced with
      place := stop, found := .scalar t plain :: s.found, places := s.spaced.place.index :: s.places,
      keys, allowsKey := true }) pending
  rw [forgotten] at next
  refine ⟨_, next, shorter, past_length_le after, ?_⟩
  obtain ⟨keys'', settles, -, none_⟩ := settled_spaces
    (s := { s.spaced with
      place := stop, found := .scalar t plain :: s.found, places := s.spaced.place.index :: s.places,
      keys := keys', allowsKey := true }) pending' after shown
  rw [settles, none_ later]
  rfl

theorem takeQuoted_eq {double : Bool} {stop : Cursor} (fresh : s.keys = [none])
    (inside : s.indent < s.column)
    (read : Scalar.quoted double s.place.index s.place.step = .ok (t, stop)) :
    ∃ keys, Pending s.place.line keys ∧ s.takeQuoted double = .ok { s with
      place := stop, found := .scalar t false :: s.found, places := s.place.index :: s.places,
      keys, allowsKey := false } := by
  obtain ⟨keys, remembered, pending⟩ := rememberKey_pending fresh inside
  refine ⟨keys, pending, ?_⟩
  simp only [takeQuoted, remembered, bind, Except.bind, read]
  rfl

theorem takeBlock_eq {stop : Cursor} (fresh : s.keys = [none])
    (read : Scalar.block false s.indent s.place.index s.place.step = .ok (t, stop)) :
    s.takeBlock false = .ok { s with
      place := stop, found := .scalar t false :: s.found, places := s.place.index :: s.places,
      keys := [none], allowsKey := true } := by
  simp only [takeBlock, forgetKey_fresh fresh, bind, Except.bind, read]
  rw [← fresh]
  rfl

theorem takePlain_eq {stop : Cursor} {broken : Bool} (fresh : s.keys = [none])
    (inside : s.indent < s.column)
    (read : Scalar.plain false s.indent s.place = (t, broken, stop)) :
    ∃ keys, Pending s.place.line keys ∧ s.takePlain = .ok { s with
      place := stop, found := .scalar t true :: s.found, places := s.place.index :: s.places,
      keys, allowsKey := broken } := by
  obtain ⟨keys, remembered, pending⟩ := rememberKey_pending fresh inside
  refine ⟨keys, pending, ?_⟩
  have flow : inFlow { s with keys } = false := pending.outside
  simp only [takePlain, remembered, bind, Except.bind, flow, read]
  rfl

/-! ## Styles -/

section

open Layout

variable {reached : Nat}

theorem spaced_ready (fresh : s.keys = [none]) (here : s.place.rest = .char ' ' :: p :: x)
    (shown : isBlank p = false) (hash : p ≠ .char '#') : s.settled = .ok s.spaced :=
  settled_fresh (k := 1) fresh here (by simp [shown, hash])

theorem spaced_column (inside : parent ≤ s.place.column) (here : s.place.rest = .char ' ' :: x) :
    parent < s.spaced.place.column := by
  have further := past_spaces (n := 1) here
  rw [spaced, show [CodePoint.char ' '] = spaces 1 from rfl, further]
  omega

/-- A scalar between quotes. -/
theorem reads_quoted (double : Bool) (fresh : s.keys = [none]) (indent : s.indent = (parent : Nat))
    (inside : parent ≤ s.place.column)
    (here : s.place.rest =
      .char ' ' :: .char (Scalar.quoteOf double) :: (x ++ .char '\n' :: (spaces k ++ r)))
    (shown : ∀ p ∈ r.head?, isBlank p = false ∧ p ≠ .char '#')
    (read : Scalar.Tail double s.spaced.place.index s.spaced.place.step t
      (s.spaced.place.step.past x)) :
    Reads s t false (s.place.past (.char ' ' :: .char (Scalar.quoteOf double) :: x ++
      .char '\n' :: spaces k)) := by
  have next : s.spaced.place.rest = .char (Scalar.quoteOf double) :: _ :=
    past_rest (t := [_]) here
  have deep := spaced_column inside here
  have within : s.spaced.indent < s.spaced.column := by
    rw [show s.spaced.indent = s.indent from rfl, indent]
    exact Int.ofNat_lt.mpr deep
  obtain ⟨keys, pending, taken⟩ := takeQuoted_eq (s := s.spaced) fresh within read.quoted
  have ready : s.settled = .ok s.spaced :=
    spaced_ready fresh here (by cases double <;> decide) (by cases double <;> decide)
  have token : s.spaced.takeToken (.char (Scalar.quoteOf double)) = s.spaced.takeQuoted double := by
    cases double with
    | false => exact takeToken_single (Nat.ne_of_gt (Nat.zero_lt_of_lt deep))
    | true => exact takeToken_double (Nat.ne_of_gt (Nat.zero_lt_of_lt deep))
  have ends : (s.spaced.place.step.past x).rest = .char '\n' :: (spaces k ++ r) :=
    past_rest (step_rest next)
  rw [past_append]
  refine Reads.before_newline ready (Int.le_of_lt within) next pending ?_ (token.trans taken) ?_
    ends shown
  · exact Nat.le_trans (step_line _) (past_line _ _)
  · exact past_shorter (t := _ :: _ :: x) here (List.cons_ne_nil _ _)

theorem reads_single (fresh : s.keys = [none]) (indent : s.indent = (parent : Nat))
    (inside : parent ≤ s.place.column) (style : styleOf t = .single)
    (here : s.place.rest = Layout.scalar (parent + 2) reached t ++ (spaces k ++ r))
    (shown : ∀ p ∈ r.head?, isBlank p = false ∧ p ≠ .char '#') :
    Reads s (reread t) false (s.place.past (Layout.scalar (parent + 2) reached t ++ spaces k)) := by
  have written : Layout.scalar (parent + 2) reached t = .char ' ' :: .char '\'' ::
      (foldSingle (parent + 2) (reached + 2) true (pieces t) ++ [.char '\'']) ++ [.char '\n'] := by
    rw [Layout.scalar, style]
    simp [Text.ofString]
  rw [written] at here ⊢
  rw [List.append_assoc _ _ (spaces k)]
  have here : s.place.rest = .char ' ' :: .char (Scalar.quoteOf false) ::
      ((foldSingle (parent + 2) (reached + 2) true (pieces t) ++ [.char '\'']) ++
        .char '\n' :: (spaces k ++ r)) := by
    simpa [Scalar.quoteOf] using here
  refine reads_quoted false fresh indent inside here shown ?_
  have next : s.spaced.place.step.rest =
      foldSingle (parent + 2) (reached + 2) true (pieces t) ++ .char '\'' :: _ :=
    (past_rest (t := [_, _]) here).trans (List.append_assoc _ [_] _)
  rw [reread, style]
  exact tail_foldSingle (pieces_divided t) (quotable_of_allowed (allowsSingle_of_style style).1)
    (Nat.succ_pos _) (by simp) next

theorem reads_double (fresh : s.keys = [none]) (indent : s.indent = (parent : Nat))
    (inside : parent ≤ s.place.column) (narrow : parent + 2 < width) (style : styleOf t = .double)
    (here : s.place.rest = Layout.scalar (parent + 2) reached t ++ (spaces k ++ r))
    (shown : ∀ p ∈ r.head?, isBlank p = false ∧ p ≠ .char '#') :
    Reads s (reread t) false (s.place.past (Layout.scalar (parent + 2) reached t ++ spaces k)) := by
  obtain ⟨x, folded, doubled⟩ := foldDouble_doubled narrow t (reached + 2) true []
  have written : Layout.scalar (parent + 2) reached t =
      .char ' ' :: .char '"' :: (x ++ [.char '"']) ++ [.char '\n'] := by
    rw [Layout.scalar, style]
    simp [Text.ofString, folded]
  rw [written] at here ⊢
  rw [List.append_assoc _ _ (spaces k)]
  have here : s.place.rest = .char ' ' :: .char (Scalar.quoteOf true) ::
      ((x ++ [.char '"']) ++ .char '\n' :: (spaces k ++ r)) := by
    simpa [Scalar.quoteOf] using here
  refine reads_quoted true fresh indent inside here shown ?_
  have next : s.spaced.place.step.rest = x ++ .char '"' :: _ :=
    (past_rest (t := [_, _]) here).trans (List.append_assoc _ [_] _)
  rw [reread, style]
  exact doubled.tail (Nat.succ_pos _) next

theorem reads_literal (fresh : s.keys = [none]) (indent : s.indent = (parent : Nat))
    (inside : parent ≤ s.place.column) (style : styleOf t = .literal)
    (here : s.place.rest = Layout.scalar (parent + 2) reached t ++ (spaces k ++ r))
    (left : k ≤ parent) (shown : ∀ p ∈ r.head?, isBlank p = false ∧ p ≠ .char '#') :
    Reads s (reread t) false (s.place.past (Layout.scalar (parent + 2) reached t ++ spaces k)) := by
  have written : Layout.scalar (parent + 2) reached t = .char ' ' :: .char '|' ::
      (Layout.blockHeader t ++ .char '\n' :: blockLines (parent + 2) true t) := by
    rw [Layout.scalar, style]
    simp [Text.ofString]
  rw [written] at here ⊢
  have here : s.place.rest = .char ' ' :: .char '|' :: (Layout.blockHeader t ++
      .char '\n' :: (blockLines (parent + 2) true t ++ (spaces k ++ r))) := by
    simpa using here
  have next : s.spaced.place.rest = .char '|' :: _ := past_rest (t := [_]) here
  have body : s.spaced.place.step.rest = _ := step_rest next
  have read : Scalar.block false parent s.spaced.place.index s.spaced.place.step = .ok (_, _) :=
    block_read (allowsLiteral_of_style style) body left fun p head => (shown p head).1
  rw [List.append_assoc (Layout.blockHeader t) [_]] at read
  have deep := spaced_column inside here
  have within : s.spaced.indent ≤ s.spaced.column := by
    rw [show s.spaced.indent = s.indent from rfl, indent]
    exact Int.ofNat_le.mpr (Nat.le_of_lt deep)
  have taken := takeBlock_eq (s := s.spaced) fresh
    (by rw [show s.spaced.indent = s.indent from rfl, indent]; exact read)
  have later : s.spaced.place.step.line < (s.spaced.place.step.past (Layout.blockHeader t ++
      .char '\n' :: (blockLines (parent + 2) true t ++ spaces k))).line :=
    past_line_lt (r := r) (by rw [body]; simp) (by decide) (by decide)
  have token := takeToken_bar (s := s.spaced) fresh (Nat.ne_of_gt (Nat.zero_lt_of_lt deep))
  have whole : s.place.rest = .char ' ' :: .char '|' :: (Layout.blockHeader t ++
      .char '\n' :: (blockLines (parent + 2) true t ++ spaces k)) ++ r := by
    rw [here]
    simp
  have ends : (s.place.past _).rest = r := past_rest whole
  rw [reread, style, List.cons_append, List.cons_append, List.append_assoc, List.cons_append]
  exact Reads.on_later (k := 0) (spaced_ready fresh here (by decide) (by decide)) within next
    (.inl rfl) (Nat.lt_of_le_of_lt (step_line _) later) (token.trans taken)
    (past_shorter whole (List.cons_ne_nil _ _)) ends shown

/-- A plain scalar begins as it is written. -/
theorem folded_front (folded : Scalar.Folded n t x) :
    ∃ p u y, t = p :: u ∧ x = p :: y ∧ isBlank p = false ∧ p ≠ .char '#' ∧
      ∀ q ∈ u.head?, q ≠ .char ' ' → y.head? = some q := by
  have front (w t y : Text) (word : Scalar.Word w)
      (space : ∀ q ∈ t.head?, q = .char ' ') (none_ : t = [] → y = []) :
      ∃ p u z, w ++ t = p :: u ∧ w ++ y = p :: z ∧ isBlank p = false ∧ p ≠ .char '#' ∧
        ∀ q ∈ u.head?, q ≠ .char ' ' → z.head? = some q := by
    obtain ⟨p, w, rfl⟩ := List.exists_cons_of_ne_nil word.some_
    refine ⟨p, w ++ t, w ++ y, rfl, rfl, (word.shown p List.mem_cons_self).1,
      by simpa using word.hash, fun q head other => ?_⟩
    cases w with
    | nil => exact absurd (space q head) other
    | cons a w => exact head
  cases folded with
  | word word => simpa using front _ [] [] word (by simp) (by simp)
  | spaced word _ =>
      simpa using front _ (spaces _ ++ _) (spaces _ ++ _) word (by simp [spaces, List.replicate_succ]) (by simp [spaces, List.replicate_succ])
  | broken word _ =>
      simpa using front _ (.char ' ' :: _) (.char '\n' :: (spaces _ ++ _)) word (by simp) (by simp)

/-- A plain scalar begins no other token. -/
theorem takeToken_allowed {y : Text} (plain : allowsPlain (p :: x) = true) (fresh : s.keys = [none])
    (unseparated : s.place.column = 0 → s.place.isAtSeparator = false) (here : s.place.rest = p :: y) (shown : isBlank p = false)
    (follows : ∀ q ∈ x.head?, q ≠ .char ' ' → y.head? = some q) :
    s.takeToken p = s.takePlain := by
  simp only [allowsPlain, hasIndicator, startsIndicator, Bool.and_eq_true, Bool.not_eq_true',
    Bool.or_eq_false_iff] at plain
  obtain ⟨⟨-, ⟨⟨⟨unmarked, apart⟩, -⟩, -⟩, -⟩, -⟩ := plain
  refine takeToken_plain fresh unseparated here shown unmarked fun mark => ?_
  rw [mark, Bool.true_and] at apart
  cases x with
  | nil => cases apart
  | cons q x =>
      have inner : endsWord q = false := by simpa using apart
      simp only [endsWord, Bool.or_eq_false_iff, decide_eq_false_iff_not] at inner
      obtain ⟨⟨⟨⟨space, unbroken⟩, tab⟩, return_⟩, -⟩ := inner
      have other : q ≠ .char ' ' := by simpa [Layout.isSpace] using space
      obtain ⟨z, rfl⟩ : ∃ z, y = q :: z := List.head?_eq_some_iff.mp (follows q rfl other)
      refine ⟨q, z, rfl, ?_⟩
      rw [isBlank, isSpaceOrTab, ← isBreak_eq return_, unbroken]
      simp [other, tab]

theorem reads_plain (fresh : s.keys = [none]) (indent : s.indent = (parent : Nat))
    (inside : parent ≤ s.place.column) (style : styleOf t = .plain)
    (here : s.place.rest = Layout.scalar (parent + 2) reached t ++ (spaces k ++ r))
    (left : k ≤ parent) (shown : ∀ p ∈ r.head?, isBlank p = false ∧ p ≠ .char '#') :
    Reads s (reread t) true (s.place.past (Layout.scalar (parent + 2) reached t ++ spaces k)) := by
  have plain := allowsPlain_of_style style
  have some_ : t ≠ [] := by
    rintro rfl
    cases plain
  obtain ⟨unmarked, first⟩ := unmarked_of_allowed plain
  have folded : Scalar.Folded (parent + 2) t
      (foldPlain (parent + 2) (reached + 1) (runs Layout.isSpace t)) :=
    foldPlain_folded (runs_divided Layout.isSpace t) unmarked some_ first
  have written : Layout.scalar (parent + 2) reached t =
      CodePoint.char ' ' ::
        (foldPlain (parent + 2) (reached + 1) (runs Layout.isSpace t) ++ [.char '\n']) := by
    rw [Layout.scalar, style]
    simp
  rw [written] at here ⊢
  generalize foldPlain (parent + 2) (reached + 1) (runs Layout.isSpace t) = x at *
  obtain ⟨p, u, y, same, front, solid, hash, follows⟩ := folded_front folded
  have here : s.place.rest = .char ' ' :: (x ++ .char '\n' :: (spaces k ++ r)) := by
    simpa using here
  have next : s.spaced.place.rest = x ++ .char '\n' :: (spaces k ++ r) :=
    past_rest (t := [_]) here
  have begins : s.spaced.place.rest = p :: (y ++ .char '\n' :: (spaces k ++ r)) := by
    rw [next, front]
    rfl
  have deep := spaced_column inside here
  have within : s.spaced.indent < s.spaced.column := by
    rw [show s.spaced.indent = s.indent from rfl, indent]
    exact Int.ofNat_lt.mpr deep
  obtain ⟨stop, ends, read⟩ := folded.read (Nat.lt_add_of_pos_right (by decide)) next deep
    ⟨r, rfl, shown⟩ left
  have read : Scalar.plain false s.spaced.indent s.spaced.place = (t, true, stop) := by
    rw [show s.spaced.indent = s.indent from rfl, indent]
    exact read _ [] false (Nat.lt_succ_self _)
  obtain ⟨keys, pending, taken⟩ := takePlain_eq (s := s.spaced) fresh within read
  have token : s.spaced.takeToken p = s.spaced.takePlain := by
    have inner : s.spaced.place.column ≠ 0 := Nat.ne_of_gt (Nat.zero_lt_of_lt deep)
    refine takeToken_allowed (same ▸ plain) fresh (absurd · inner) begins solid
      fun q head other => ?_
    rw [List.head?_append, follows q head other]
    rfl
  have spaced : s.place.rest = .char ' ' :: p :: (y ++ .char '\n' :: (spaces k ++ r)) := by
    rw [here, front]
    rfl
  have ready := spaced_ready fresh spaced solid hash
  have later : s.spaced.place.line < (s.spaced.place.past (x ++ .char '\n' :: spaces k)).line :=
    past_line_lt (r := r) (by rw [next]; simp) (by decide) (by decide)
  have line : s.place.rest = .char ' ' :: (x ++ [.char '\n']) ++ (spaces k ++ r) := by
    rw [here]
    simp
  have whole : s.place.rest = .char ' ' :: (x ++ .char '\n' :: spaces k) ++ r := by
    rw [here]
    simp
  rw [reread, style]
  -- A scalar on one line takes the spaces of the next line with it or not.
  rcases ends with rfl | rfl
  · have ends : (s.place.past _).rest = spaces k ++ r := past_rest line
    rw [past_append]
    refine Reads.on_later ready (Int.le_of_lt within) begins pending ?_ (token.trans taken)
      (past_shorter line (List.cons_ne_nil _ _)) ends shown
    rw [← past_append, List.cons_append, List.append_assoc]
    exact later
  · have ends : (s.place.past _).rest = r := past_rest whole
    rw [List.cons_append, List.append_assoc]
    exact Reads.on_later (k := 0) ready (Int.le_of_lt within) begins pending later
      (token.trans taken) (past_shorter whole (List.cons_ne_nil _ _)) ends shown

/-- A written scalar is the next token. It says the text as it is read again, and the next token may
    begin where the next line does. -/
theorem reads_scalar (fresh : s.keys = [none]) (indent : s.indent = (parent : Nat))
    (inside : parent ≤ s.place.column) (narrow : parent + 2 < width)
    (here : s.place.rest = Layout.scalar (parent + 2) reached t ++ (spaces k ++ r))
    (left : k ≤ parent) (shown : ∀ p ∈ r.head?, isBlank p = false ∧ p ≠ .char '#') :
    Reads s (reread t) (styleOf t = .plain)
      (s.place.past (Layout.scalar (parent + 2) reached t ++ spaces k)) := by
  cases style : styleOf t with
  | plain => exact reads_plain fresh indent inside style here left shown
  | single => exact reads_single fresh indent inside style here shown
  | double => exact reads_double fresh indent inside narrow style here shown
  | literal => exact reads_literal fresh indent inside style here left shown

end

end ApprovedOps.Yaml.Token.Progress
