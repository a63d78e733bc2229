import ApprovedOps.Proofs.Variables.Tokens

/-! # Variables cut out of a document

What is cut out of a document as its variables ends with a closing brace. Dropping comments and commas
leaves the brace at the end, since both ways of reading the text agree on where comments and strings
are, up to a block string, which is no JSON. So the text is that of an object, if it is JSON at all.
-/

namespace ApprovedOps

namespace Lexeme

/-! ## Numbers of documents -/

theorem digitRun_chars (s : Text) : ∀ c ∈ s.take (digitRun s), inNumber c = true := by
  have run : s.take (digitRun s) = s.takeWhile CodePoint.isDigit :=
    (List.prefix_iff_eq_take.mp (List.takeWhile_prefix _)).symm
  intro c among
  rw [run] at among
  have digit : c.isDigit = true := List.all_eq_true.mp List.all_takeWhile c among
  simp [inNumber, digit]

theorem fractionTail_chars (s : Text) : ∀ c ∈ s.take (fractionTail s), inNumber c = true := by
  cases s with
  | nil => simp
  | cons c r =>
      dsimp only [fractionTail]
      split
      next point =>
        rw [List.take_succ_cons, point.1]
        exact List.forall_mem_cons.mpr ⟨by decide, digitRun_chars r⟩
      next => simp

theorem exponentTail_chars (s : Text) : ∀ c ∈ s.take (exponentTail s), inNumber c = true := by
  cases s with
  | nil => simp
  | cons c r =>
      have letter (h : c = .char 'e' ∨ c = .char 'E') : inNumber c = true := by
        obtain rfl | rfl := h <;> decide
      dsimp only [exponentTail]
      split
      next sign =>
        split
        next isExponent =>
          obtain ⟨d, r, rfl, signed⟩ : ∃ d r', r = d :: r' ∧ inNumber d = true := by
            obtain plus | minus := sign
            · exact ⟨_, _, List.eq_cons_of_mem_head? plus, by decide⟩
            · exact ⟨_, _, List.eq_cons_of_mem_head? minus, by decide⟩
          rw [List.take_succ_cons, List.take_succ_cons]
          exact List.forall_mem_cons.mpr ⟨letter isExponent.1,
            List.forall_mem_cons.mpr ⟨signed, digitRun_chars r⟩⟩
        next => simp
      next =>
        split
        next isExponent =>
          rw [List.take_succ_cons]
          exact List.forall_mem_cons.mpr ⟨letter isExponent.1, digitRun_chars r⟩
        next => simp

/-- What a number of a document is written with. -/
theorem numberTail_chars (s : Text) : ∀ c ∈ s.take (numberTail s), inNumber c = true := by
  rw [numberTail]
  split
  · simp
  · dsimp only
    rw [List.take_add, List.take_add]
    intro c among
    obtain (whole | fraction) | exponent :=
      (List.mem_append.mp among).imp_left List.mem_append.mp
    · exact digitRun_chars s c whole
    · exact fractionTail_chars _ c fraction
    · exact exponentTail_chars _ c exponent

end Lexeme

namespace Variables

open Lexeme (scanWith Piece brace closingBrace tripleQuote)

/-! ## What is cut out -/

/-- Is the text all read, up to a last closing brace? -/
def Scans (k : Nat) (body : Text) : Prop :=
  ∃ before, scanWith Piece.of k (body ++ [closingBrace]) = (before ++ [brace (k + body.length)], none)

theorem scans_blank {c : CodePoint} {y : Text} {k : Nat} (blank : c.isBlank = true)
    (h : Scans k (c :: y)) : Scans (k + 1) y := by
  obtain ⟨before, scanned⟩ := h
  rw [List.cons_append, Lexeme.scan_blank blank, List.length_cons] at scanned
  exact ⟨before, by rw [scanned, Nat.add_right_comm k 1, ← Nat.add_assoc]⟩

/-- A lexeme in front of the last brace ends before it. -/
theorem scans_piece {c : CodePoint} {y : Text} {k n : Nat} {kind : Lexeme.Kind}
    (piece : Piece.of c (y ++ [closingBrace]) = .lexeme kind n) (h : Scans k (c :: y)) :
    n ≤ y.length ∧ Scans (k + n + 1) (y.drop n) := by
  obtain ⟨before, scanned⟩ := h
  rw [List.cons_append, Lexeme.scan_piece piece, Prod.mk.injEq] at scanned
  obtain ⟨lexemes, complete⟩ := scanned
  cases before with
  | nil =>
      have first := congrArg Lexeme.start (List.cons.inj lexemes).1
      simp only [brace, List.length_cons] at first
      omega
  | cons first before =>
      have rest := (List.cons.inj lexemes).2
      have inside : n ≤ y.length := Lexeme.inside_of_scan (Prod.ext rest complete)
      rw [List.drop_append_of_le_length inside] at rest complete
      have ends : k + (c :: y).length = k + n + 1 + (y.drop n).length := by
        rw [List.length_cons, List.length_drop]
        omega
      rw [ends] at rest
      exact ⟨inside, before, Prod.ext rest complete⟩

/-- Does the text end with a brace, or does a string in it follow another one? -/
def Ended (s : Text) : Prop :=
  (∃ A, s = A ++ [closingBrace]) ∨ ∃ A B, Complete A ∧ s = A ++ (tripleQuote ++ B)

theorem ended_cons {c : CodePoint} {s : Text} (other : c ≠ .char '"') (h : Ended s) :
    Ended (c :: s) := by
  obtain ⟨A, rfl⟩ | ⟨A, B, complete, rfl⟩ := h
  · exact .inl ⟨c :: A, rfl⟩
  · exact .inr ⟨c :: A, B, .other other complete, rfl⟩

theorem ended_append {w s : Text} (others : ∀ c ∈ w, c ≠ .char '"') (h : Ended s) :
    Ended (w ++ s) := by
  induction w with
  | nil => exact h
  | cons c w ih =>
      obtain ⟨other, others⟩ := List.forall_mem_cons.mp others
      exact ended_cons other (ih others)

theorem ended_string {tail s : Text} (ends : stringTail tail = some tail.length) (h : Ended s) :
    Ended (.char '"' :: (tail ++ s)) := by
  obtain ⟨A, rfl⟩ | ⟨A, B, complete, rfl⟩ := h
  · exact .inl ⟨.char '"' :: (tail ++ A), by simp⟩
  · exact .inr ⟨.char '"' :: (tail ++ A), B, .string ends complete, by simp⟩

theorem plain_not_quote {c : CodePoint} (h : plain c = true) : c ≠ .char '"' := by
  rintro rfl
  cases h

/-- Both ways of reading agree on block comments. -/
theorem commentTail_same (s : Text) : commentTail s = Lexeme.commentTail s := by
  induction s with
  | nil => rfl
  | cons c r ih =>
      by_cases closes : c = .char '*' ∧ r.head? = some (.char '/')
      · obtain ⟨rfl, slash⟩ := closes
        obtain ⟨r, rfl⟩ : ∃ r', r = .char '/' :: r' := ⟨_, List.eq_cons_of_mem_head? slash⟩
        rfl
      · rw [Lexeme.commentTail, if_neg closes, ← ih, commentTail]
        rintro r' rfl rfl
        exact closes ⟨rfl, rfl⟩

/-- A string that ends on its line is a string in any case. -/
theorem stringTail_quoted {s : Text} {n : Nat} (h : Lexeme.quotedTail s = some n) :
    stringTail s = some n := by
  fun_induction Lexeme.quotedTail s generalizing n with
  | case1 | case3 | case5 => cases h
  | case2 => exact h
  | case4 d r open_ ih =>
      obtain ⟨k, found, rfl⟩ := Option.map_eq_some_iff.mp h
      exact stringTail_pair (ih found)
  | case6 c r open_ slash sameLine ih =>
      obtain ⟨k, found, rfl⟩ := Option.map_eq_some_iff.mp h
      exact stringTail_plain open_ slash (ih found)

theorem quotedTail_le {s : Text} {n : Nat} (h : Lexeme.quotedTail s = some n) : n ≤ s.length := by
  obtain ⟨x, r, rfl, rfl⟩ := Lexeme.quotedTail_ends h
  simp

/-- A string that no three quotes open is kept. -/
theorem dropComments_quoted {r : Text} {n : Nat} (h : Lexeme.quotedTail r = some n)
    (rest : Ended (dropComments (r.drop n))) : Ended (dropComments (.char '"' :: r)) := by
  have whole : stringTail (r.take n) = some (r.take n).length := by
    have inside := quotedTail_le h
    rw [List.length_take, Nat.min_eq_left inside]
    refine stringTail_quoted (Lexeme.quotedTail_cut (t := r.drop n) ?_ ?_)
    · rwa [List.take_append_drop]
    · rw [List.length_take, Nat.min_eq_left inside]
  rw [dropComments, Decoration.of.eq_def, if_pos rfl, stringTail_quoted h]
  exact ended_string whole rest

/-- Where three quotes stand, two are an empty string, and a third follows. -/
theorem dropComments_triple (r : Text) :
    Ended (dropComments (.char '"' :: .char '"' :: .char '"' :: r)) := by
  have third : ∃ B, dropComments (.char '"' :: r) = .char '"' :: B := by
    rw [dropComments, Decoration.of.eq_def, if_pos rfl]
    cases stringTail r <;> exact ⟨_, rfl⟩
  obtain ⟨B, third⟩ := third
  refine .inr ⟨[], B, .nil, ?_⟩
  rw [dropComments, Decoration.of.eq_def, if_pos rfl]
  simp only [stringTail, List.take_succ_cons, List.take_zero, List.drop_succ_cons, List.drop_zero,
    third]
  rfl

/-- What becomes of a lexeme of a document when the comments are dropped. -/
inductive Becomes (c : CodePoint) (r : Text) (n : Nat) : Prop where
  | nothing : dropComments (c :: r) = dropComments (r.drop n) → Becomes c r n
  | itself : (∀ d ∈ c :: r.take n, d ≠ .char '"') →
      dropComments (c :: r) = c :: (r.take n ++ dropComments (r.drop n)) → Becomes c r n
  | string : c = .char '"' → Lexeme.quotedTail r = some n → Becomes c r n
  | block : tripleQuote.isPrefixOf (c :: r) = true → Becomes c r n
  | placeholder {d r'} : c = .char '$' → r = d :: r' → d.isNameStart = true → n = 0 → Becomes c r n

theorem becomes_plain {c : CodePoint} {r : Text} {n : Nat}
    (all : ∀ d ∈ c :: r.take n, plain d = true) : Becomes c r n := by
  refine .itself (fun d among => plain_not_quote (all d among)) ?_
  have kept := keeps_plain dropComments_keeps all (r.drop n)
  rwa [List.cons_append, List.take_append_drop] at kept

theorem becomes_single {c : CodePoint} {r : Text} (other : c ≠ .char '"')
    (text : Decoration.of c r = .plain) : Becomes c r 0 := by
  refine .itself (fun d among => ?_) ?_
  · rw [List.take_zero, List.mem_singleton] at among
    rwa [among]
  · rw [dropComments, text]
    rfl

/-- A slash with no other slash and no star behind it is no comment. -/
theorem of_slash {r : Text} (line : r.head? ≠ some (.char '/')) (block : r.head? ≠ some (.char '*')) :
    Decoration.of (.char '/') r = .plain := by
  rw [Decoration.of.eq_def, if_neg (by decide), if_neg (by decide), if_pos rfl]
  cases r with
  | nil => rfl
  | cons d r =>
      have noLine : d ≠ .char '/' := by simpa using line
      have noBlock : d ≠ .char '*' := by simpa using block
      simp only [noLine, noBlock, if_false]

/-- A dollar sign without a name is no placeholder. -/
theorem of_dollar {r : Text} (noName : ∀ d, r.head? = some d → d.isNameStart = false) :
    Decoration.of (.char '$') r = .plain := by
  rw [Decoration.of.eq_def, if_neg (by decide), if_neg (by decide), if_neg (by decide), if_pos rfl]
  cases r with
  | nil => rfl
  | cons d r => simp only [noName d rfl, Bool.false_eq_true, if_false]

theorem dropComments_comment {r : Text} {n : Nat} (h : Lexeme.commentTail r = some n) :
    dropComments (.char '/' :: .char '*' :: r) = dropComments (r.drop n) := by
  rw [dropComments, Decoration.of, if_neg (by decide), if_neg (by decide), if_pos rfl,
    if_neg (by decide), if_pos rfl, commentTail_same, h]
  dsimp only
  rw [Nat.add_comm, List.drop_succ_cons]

theorem becomes {c : CodePoint} {r : Text} {kind : Lexeme.Kind} {n : Nat}
    (piece : Piece.of c r = .lexeme kind n) : Becomes c r n := by
  by_cases blank : c.isBlank = true
  · simp [Piece.of, blank] at piece
  by_cases hash : c = .char '#'
  · subst hash
    cases piece
    exact .nothing (@dropComments_mark "#" (by decide) r)
  by_cases slash : c = .char '/'
  · subst slash
    simp only [Piece.of, blank, hash, Bool.false_eq_true, if_false, if_true] at piece
    split at piece
    next line =>
      obtain ⟨r, rfl⟩ : ∃ r', r = .char '/' :: r' := ⟨_, List.eq_cons_of_mem_head? line⟩
      cases piece
      exact .nothing (@dropComments_mark "//" (by decide) r)
    next line =>
      split at piece
      next block =>
        obtain ⟨r, rfl⟩ : ∃ r', r = .char '*' :: r' := ⟨_, List.eq_cons_of_mem_head? block⟩
        split at piece
        next m found =>
          cases piece
          exact .nothing (dropComments_comment found)
        next => cases piece
      next block =>
        cases piece
        exact becomes_single (by decide) (of_slash line block)
  by_cases quote : c = .char '"'
  · subst quote
    by_cases triple : tripleQuote.isPrefixOf (.char '"' :: r) = true
    · exact .block triple
    · rw [Piece.of_quote, Lexeme.stringTail, if_neg triple, Option.none_or] at piece
      split at piece
      next found =>
        cases piece
        exact .string rfl found
      next => cases piece
  by_cases name : c.isNameStart = true
  · simp only [Piece.of, blank, hash, slash, quote, name, Bool.false_eq_true, if_false, if_true,
      Piece.lexeme.injEq] at piece
    obtain ⟨-, rfl⟩ := piece
    have run : r.take (r.takeWhile CodePoint.isNameContinue).length =
        r.takeWhile CodePoint.isNameContinue :=
      (List.prefix_iff_eq_take.mp (List.takeWhile_prefix _)).symm
    refine becomes_plain (List.forall_mem_cons.mpr ⟨plain_of (by decide) name, ?_⟩)
    rw [run]
    exact fun d among => plain_of (by decide) (List.all_eq_true.mp List.all_takeWhile d among)
  simp only [Piece.of, blank, hash, slash, quote, name, Bool.false_eq_true, if_false] at piece
  split at piece
  next digit =>
    cases piece
    have some_ : Lexeme.numberTail (c :: r) - 1 + 1 = Lexeme.numberTail (c :: r) := by
      have pos : 0 < Lexeme.numberTail (c :: r) := by
        simp [Lexeme.numberTail, Lexeme.digitRun, digit]
      omega
    have chars := Lexeme.numberTail_chars (c :: r)
    rw [← some_, List.take_succ_cons] at chars
    exact becomes_plain fun d among => plain_of (by decide) (chars d among)
  split at piece
  next minus =>
    subst minus
    split at piece
    · cases piece
      exact becomes_plain (List.forall_mem_cons.mpr ⟨rfl, fun d among =>
        plain_of (by decide) (Lexeme.numberTail_chars r d among)⟩)
    · cases piece
      exact becomes_plain (List.forall_mem_singleton.mpr rfl)
  · cases piece
    by_cases dollar : c = .char '$'
    · subst dollar
      cases r with
      | nil => exact becomes_single quote (of_dollar (by rintro d ⟨⟩))
      | cons d r =>
          cases start : d.isNameStart with
          | true => exact .placeholder rfl rfl start rfl
          | false => exact becomes_single quote (of_dollar (by rintro e ⟨⟩; exact start))
    · refine becomes_single quote ?_
      rw [Decoration.of.eq_def, if_neg quote, if_neg hash, if_neg slash, if_neg dollar]

/-- A placeholder is a mark and a name, and becomes a word. -/
theorem scans_placeholder {d : CodePoint} {y : Text} {k : Nat} (start : d.isNameStart = true)
    (h : Scans k (d :: y)) :
    ∃ j m, Scans j (y.drop m) ∧ dropComments (.char '$' :: d :: (y ++ [closingBrace])) =
      Text.ofString "null" ++ dropComments (y.drop m ++ [closingBrace]) := by
  have others : d.isBlank = false ∧ d ≠ .char '#' ∧ d ≠ .char '/' ∧ d ≠ .char '"' := by
    refine ⟨Parts.isNameStart_not_blank start, ?_, ?_, ?_⟩ <;>
    · rintro rfl
      cases start
  have name : Piece.of d (y ++ [closingBrace]) = .lexeme .name
      ((y ++ [closingBrace]).takeWhile CodePoint.isNameContinue).length := by
    simp [Piece.of, others, start]
  obtain ⟨inside, rest⟩ := scans_piece name h
  refine ⟨_, _, rest, ?_⟩
  rw [dropComments, Decoration.of, if_neg (by decide), if_neg (by decide), if_neg (by decide),
    if_pos rfl, if_pos start]
  dsimp only
  rw [Nat.add_comm, List.drop_succ_cons, List.drop_append_of_le_length inside]

/-- What is all read up to a last closing brace ends with it when the comments are dropped, unless
    there is a block string in it. -/
theorem dropComments_ended {k : Nat} {body : Text} (h : Scans k body) :
    Ended (dropComments (body ++ [closingBrace])) := by
  induction size : body.length using Nat.strong_induction_on generalizing body k with
  | _ size ih =>
    cases body with
    | nil => exact .inl ⟨[], by simp [dropComments, closingBrace, Decoration.of]⟩
    | cons c y =>
      have later {j : Nat} {n : Nat} (rest : Scans j (y.drop n)) :
          Ended (dropComments (y.drop n ++ [closingBrace])) :=
        ih _ (by simp only [← size, List.length_cons, List.length_drop]; omega) rest rfl
      rw [List.cons_append]
      cases blank : c.isBlank with
      | true =>
          have plain_ := plain_of (by decide) blank
          rw [dropComments_keeps.plain c _ plain_]
          exact ended_cons (plain_not_quote plain_) (later (n := 0) (scans_blank blank h))
      | false =>
          cases piece : Piece.of c (y ++ [closingBrace]) with
          | blank n => exact absurd piece (Lexeme.piece_solid blank _ n)
          | unterminated what =>
              obtain ⟨before, scanned⟩ := h
              simp [scanWith, piece] at scanned
          | lexeme kind n =>
              obtain ⟨inside, rest⟩ := scans_piece piece h
              have ended := later rest
              rw [← List.drop_append_of_le_length inside] at ended
              cases becomes piece with
              | nothing text =>
                  rw [text]
                  exact ended
              | itself others text =>
                  rw [text, ← List.cons_append]
                  exact ended_append others ended
              | string quote closed =>
                  subst quote
                  exact dropComments_quoted closed ended
              | block triple =>
                  obtain ⟨r, text⟩ := Lexeme.tripleQuote_begins triple
                  rw [text]
                  exact dropComments_triple r
              | @placeholder d r dollar text start none_ =>
                  subst dollar none_
                  cases y with
                  | nil =>
                      cases (List.cons.inj text).1
                      cases start
                  | cons e y =>
                      obtain ⟨rfl, rfl⟩ := List.cons.inj text
                      obtain ⟨j, m, rest, null⟩ := scans_placeholder start rest
                      have ended := later (n := m + 1) rest
                      rw [List.cons_append, null]
                      exact ended_append (by decide) ended

/-! ## Commas -/

theorem stringTail_le {s : Text} {n : Nat} (h : stringTail s = some n) : n ≤ s.length := by
  obtain ⟨a, r, rfl, rfl, -⟩ := stringTail_split h
  simp

/-- A last brace is left, whether it stands in a string or not. -/
theorem dropCommas_brace (A : Text) :
    ∃ A', dropCommas (A ++ [closingBrace]) = A' ++ [closingBrace] := by
  match A with
  | [] => exact ⟨[], by simp [dropCommas, closingBrace]⟩
  | c :: A =>
      obtain ⟨A₁, later⟩ := dropCommas_brace A
      rw [List.cons_append, dropCommas]
      split
      · split
        next n closed =>
          have inside := stringTail_le closed
          rw [List.length_append, List.length_singleton] at inside
          obtain short | whole := Nat.le_or_eq_of_le_succ inside
          · obtain ⟨A₂, rest⟩ := dropCommas_brace (A.drop n)
            rw [List.drop_append_of_le_length short, rest]
            exact ⟨c :: (A ++ [closingBrace]).take n ++ A₂, by simp⟩
          · have all : (A ++ [closingBrace]).length ≤ n := by simp [whole]
            rw [List.take_of_length_le all, List.drop_of_length_le all, dropCommas]
            exact ⟨c :: A, by simp⟩
        next => exact ⟨c :: A₁, by rw [later]; rfl⟩
      split
      · exact ⟨A₁, later⟩
      · exact ⟨c :: A₁, by rw [later]; rfl⟩
termination_by A.length
decreasing_by all_goals simp only [List.length_cons, List.length_drop]; omega

/-- Strings are left as they are. -/
theorem dropCommas_apart {A : Text} (complete : Complete A) (B : Text) :
    ∃ A' B', Complete A' ∧
      dropCommas (A ++ (tripleQuote ++ B)) = A' ++ (tripleQuote ++ B') := by
  induction complete with
  | nil =>
      have third : ∃ B', dropCommas (.char '"' :: B) = .char '"' :: B' := by
        rw [dropCommas, if_pos rfl]
        cases stringTail B <;> exact ⟨_, rfl⟩
      obtain ⟨B', third⟩ := third
      refine ⟨[], B', .nil, ?_⟩
      change dropCommas (.char '"' :: .char '"' :: .char '"' :: B) = _
      rw [dropCommas, if_pos rfl]
      simp only [stringTail, List.take_succ_cons, List.take_zero, List.drop_succ_cons,
        List.drop_zero, third]
      rfl
  | @other c s other complete ih =>
      obtain ⟨A', B', complete', later⟩ := ih
      rw [List.cons_append, dropCommas, if_neg other]
      split
      · exact ⟨A', B', complete', later⟩
      · exact ⟨c :: A', B', .other other complete', by rw [later]; rfl⟩
  | @string tail s ends complete ih =>
      obtain ⟨A', B', complete', later⟩ := ih
      refine ⟨.char '"' :: (tail ++ A'), B', .string ends complete', ?_⟩
      rw [List.cons_append, List.append_assoc, dropCommas, if_pos rfl, stringTail_append _ ends]
      dsimp only
      rw [List.take_left, List.drop_left, later]
      simp

/-- What is all read up to a last closing brace can be cleaned only if it is the text of an
    object. -/
theorem scans_object {k : Nat} {body : Text} {v : Json} (h : Scans k body)
    (read : Json.read (strip (body ++ [closingBrace])) = .ok v) : ∃ fields, v = .object fields := by
  obtain ⟨tree, written, value⟩ := read_tree read
  obtain ⟨A, text⟩ | ⟨A, B, complete, text⟩ := dropComments_ended h
  · obtain ⟨A', text'⟩ := dropCommas_brace A
    have last : (strip (body ++ [closingBrace])).getLast? = some closingBrace := by
      rw [strip, text, text', List.getLast?_append]
      rfl
    obtain ⟨g, members, inner, -, rfl, -, -⟩ := written_object written last
    rw [Json.Tree.value] at value
    cases fields : Json.Tree.fields [] members with
    | error e =>
        rw [fields] at value
        cases value
    | ok fs =>
        rw [fields] at value
        cases value
        exact ⟨fs, rfl⟩
  · obtain ⟨A', B', complete', text'⟩ := dropCommas_apart complete B
    refine absurd ?_ (tokens_apart (written_tokens written) A' complete' (B := B'))
    rw [strip, text, text']

end Variables

end ApprovedOps
