import ApprovedOps.Proofs.Variables.Excerpt

/-! # Blocks of variables

The text of an object, with the keyword in front of it, is a block that any document can have: its
tokens are lexemes or sequences of them, and its brackets are theirs. Cleaned variables that were cut
out of a document are such a text.
-/

namespace ApprovedOps

namespace Variables

open Lexeme (scanWith Piece brace closingBrace tripleQuote)

/-! ## Lexemes of tokens -/

open Parts (nest Block)

/-- Do the lexemes lead from some brackets that are due to others, whatever else is due after them? -/
inductive Nests : List Char → List Lexeme → List Char → Prop where
  | nil {due} : Nests due [] due
  | cons {due due₁ l ls due'} : (∀ base, nest (due ++ base) l = some (due₁ ++ base)) →
      Nests due₁ ls due' → Nests due (l :: ls) due'

theorem nests_fold {due due' : List Char} {ls : List Lexeme} (h : Nests due ls due')
    (base : List Char) : ls.foldlM nest (due ++ base) = some (due' ++ base) := by
  induction h with
  | nil => rfl
  | cons first rest ih =>
      rw [List.foldlM_cons, first]
      exact ih

/-- On the way nothing is closed that was due before. -/
theorem nests_open {due due' : List Char} {ls : List Lexeme} (h : Nests due ls due')
    {base : List Char} (some_ : base ≠ []) (n : Nat) :
    (ls.take n).foldlM nest (due ++ base) ≠ some [] := by
  induction h generalizing n with
  | nil =>
      rw [List.take_nil]
      simp [some_]
  | cons first rest ih =>
      cases n with
      | zero => simp [some_]
      | succ n =>
          rw [List.take_succ_cons, List.foldlM_cons, first]
          exact ih n

/-- A lexeme that begins with no bracket changes nothing about what is due. -/
theorem nests_idle {c : CodePoint} {x : Text} {kind : Lexeme.Kind} {k : Nat} {due due' : List Char}
    {ls : List Lexeme} (idle : ∀ m ∈ Text.ofString "\x7b([\x7d)]", c ≠ m)
    (rest : Nests due ls due') : Nests due (⟨kind, c :: x, k⟩ :: ls) due' := by
  refine .cons (fun base => ?_) rest
  have noMark (m : Char) (among : .char m ∈ Text.ofString "\x7b([\x7d)]") :
      Lexeme.isMark ⟨kind, c :: x, k⟩ m = false := by
    simp [Lexeme.isMark, idle (.char m) among]
  simp [nest, Parts.isClosing, noMark '\x7b' (by decide), noMark '(' (by decide),
    noMark '[' (by decide), noMark '\x7d' (by decide), noMark ')' (by decide),
    noMark ']' (by decide)]

theorem joins_ends {c : CodePoint} (h : joins c = true) :
    Lexeme.inNumber c = false ∧ c.isNameContinue = false ∧ c ≠ .char '"' := by
  simp only [joins, Json.Reader.isBlank, Bool.or_eq_true, decide_eq_true_eq] at h
  obtain ((((((rfl | rfl) | rfl) | rfl) | rfl) | rfl) | rfl) | rfl := h <;> decide

theorem joins_brace {s : Text} (h : Joins s) : Joins (s ++ [closingBrace]) := by
  cases s with
  | nil =>
      rintro c ⟨⟩
      rfl
  | cons c s => exact h

theorem takeWhile_le {p : CodePoint → Bool} {w s : Text}
    (stops : ∀ c, s.head? = some c → p c = false) : ((w ++ s).takeWhile p).length ≤ w.length := by
  induction w with
  | nil =>
      cases s with
      | nil => exact Nat.le_refl 0
      | cons c s => simp [stops c rfl]
  | cons c w ih =>
      rw [List.cons_append, List.takeWhile_cons]
      split
      · exact Nat.succ_le_succ ih
      · exact Nat.zero_le _

/-- A word or a number begins with a lexeme that ends in it. -/
theorem word_piece {c : CodePoint} {w s : Text} (all : ∀ d ∈ c :: w, inWord d = true)
    (joined : Joins s) : ∃ kind n, Piece.of c (w ++ s) = .lexeme kind n ∧ n ≤ w.length := by
  obtain ⟨first, -⟩ := List.forall_mem_cons.mp all
  have ends : Lexeme.EndsNumber s := fun d head => (joins_ends (joined d head)).1
  have other (m : Char) (outside : inWord (.char m) = false) : c ≠ .char m := by
    rintro rfl
    rw [outside] at first
    cases first
  have solid : c.isBlank = false := by
    cases blank : c.isBlank with
    | false => rfl
    | true =>
        have noName := Lexeme.blank_not_isNameContinue blank
        simp only [inWord, noName, Bool.false_or, Bool.or_eq_true, decide_eq_true_eq] at first
        obtain (rfl | rfl) | rfl := first <;> cases blank
  have hash := other '#' (by decide)
  have slash := other '/' (by decide)
  have quote := other '"' (by decide)
  have number : Lexeme.numberTail (c :: (w ++ s)) = Lexeme.numberTail (c :: w) :=
    Lexeme.numberTail_ends ends (c :: w)
  have within := Lexeme.numberTail_le (c :: w)
  have within' := Lexeme.numberTail_le w
  rw [List.length_cons] at within
  simp only [Piece.of, solid, hash, slash, quote, Bool.false_eq_true, if_false, number,
    Lexeme.numberTail_ends ends]
  split
  · refine ⟨_, _, rfl, ?_⟩
    exact takeWhile_le fun d head => (joins_ends (joined d head)).2.1
  split
  · exact ⟨_, _, rfl, by omega⟩
  split
  · split
    · exact ⟨_, _, rfl, within'⟩
    · exact ⟨_, _, rfl, Nat.zero_le _⟩
  · exact ⟨_, _, rfl, Nat.zero_le _⟩

theorem strict_other {c : CodePoint} (other : c ≠ .char '"') (r : Text) :
    Piece.strict c r = Piece.of c r := by
  have single : tripleQuote.isPrefixOf (c :: r) = false := by
    simp [tripleQuote, List.isPrefixOf, Ne.symm other]
  simp only [Piece.strict, single, Bool.false_eq_true, if_false]

theorem strict_blank {c : CodePoint} (blank : c.isBlank = true) (k : Nat) (s : Text) :
    scanWith Piece.strict k (c :: s) = scanWith Piece.strict (k + 1) s := by
  refine Lexeme.scan_blank_of (fun c r blank => ?_) blank k s
  rw [strict_other (plain_not_quote (plain_of (by decide) blank))]
  simp only [Piece.of, blank, if_true]

theorem quotedTail_plain {c : CodePoint} {s : Text} {n : Nat} (quote : c ≠ .char '"')
    (slash : c ≠ .char '\\') (sameLine : c ≠ .char '\n') (tail : Lexeme.quotedTail s = some n) :
    Lexeme.quotedTail (c :: s) = some (n + 1) := by
  rw [Lexeme.quotedTail.eq_def]
  simp only [quote, slash, sameLine, if_false, tail, Option.map_some]

theorem quotedTail_pair {d : CodePoint} {s : Text} {n : Nat} (tail : Lexeme.quotedTail s = some n) :
    Lexeme.quotedTail (.char '\\' :: d :: s) = some (n + 2) := by
  rw [Lexeme.quotedTail.eq_def]
  dsimp only
  rw [if_neg (by decide), if_pos rfl, tail, Option.map_some]

/-- A string of JSON stands on one line. -/
theorem quotedTail_body {body : Text} (h : Json.StringBody body) (r : Text) :
    Lexeme.quotedTail (body ++ .char '"' :: r) = some (body.length + 1) := by
  induction h with
  | nil =>
      rw [List.nil_append, Lexeme.quotedTail.eq_def]
      rfl
  | plain quote slash printable tail ih =>
      refine quotedTail_plain quote slash ?_ ih
      rintro rfl
      exact printable (by decide)
  | letter among tail ih => exact quotedTail_pair ih
  | @numeric digits s four hex tail ih =>
      have digits_ : Lexeme.quotedTail (digits ++ (s ++ .char '"' :: r)) =
          some (digits.length + (s.length + 1)) := by
        clear four
        induction digits with
        | nil => simpa using ih
        | cons d digits later =>
            have solid : d ≠ .char '"' ∧ d ≠ .char '\\' ∧ d ≠ .char '\n' := by
              refine ⟨?_, ?_, ?_⟩ <;>
              · rintro rfl
                cases hex _ List.mem_cons_self
            have tail := later fun d among => hex d (List.mem_cons_of_mem _ among)
            rw [List.cons_append, quotedTail_plain solid.1 solid.2.1 solid.2.2 tail, List.length_cons]
            congr 1
            omega
      rw [List.cons_append, List.cons_append, List.append_assoc, quotedTail_pair digits_]
      simp only [List.length_cons, List.length_append]
      exact congrArg some (by omega)

/-- No three quotes stand at the beginning of a string of JSON. -/
theorem strict_string {body r : Text} (h : Json.StringBody body) (joined : Joins r) :
    Piece.strict (.char '"') (body ++ .char '"' :: r) = .lexeme .string (body.length + 1) := by
  have single : tripleQuote.isPrefixOf (.char '"' :: (body ++ .char '"' :: r)) = false := by
    refine Bool.eq_false_iff.mpr fun triple => ?_
    obtain ⟨r', text⟩ := Lexeme.tripleQuote_begins triple
    obtain ⟨-, text⟩ := List.cons.inj text
    cases h with
    | nil => cases joined _ (congrArg List.head? (List.cons.inj text).2)
    | plain quote slash printable _ => exact quote (List.cons.inj text).1
    | letter => cases (List.cons.inj text).1
    | numeric => cases (List.cons.inj text).1
  simp only [Piece.strict, single, Bool.false_eq_true, if_false]
  rw [Piece.of_quote, Lexeme.stringTail, single]
  simp only [Bool.false_eq_true, if_false, Option.none_or, quotedTail_body h]

/-- Is the text read as lexemes if a last brace follows it, with these brackets due before and after
    it? -/
def Lexes (k : Nat) (due : List Char) (s : Text) (due' : List Char) : Prop :=
  ∃ ls, scanWith Piece.strict k (s ++ [closingBrace]) = (ls ++ [brace (k + s.length)], none) ∧
    Nests due ls due'

theorem lexes_mark {c : CodePoint} {due due₁ due' : List Char} {s : Text} {k : Nat}
    (mark : ∀ r, Piece.strict c r = .lexeme .mark 0)
    (leads : ∀ base, nest (due ++ base) ⟨.mark, [c], k⟩ = some (due₁ ++ base))
    (h : Lexes (k + 1) due₁ s due') : Lexes k due (c :: s) due' := by
  obtain ⟨ls, scanned, nests⟩ := h
  refine ⟨⟨.mark, [c], k⟩ :: ls, ?_, .cons leads nests⟩
  have position : k + (c :: s).length = k + 1 + s.length := by
    rw [List.length_cons]
    omega
  rw [List.cons_append, Lexeme.scan_piece (mark _), List.drop_zero, List.take_zero, Nat.add_zero,
    scanned, position]
  rfl

theorem lexes_word {w s : Text} {due due' : List Char} {k : Nat}
    (all : ∀ c ∈ w, inWord c = true) (joined : Joins s) (h : Lexes (k + w.length) due s due') :
    Lexes k due (w ++ s) due' := by
  match w with
  | [] => exact h
  | c :: w =>
      obtain ⟨kind, n, piece, inside⟩ := word_piece all (joins_brace joined)
      obtain ⟨first, others⟩ := List.forall_mem_cons.mp all
      have other (m : CodePoint) (outside : inWord m = false) : c ≠ m := by
        rintro rfl
        rw [outside] at first
        cases first
      have rest : k + n + 1 + (w.drop n).length = k + (c :: w).length := by
        rw [List.length_drop, List.length_cons]
        omega
      obtain ⟨ls, scanned, nests⟩ := lexes_word (k := k + n + 1)
        (fun d among => others d (List.mem_of_mem_drop among)) joined (rest ▸ h)
      refine ⟨⟨kind, c :: (w ++ (s ++ [closingBrace])).take n, k⟩ :: ls, ?_,
        nests_idle (by
          intro m among
          refine other m ?_
          revert m
          decide) nests⟩
      have position : k + (c :: w ++ s).length = k + n + 1 + (w.drop n ++ s).length := by
        simp only [List.length_append, List.length_cons, List.length_drop]
        omega
      rw [List.append_assoc] at scanned
      rw [← strict_other (other (.char '"') (by decide))] at piece
      rw [List.append_assoc, List.cons_append, Lexeme.scan_piece piece,
        List.drop_append_of_le_length inside, scanned, position]
      rfl
termination_by w.length
decreasing_by all_goals simp only [List.length_cons, List.length_drop]; omega

/-- The brackets of tokens are the brackets of their lexemes. -/
theorem tokens_lexes {due due' : List Char} {s : Text} (h : Tokens due s due') (k : Nat) :
    Lexes k due s due' := by
  induction h generalizing k with
  | nil => exact ⟨[], by simp [scanWith, closingBrace, brace]; rfl, .nil⟩
  | @between c due s due' kind rest ih =>
      obtain blank | rfl | rfl := kind
      · obtain ⟨ls, scanned, nests⟩ := ih (k + 1)
        refine ⟨ls, ?_, nests⟩
        rw [List.cons_append, strict_blank (blank_solid blank).1, scanned, List.length_cons]
        congr 4
        omega
      · exact lexes_mark (fun _ => rfl) (fun _ => rfl) (ih (k + 1))
      · exact lexes_mark (fun _ => rfl) (fun _ => rfl) (ih (k + 1))
  | brace rest ih | bracket rest ih => exact lexes_mark (fun _ => rfl) (fun _ => rfl) (ih (k + 1))
  | @close c due s due' bracket rest ih =>
      obtain rfl | rfl := bracket
      · exact lexes_mark (fun _ => rfl) (fun _ => rfl) (ih (k + 1))
      · exact lexes_mark (fun _ => rfl) (fun _ => rfl) (ih (k + 1))
  | @string body due s due' body_ joined rest ih =>
      obtain ⟨ls, scanned, nests⟩ := ih (k + (body.length + 1) + 1)
      have piece := strict_string body_ (joins_brace joined)
      refine ⟨⟨.string, .char '"' :: (body ++ .char '"' :: (s ++ [closingBrace])).take (body.length + 1), k⟩ :: ls,
        ?_, nests_idle (by decide) nests⟩
      have text : Json.between body ++ s ++ [closingBrace] =
          .char '"' :: (body ++ .char '"' :: (s ++ [closingBrace])) := by simp [Json.between]
      have position : k + (Json.between body ++ s).length = k + (body.length + 1) + 1 + s.length := by
        simp only [Json.between, List.length_append, List.length_cons, List.length_nil]
        omega
      have behind : (body ++ .char '"' :: (s ++ [closingBrace])).drop (body.length + 1) =
          s ++ [closingBrace] := by simp [List.drop_append]
      rw [text, Lexeme.scan_piece piece, behind, scanned, position]
      rfl
  | word all joined rest ih => exact lexes_word all joined (ih _)

/-- The block of variables with a text between its braces. -/
def object (inner : Text) : Block :=
  .vars (.char ' ' :: .char '\x7b' :: (inner ++ [closingBrace]))

theorem object_scan {inner : Text} (h : Tokens [] inner []) :
    ∃ ls, Nests [] ls [] ∧ scanWith Piece.strict 0 (object inner).text =
      ((object inner).first :: ⟨.mark, [.char '\x7b'], 10⟩ :: (ls ++ [brace (11 + inner.length)]),
        none) := by
  obtain ⟨ls, scanned, nests⟩ := tokens_lexes h 11
  have keyword : Piece.strict (.char 'v')
      (Text.ofString "ariables" ++ .char ' ' :: .char '\x7b' :: (inner ++ [closingBrace])) =
        .lexeme .name 8 := by
    have word := @Lexeme.takeWhile_bounded _ CodePoint.isNameContinue (Text.ofString "ariables")
      (.char ' ' :: .char '\x7b' :: (inner ++ [closingBrace])) (by decide) (by rintro d ⟨⟩; rfl)
    rw [strict_other (by decide)]
    change Piece.lexeme .name (List.takeWhile _ _).length = _
    rw [word]
    rfl
  have opening : Piece.strict (.char '\x7b') (inner ++ [closingBrace]) = .lexeme .mark 0 := rfl
  refine ⟨ls, nests, ?_⟩
  change scanWith Piece.strict 0 (.char 'v' ::
    (Text.ofString "ariables" ++ .char ' ' :: .char '\x7b' :: (inner ++ [closingBrace]))) = _
  rw [Lexeme.scan_piece keyword]
  change (_ :: (scanWith Piece.strict 9 (.char ' ' :: .char '\x7b' :: (inner ++ [closingBrace]))).1,
    (scanWith Piece.strict 9 (.char ' ' :: .char '\x7b' :: (inner ++ [closingBrace]))).2) = _
  rw [strict_blank (by decide), Lexeme.scan_piece opening, List.drop_zero, scanned]
  rfl

/-- A text of tokens between braces is a block of variables. -/
theorem object_wellFormed {inner : Text} (h : Tokens [] inner []) : (object inner).WellFormed := by
  obtain ⟨ls, nests, scanned⟩ := object_scan h
  have lexemes : (object inner).lexemes = (object inner).first ::
      ⟨.mark, [.char '\x7b'], 10⟩ :: (ls ++ [brace (11 + inner.length)]) := congrArg Prod.fst scanned
  have length : (object inner).text.length - 1 = 11 + inner.length := by
    simp [object, Block.text, Text.ofString]
    omega
  have enter (more : List Lexeme) : ((object inner).first :: ⟨.mark, [.char '\x7b'], 10⟩ ::
      more).foldlM nest [] = more.foldlM nest ['\x7d'] := rfl
  have inside : ls.foldlM nest ['\x7d'] = some ['\x7d'] := nests_fold nests ['\x7d']
  refine ⟨trivial, by rw [lexemes]; rfl, congrArg Prod.snd scanned, ?_, ?_, ?_, ?_⟩
  · rw [lexemes, enter, List.foldlM_append, inside]
    rfl
  · exact List.getLast?_eq_some_iff.mpr
      ⟨Text.ofString "variables" ++ .char ' ' :: .char '\x7b' :: inner, by simp [object, Block.text]⟩
  · rw [lexemes, length]
    simp [List.getLast?_cons]
  · intro i within
    rw [lexemes] at within ⊢
    obtain _ | _ | i := i
    · rintro ⟨⟩
    · rintro ⟨⟩
    · intro _
      have short : i + 1 ≤ ls.length := by
        simp at within
        omega
      rw [List.take_succ_cons, List.take_succ_cons, enter, List.take_append_of_le_length short]
      exact nests_open nests (List.cons_ne_nil _ _) (i + 1)

/-! ## No block strings -/

theorem triple_cons {c : CodePoint} {s : Text} (other : c ≠ .char '"')
    (h : tripleQuote <:+: c :: s) : tripleQuote <:+: s := by
  obtain here | later := List.infix_cons_iff.mp h
  · exact absurd (List.cons_prefix_cons.mp here).1.symm other
  · exact later

theorem triple_append {w s : Text} (others : ∀ c ∈ w, c ≠ .char '"')
    (h : tripleQuote <:+: w ++ s) : tripleQuote <:+: s := by
  induction w with
  | nil => exact h
  | cons c w ih =>
      obtain ⟨other, others⟩ := List.forall_mem_cons.mp others
      exact ih others (triple_cons other h)

theorem joins_quote {r p : Text} (joined : Joins r) : ¬.char '"' :: p <+: r := by
  rintro ⟨t, rfl⟩
  cases joined _ rfl

/-- In front of the end of a string, or in it, there is no quote with another one behind it. -/
theorem body_single {body r : Text} (h : Json.StringBody body) (joined : Joins r) :
    ¬[CodePoint.char '"', .char '"'] <+: body ++ .char '"' :: r := by
  intro pair
  cases h with
  | nil => exact joins_quote joined (List.cons_prefix_cons.mp pair).2
  | plain quote => exact quote (List.cons_prefix_cons.mp pair).1.symm
  | letter => cases (List.cons_prefix_cons.mp pair).1
  | numeric => cases (List.cons_prefix_cons.mp pair).1

theorem body_triple {body r : Text} (h : Json.StringBody body) (joined : Joins r)
    (none_ : ¬tripleQuote <:+: r) : ¬tripleQuote <:+: body ++ .char '"' :: r := by
  induction h with
  | nil =>
      intro triple
      obtain here | later := List.infix_cons_iff.mp triple
      · exact joins_quote joined (List.cons_prefix_cons.mp here).2
      · exact none_ later
  | plain quote slash printable tail ih => exact fun triple => ih (triple_cons quote triple)
  | letter among tail ih =>
      intro triple
      obtain here | later := List.infix_cons_iff.mp (triple_cons (by decide) triple)
      · exact body_single tail joined (List.cons_prefix_cons.mp here).2
      · exact ih later
  | @numeric digits s four hex tail ih =>
      have others : ∀ c ∈ .char '\\' :: .char 'u' :: digits, c ≠ .char '"' := by
        refine List.forall_mem_cons.mpr ⟨by decide, List.forall_mem_cons.mpr ⟨by decide, ?_⟩⟩
        rintro c among rfl
        cases hex _ among
      intro triple
      refine ih (triple_append others ?_)
      simpa using triple

/-- Nowhere in tokens of JSON do three quotes stand in a row. -/
theorem tokens_triple {due due' : List Char} {s : Text} (h : Tokens due s due') :
    ¬tripleQuote <:+: s := by
  induction h with
  | nil => exact fun triple => by simp [tripleQuote] at triple
  | between kind rest ih =>
      have other : ∀ c, Json.Reader.isBlank c = true ∨ c = .char ',' ∨ c = .char ':' →
          c ≠ .char '"' := by
        rintro c (blank | rfl | rfl) <;> rintro ⟨⟩
        cases blank
      exact fun triple => ih (triple_cons (other _ kind) triple)
  | brace rest ih | bracket rest ih => exact fun triple => ih (triple_cons (by decide) triple)
  | close bracket rest ih =>
      obtain rfl | rfl := bracket
      · exact fun triple => ih (triple_cons (by decide) triple)
      · exact fun triple => ih (triple_cons (by decide) triple)
  | @string body due s due' body_ joined rest ih =>
      intro triple
      rw [Json.between, List.cons_append, List.append_assoc] at triple
      obtain here | later := List.infix_cons_iff.mp triple
      · exact body_single body_ joined (List.cons_prefix_cons.mp here).2
      · exact body_triple body_ joined ih later
  | word all joined rest ih =>
      refine fun triple => ih (triple_append (fun c among => ?_) triple)
      rintro rfl
      cases all _ among

/-! ## Cleaned blocks -/

theorem render_object (fields : Dictionary Json) (indent : Nat) :
    ∃ middle, (Json.object fields).render indent = .char '\x7b' :: (middle ++ [closingBrace]) := by
  cases fields with
  | nil => exact ⟨[], rfl⟩
  | cons g fields =>
      obtain ⟨key, v⟩ := g
      refine ⟨Json.newline indent 1 ++ Json.quote key ++ Text.ofString ": " ++
        v.renderAt indent 1 ++ Json.renderFields indent 1 fields ++ Json.newline indent 0, ?_⟩
      rw [Json.render, Json.renderAt]
      simp only [List.append_assoc, List.cons_append, List.nil_append]
      rfl

/-- What is left of variables that were cut out, when they are cleaned, is the text of an object. -/
theorem scans_cleaned {k indent : Nat} {body V : Text} (h : Scans k body)
    (cleaned : clean indent (body ++ [closingBrace]) = .ok V) :
    ∃ inner, V = .char '\x7b' :: (inner ++ [closingBrace]) ∧ Tokens [] inner [] := by
  obtain ⟨v, read, readable, rfl⟩ := clean_ok cleaned
  obtain ⟨fields, rfl⟩ := scans_object h read
  obtain ⟨tree, written, -⟩ := read_tree (Json.read_render readable indent)
  obtain ⟨middle, text⟩ := render_object fields indent
  have last : ((Json.object fields).render indent).getLast? = some closingBrace := by
    rw [text, ← List.cons_append, List.getLast?_append]
    rfl
  obtain ⟨g, members, inner, gap, -, text', tokens⟩ := written_object written last
  cases g with
  | nil => exact ⟨inner, text', tokens⟩
  | cons c g =>
      have blank := gap_blanks rfl gap c List.mem_cons_self
      rw [text'] at text
      obtain rfl := (List.cons.inj text).1
      cases blank

end Variables

end ApprovedOps
