import ApprovedOps.Proofs.Document.Opened

/-! # Documents made of their parts

The comment, the variables and the operation that were cut out of a document make a document again,
one on top of the other, and this document is cut into the same parts. The comment may be any text
that stood in front of the first block; the line break behind it keeps its last lexeme apart from
what follows.
-/

namespace ApprovedOps

/-! ## Operations without a name -/

namespace GraphQL

/-- An operation that begins with its brace has no name. -/
theorem operation_bare {s s' : Stream} {o : Operation} (brace : s.current.kind = Reader.mark '{')
    (h : Reader.operation s = .ok (o, s')) : o.name = none := by
  obtain ⟨b, s₁, looked, h⟩ := bind_ok h
  rw [isAt_run, decide_eq_true brace] at looked
  cases looked
  obtain ⟨_, _, -, made⟩ := bind_ok h
  cases made
  rfl

end GraphQL

/-- Only operations that begin with a keyword are accepted. -/
theorem Canonical.ofText_keyword {q : Text} {c : Canonical} (accepted : ofText q = .ok c) :
    q.head? ≠ some (.char '{') := by
  intro bare
  obtain ⟨r, rfl⟩ : ∃ r, q = .char '{' :: r := by
    cases q with
    | nil => cases bare
    | cons d r => exact ⟨r, by rw [Option.some.inj bare]⟩
  have opening : Parts.IsOpening [.char '{'] r := .inl rfl
  rw [ofText] at accepted
  split at accepted
  next => cases accepted
  next d read =>
    obtain ⟨s, s₁, o, rest, lexed, operation, rfl, -⟩ :=
      GraphQL.ofText_operation ⟨_, r, rfl, opening⟩ read
    have scanned : GraphQL.Lexed.scan ([.char '{'] ++ r) =
        .token ⟨GraphQL.Reader.mark '{', 0, []⟩ :: GraphQL.Lexed.scanFrom 1 r := by
      rw [GraphQL.Lexed.scan, List.singleton_append, GraphQL.Lexed.scanFrom, if_neg (by decide), if_neg (by decide)]
      rfl
    rw [scanned] at lexed
    have current : s.current = ⟨GraphQL.Reader.mark '{', 0, []⟩ :=
      GraphQL.Lexed.token.inj (List.cons.inj lexed).1
    have first : (operations (.operation o :: rest)).head? = some o := rfl
    have unnamed := GraphQL.operation_bare (by rw [current]) operation
    simp only [first, unnamed] at accepted
    cases accepted

namespace Parts

open Lexeme

/-- A document made of a comment, variables and an operation. -/
def assemble (comment vars query : Text) : Text :=
  comment ++ .char '\n' ::
    ((if vars = [] then [] else Text.ofString "variables " ++ (vars ++ [.char '\n'])) ++ query)

/-! ## The lead again -/

/-- What is in front of the first block does not go on with what opens it. -/
theorem opener_breaks {l : Lexeme} {region : Region} (opens : Walk.opened? {} l = some region)
    (r : Text) : Breaks (l.text ++ r) := by
  obtain word | ⟨-, brace⟩ := Option.or_eq_some_iff.mp opens
  · unfold Region.openedBy? at word
    split at word
    · unfold Region.ofKeyword? at word
      repeat' split at word
      case' isFalse.isFalse.isFalse.isFalse.isFalse => cases word
      all_goals
        rename_i same
        rw [same]
        rintro c ⟨⟩
        decide
    · cases word
  · split at brace
    next mark =>
      have text : l.text = [.char '{'] := by
        simp only [isMark, Bool.and_eq_true, decide_eq_true_eq] at mark
        exact mark.2
      rw [text]
      rintro c ⟨⟩
      decide
    next => cases brace

/-- Does the walk over a text come to a place between blocks, with these parts complete there? -/
def Reaches (front rest : Text) (p : Parts) : Prop :=
  ∃ ls w, scan (front ++ rest) = (ls ++ (scanWith Piece.of front.length rest).1,
      (scanWith Piece.of front.length rest).2) ∧
    ls.foldlM (Walk.step (front ++ rest)) {} = .ok w ∧ w.Between ∧
    w.flush (front ++ rest) front.length = .ok p

/-- The comment of a document, with a line break behind it and another text after that, is walked
    over as it was in the document. -/
theorem lead_reaches {t u : Text} {lead : List Lexeme} {opener : Lexeme} (opens : Opens t lead opener)
    (quotes : tripleQuote <:+: u → tripleQuote <:+: t.drop opener.start) :
    Reaches (Text.trim (t.take opener.start) ++ [.char '\n']) u
      { comment := Text.trim (t.take opener.start) } := by
  obtain ⟨rest, scanned⟩ := opens.scanned
  obtain ⟨before, behind, place, position, -⟩ := scan_standsIn (k := 0) (s := t) (l := opener)
    (by rw [← scan, scanned]; simp)
  have offset : opener.start = before.length := by rw [position, Nat.zero_add]
  have taken : t.take opener.start = before := by
    rw [place, offset]
    exact List.take_left
  have dropped : t.drop opener.start = opener.text ++ behind := by
    rw [place, offset]
    exact List.drop_left
  rw [taken]
  rw [dropped] at quotes
  obtain ⟨region, opened⟩ := Option.ne_none_iff_exists'.mp opens.opens
  obtain ⟨first, top⟩ := opened?_first opened
  obtain ⟨blanks, blanks', split, blank, blank'⟩ := trim_split before
  have inside : (scanWith Piece.of blanks.length
      (before.trim ++ (blanks' ++ (opener.text ++ behind)))).1 = lead ++ opener :: rest := by
    have whole : t = blanks ++ (before.trim ++ (blanks' ++ (opener.text ++ behind))) := by
      rw [place]
      conv_lhs => rw [split]
      simp only [List.append_assoc]
    rw [← scanned, scan]
    conv_rhs => rw [whole, scan_blanks blank, Nat.zero_add]
  have start : opener.start = blanks.length + before.trim.length + blanks'.length := by
    rw [offset]
    conv_lhs => rw [split]
    simp only [List.length_append]
    omega
  obtain ⟨lead', alike, again⟩ := scan_lead (opener_breaks first behind) blank'
    (fun x d => trim_last) quotes start inside 0
  obtain ⟨quiet, ⟨-, depth, -⟩⟩ := @quiet_alike {} {} _ _ ⟨rfl, rfl, rfl⟩ alike
  obtain ⟨parts, inComment, begins⟩ := foldl_pass {} lead'
  refine ⟨lead', _, ?_, quiet_run _ (quiet.mp opens.quiet), ⟨depth.trans top, .inl inComment⟩, ?_⟩
  · rw [List.append_assoc, List.length_append, List.length_singleton]
    rw [Nat.zero_add] at again
    exact again
  · have cut : slice (before.trim ++ [.char '\n'] ++ u) 0
        (before.trim ++ [CodePoint.char '\n']).length = before.trim ++ [.char '\n'] := by
      rw [slice, List.drop_zero]
      exact List.take_left
    have value : Text.trim (before.trim ++ [.char '\n']) = before.trim :=
      (trim_before (by decide)).trans (trim_trim before)
    rw [Walk.flush, inComment, parts, begins]
    simp only [cut, value]

/-! ## The operation at the end -/

theorem alone_keyword {q : Text} {first : Lexeme} {inside : List Lexeme}
    (alone : Alone q .query first inside) (noBrace : q.head? ≠ some (.char '{')) :
    Region.openedBy? first = some .query := by
  obtain word | ⟨-, brace⟩ := Option.or_eq_some_iff.mp alone.opens
  · exact word
  · split at brace
    next mark =>
      obtain ⟨front, rest, place, start, -⟩ := scan_standsIn (k := 0) (s := q) (l := first)
        (by rw [← scan, alone.scanned]; exact List.mem_cons_self)
      have begins : front = [] := List.length_eq_zero_iff.mp (by have := alone.start; omega)
      have text : first.text = [.char '{'] := by
        simp only [isMark, Bool.and_eq_true, decide_eq_true_eq] at mark
        exact mark.2
      rw [place, begins, text] at noBrace
      exact absurd rfl noBrace
    next => cases brace

/-- A document that ends with an operation that stands alone has it as its operation. -/
theorem ofText_reaches {q front : Text} {first : Lexeme} {inside : List Lexeme} {p : Parts}
    (reaches : Reaches front q p) (alone : Alone q .query first inside)
    (keyword : Region.openedBy? first = some .query) (room : p.query = []) :
    ofText (front ++ q) = .ok { p with query := q } := by
  obtain ⟨ls, w, scanned, run, between, flush⟩ := reaches
  obtain ⟨w', run', complete, parts, region, start, close⟩ :=
    alone.run front (opened?_keyword between keyword) flush
  have walked : (scan (front ++ q)).1.foldlM (Walk.step (front ++ q)) {} = .ok w' := by
    rw [scanned, List.foldlM_append, run]
    exact run'
  have failure : (scan (front ++ q)).2 = none := by rw [scanned, complete]
  have value : slice (front ++ q) front.length (front.length + q.length) = q := by
    simpa using slice_middle front q []
  simp only [ofText, walked, failure, bind, Except.bind, Walk.flush, region, close, start, parts,
    value, alone.trimmed, room, if_true]

/-! ## Variables between -/

/-- Variables that are cleaned, or none. -/
def Clean (vars : Text) : Prop :=
  vars = [] ∨ ∃ inner, vars = .char '{' :: (inner ++ [closingBrace]) ∧ Variables.Tokens [] inner []

/-- Cleaned variables are those of the block that is made of them. -/
theorem add_object (inner comment : Text) :
    add { comment } (Variables.object inner) =
      { comment, vars := .char '{' :: (inner ++ [closingBrace]) } := by
  have trimmed : Text.trim (.char '{' :: (inner ++ [closingBrace])) =
      .char '{' :: (inner ++ [closingBrace]) :=
    trim_eq_self rfl (by decide) ⟨.char '{' :: inner, rfl⟩ (by decide)
  have value : (Variables.object inner).variables? = some (.char '{' :: (inner ++ [closingBrace])) := by
    rw [Variables.object, Block.variables?, ← List.singleton_append, trim_after (by decide), trimmed]
  simp only [add, value]
  rfl

theorem object_text (inner : Text) :
    (Variables.object inner).text =
      Text.ofString "variables " ++ .char '{' :: (inner ++ [closingBrace]) := rfl

/-- No block string begins in cleaned variables and ends behind them. -/
theorem object_quotes {inner q : Text} (tokens : Variables.Tokens [] inner [])
    (h : tripleQuote <:+: (Variables.object inner).text ++ .char '\n' :: q) : tripleQuote <:+: q := by
  have others : ∀ c ∈ Text.ofString "variables ", c ≠ .char '"' := by decide
  have behind : tripleQuote <:+: .char '{' :: (inner ++ closingBrace :: .char '\n' :: q) :=
    Variables.triple_append others (by simpa [object_text] using h)
  replace behind := Variables.triple_cons (by decide) behind
  obtain here | later := infix_tripleQuote_break (by decide) behind
  · exact absurd here (Variables.tokens_triple tokens)
  · exact Variables.triple_cons (by decide) later

/-- Behind a comment, a block of cleaned variables is walked over to its end. -/
theorem object_reaches {inner front q comment : Text} (tokens : Variables.Tokens [] inner [])
    (reaches : Reaches front ((Variables.object inner).text ++ .char '\n' :: q) { comment }) :
    Reaches (front ++ ((Variables.object inner).text ++ [.char '\n'])) q
      { comment, vars := .char '{' :: (inner ++ [closingBrace]) } := by
  have wf := Variables.object_wellFormed tokens
  obtain ⟨ls, w, scanned, run, between, flush⟩ := reaches
  obtain ⟨w', run', left⟩ := run_block wf between nofun flush
  have flush' := @left_flush _ _ _ front (.char '\n' :: q) left wf nofun
    (front ++ ((Variables.object inner).text ++ [CodePoint.char '\n'])).length
  have text : front ++ ((Variables.object inner).text ++ .char '\n' :: q) =
      (front ++ ((Variables.object inner).text ++ [.char '\n'])) ++ q := by simp
  have position : (front ++ ((Variables.object inner).text ++ [CodePoint.char '\n'])).length =
      front.length + (Variables.object inner).text.length + 1 := by
    simp only [List.length_append, List.length_singleton]
    omega
  rw [text] at run run' flush'
  rw [scan_block wf, scan_blank (by decide), ← position, text] at scanned
  rw [add_object] at flush'
  refine ⟨ls ++ (Variables.object inner).lexemes.map (shift front.length), w', ?_, ?_,
    ⟨left.depth, .inr left.afterBrace⟩, flush'⟩
  · rw [scanned, List.append_assoc]
  · rw [List.foldlM_append, run]
    exact run'

/-- The comment and the operation of a document, and variables that are cleaned, are the parts of the
    document that is made of them. -/
theorem ofText_assemble {t vars : Text} {p : Parts} {c : Canonical} (cut : ofText t = .ok p)
    (accepted : Canonical.ofText p.query = .ok c) (clean : Clean vars) :
    ofText (assemble p.comment vars p.query) =
      .ok { comment := p.comment, vars, query := p.query } := by
  have some_ := Canonical.ofText_ne_nil accepted
  obtain ⟨first, inside, alone⟩ := (ofText_alone cut).1.resolve_left some_
  have keyword := alone_keyword alone (Canonical.ofText_keyword accepted)
  obtain ⟨lead, opener, opens, comment, within, -⟩ := ofText_placed cut some_
  rw [comment]
  obtain rfl | ⟨inner, rfl, tokens⟩ := clean
  · have reaches := lead_reaches opens fun triple => triple.trans within
    rw [← ofText_reaches reaches alone keyword rfl]
    simp [assemble]
  · have reaches := lead_reaches opens fun triple => (object_quotes tokens triple).trans within
    rw [← ofText_reaches (object_reaches tokens reaches) alone keyword rfl]
    simp [assemble, object_text]

end Parts

end ApprovedOps
