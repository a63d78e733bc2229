import ApprovedOps.Proofs.Files.Path
import ApprovedOps.Proofs.GraphQL.Lexemes
import Mathlib.Data.List.TakeWhile

/-! # Lexemes of block strings

What a block string holds when it is read has no blank lines at its ends, and its lines share no
indentation. Such a content is the same when it is written out and read again, however far it is
indented, with one exception: a single line that begins with a blank and holds a line break of
another kind is put on a line of its own, and loses its indentation there.
-/

namespace ApprovedOps

namespace GraphQL

namespace BlockString

open Text (splitOn)

/-- Does the line begin with something else than a space or a tab? -/
def IsFlush (line : Text) : Prop :=
  ∃ c r, line = c :: r ∧ isSpace c = false

/-- Can the text be a line of a block string? -/
structure IsPlain (line : Text) : Prop where
  scalar : line.Scalar
  noReturn : .char '\r' ∉ line
  oneLine : .char '\n' ∉ line

/-- Can the content come from a block string? -/
structure IsContent (content : Text) : Prop where
  scalar : content.Scalar
  noReturn : .char '\r' ∉ content
  lines : ∃ ls, content = Text.join [.char '\n'] ls ∧ (∀ l ∈ ls, .char '\n' ∉ l) ∧
    (∀ l ∈ ls.head?, isBlankLine l = false) ∧ (∀ l ∈ ls.getLast?, isBlankLine l = false) ∧
    (ls.length ≤ 1 ∨ ∃ l ∈ ls, IsFlush l)

/-- Is the content the same when it is written out and read again? A single line with blanks in
    front must not hold other line breaks. -/
def IsSteady (content : Text) : Prop :=
  CodePoint.char '\n' ∉ content → content.head?.any isSpace = true → (lines content).length ≤ 1

/-! ## Lines -/

/-- The line with more indentation. -/
def pad (n : Nat) (line : Text) : Text :=
  List.replicate n (.char ' ') ++ line

theorem splitOn_newline (t : Text) : ∃ l ls, splitOn (.char '\n') t = l :: ls :=
  List.exists_cons_of_ne_nil (Text.splitOn_ne_nil _ t)

theorem splitOn_flat {s t l : Text} {ls : List Text} (flat : CodePoint.char '\n' ∉ s)
    (h : splitOn (.char '\n') t = l :: ls) : splitOn (.char '\n') (s ++ t) = (s ++ l) :: ls := by
  induction s with
  | nil => exact h
  | cons c s ih =>
      obtain ⟨other, later⟩ := not_or.mp fun h => flat (List.mem_cons.mpr h)
      rw [List.cons_append, splitOn, if_neg (Ne.symm other), ih later]
      rfl

theorem newline_notMem_spaces (n : Nat) :
    CodePoint.char '\n' ∉ List.replicate n (CodePoint.char ' ') :=
  fun among => absurd (List.eq_of_mem_replicate among) (by decide)

/-- Every line but the first one is indented. -/
theorem splitOn_shift {t l : Text} {ls : List Text} (n : Nat)
    (h : splitOn (.char '\n') t = l :: ls) :
    splitOn (.char '\n') (shift n t) = l :: ls.map (pad n) := by
  induction t generalizing l ls with
  | nil =>
      cases h
      rfl
  | cons c t ih =>
      obtain ⟨m, ms, text⟩ := splitOn_newline t
      rw [splitOn] at h
      rw [shift_cons]
      split at h
      next break_ =>
        rw [text] at h
        cases h
        rw [if_pos break_, List.cons_append, splitOn, if_pos break_,
          splitOn_flat (newline_notMem_spaces n) (ih text)]
        rfl
      next other =>
        rw [text] at h
        cases h
        rw [if_neg other, List.cons_append, splitOn, if_neg other, List.nil_append, ih text]

/-! ## Quotes -/

/-- Does the text end in front of closing quotes? -/
def Closed (t : Text) : Prop :=
  ∀ c ∈ t.getLast?, c ≠ .char '"' ∧ c ≠ .char '\\'

theorem closed_nil : Closed [] := by
  rintro c ⟨⟩

theorem Closed.tail {c : CodePoint} {t : Text} (h : Closed (c :: t)) : Closed t := by
  cases t with
  | nil => exact closed_nil
  | cons d t => exact h

/-- Something comes after a quote that closes nothing. -/
theorem Closed.exists_cons {t : Text} (h : Closed (.char '"' :: t)) : ∃ c r, t = c :: r := by
  refine List.exists_cons_of_ne_nil ?_
  rintro rfl
  exact (h _ rfl).1 rfl

theorem escapeQuotes_other {c : CodePoint} (t : Text) (other : c ≠ .char '"') :
    escapeQuotes (c :: t) = c :: escapeQuotes t := by
  rw [escapeQuotes, if_neg]
  simp [List.isPrefixOf, other.symm]

theorem escapeQuotes_triple (t : Text) :
    escapeQuotes (.char '"' :: .char '"' :: .char '"' :: t) =
      .char '\\' :: .char '"' :: .char '"' :: .char '"' :: escapeQuotes t := by
  have triple : [CodePoint.char '"', .char '"', .char '"'].isPrefixOf
      (.char '"' :: .char '"' :: .char '"' :: t) = true := by simp [List.isPrefixOf]
  rw [escapeQuotes, if_pos triple]
  rfl

theorem exists_triple {c : CodePoint} {t : Text}
    (h : [.char '"', .char '"', .char '"'].isPrefixOf (c :: t) = true) :
    ∃ r, c = .char '"' ∧ t = .char '"' :: .char '"' :: r := by
  obtain ⟨r, same⟩ := List.isPrefixOf_iff_prefix.mp h
  cases same
  exact ⟨r, rfl, rfl⟩

/-- Quotes that close nothing stay apart from three that close. -/
theorem escapeQuotes_open {t : Text} (some_ : t ≠ []) (closed : Closed t) (rest : Text) :
    Literal.tripleQuote.isPrefixOf (escapeQuotes t ++ rest) = false := by
  obtain ⟨c, t, rfl⟩ := List.exists_cons_of_ne_nil some_
  by_cases triple : [.char '"', .char '"', .char '"'].isPrefixOf (c :: t) = true
  · obtain ⟨r, rfl, rfl⟩ := exists_triple triple
    rw [escapeQuotes_triple]
    rfl
  · rw [escapeQuotes, if_neg triple]
    -- One or two quotes, with something else behind them.
    by_cases quote : c = .char '"'
    · subst quote
      obtain ⟨d, t, rfl⟩ := closed.exists_cons
      by_cases quote : d = .char '"'
      · subst quote
        obtain ⟨e, t, rfl⟩ := closed.tail.exists_cons
        have other : e ≠ .char '"' := by
          rintro rfl
          exact triple (by simp [List.isPrefixOf])
        have apart : ¬[CodePoint.char '"', .char '"', .char '"'].isPrefixOf
            (.char '"' :: e :: t) = true := by simp [List.isPrefixOf, other.symm]
        rw [escapeQuotes, if_neg apart, escapeQuotes_other t other]
        simp [Literal.tripleQuote, List.isPrefixOf, other.symm]
      · rw [escapeQuotes_other t quote]
        simp [Literal.tripleQuote, List.isPrefixOf, Ne.symm quote]
    · simp [Literal.tripleQuote, List.isPrefixOf, Ne.symm quote]

theorem blockLines_cons {c : CodePoint} {t l : Text} {ls : List Text} {n : Nat}
    (opens : Literal.tripleQuote.isPrefixOf (c :: t) = false)
    (noEscape : c = .char '\\' → Literal.tripleQuote.isPrefixOf t = false)
    (noReturn : c ≠ .char '\r') (scalar : c.isScalar = true)
    (tail : Literal.blockLines t = .ok (l, ls, n)) :
    Literal.blockLines (c :: t) =
      if c = .char '\n' then .ok ([], l :: ls, n + 1) else .ok (c :: l, ls, n + 1) := by
  have plain : ¬(c = .char '\\' ∧ Literal.tripleQuote.isPrefixOf t = true) := fun both =>
    Bool.eq_false_iff.mp (noEscape both.1) both.2
  rw [Literal.blockLines.eq_def]
  dsimp only
  rw [if_neg (Bool.eq_false_iff.mp opens), if_neg plain, if_neg fun both => noReturn both.1]
  by_cases break_ : c = .char '\n'
  · rw [if_pos break_, if_pos (by simp [Literal.isNewline, break_]), tail]
  · rw [if_neg break_, if_neg (by simp [Literal.isNewline, break_, noReturn]), tail]
    cases c with
    | char => rfl
    | surrogate => cases scalar

/-- The lines of a text, with its quotes escaped, are read up to the closing quotes. -/
theorem blockLines_escaped {t l : Text} {ls : List Text} (scalar : t.Scalar)
    (noReturn : .char '\r' ∉ t) (closed : Closed t) (h : splitOn (.char '\n') t = l :: ls)
    (rest : Text) : Literal.blockLines (escapeQuotes t ++ (Literal.tripleQuote ++ rest)) =
      .ok (l, ls, (escapeQuotes t).length + 3) := by
  induction t using escapeQuotes.induct generalizing l ls with
  | case1 =>
      cases h
      rw [escapeQuotes, List.nil_append, Literal.tripleQuote, List.cons_append, Literal.blockLines,
        if_pos (by simp [Literal.tripleQuote, List.isPrefixOf])]
      rfl
  | case2 c r triple ih =>
      -- Three quotes in the content stand behind a backslash and do not close it.
      obtain ⟨r, rfl, rfl⟩ := exists_triple triple
      obtain ⟨m, ms, text⟩ := splitOn_newline r
      rw [splitOn, if_neg (by decide), splitOn, if_neg (by decide), splitOn, if_neg (by decide),
        text] at h
      cases h
      simp only [List.drop_succ_cons, List.drop_zero] at ih
      have tail := ih (scalar.of_subset fun _ among => by simp [among])
        (fun among => noReturn (by simp [among])) closed.tail.tail.tail text
      rw [escapeQuotes_triple, List.cons_append, Literal.blockLines,
        if_neg (by simp [Literal.tripleQuote, List.isPrefixOf]),
        if_pos ⟨rfl, by simp [Literal.tripleQuote, List.isPrefixOf]⟩]
      simp only [List.cons_append, List.drop_succ_cons, List.drop_zero, tail]
      rfl
  | case3 c r triple ih =>
      obtain ⟨m, ms, text⟩ := splitOn_newline r
      have tail := ih (Text.scalar_cons.mp scalar).2
        (fun among => noReturn (List.mem_cons_of_mem c among)) closed.tail text
      have opens := escapeQuotes_open (List.cons_ne_nil c r) closed (Literal.tripleQuote ++ rest)
      have noEscape : c = .char '\\' → Literal.tripleQuote.isPrefixOf
          (escapeQuotes r ++ (Literal.tripleQuote ++ rest)) = false := by
        rintro rfl
        refine escapeQuotes_open ?_ closed.tail _
        rintro rfl
        exact (closed _ rfl).2 rfl
      rw [escapeQuotes, if_neg triple, List.cons_append] at opens ⊢
      rw [blockLines_cons opens noEscape (fun same => noReturn (same ▸ List.mem_cons_self))
        (Text.scalar_cons.mp scalar).1 tail]
      rw [splitOn, text] at h
      split at h
      next break_ =>
        cases h
        rw [if_pos break_]
        rfl
      next other =>
        cases h
        rw [if_neg other]
        rfl

/-! ## Shifted contents -/

theorem escapeQuotes_newline (t : Text) :
    escapeQuotes (.char '\n' :: t) = .char '\n' :: escapeQuotes t :=
  escapeQuotes_other t (by decide)

theorem escapeQuotes_append_newline (t : Text) :
    escapeQuotes (t ++ [.char '\n']) = escapeQuotes t ++ [.char '\n'] := by
  induction t using escapeQuotes.induct with
  | case1 =>
      rw [List.nil_append, escapeQuotes_newline, escapeQuotes]
      rfl
  | case2 c r triple ih =>
      obtain ⟨r, rfl, rfl⟩ := exists_triple triple
      simp only [List.drop_succ_cons, List.drop_zero] at ih
      simp only [List.cons_append, escapeQuotes_triple, ih]
  | case3 c r triple ih =>
      have apart : ¬[CodePoint.char '"', .char '"', .char '"'].isPrefixOf
          (c :: (r ++ [.char '\n'])) = true := by
        intro longer
        obtain ⟨s, rfl, text⟩ := exists_triple longer
        cases r with
        | nil => cases text
        | cons d r =>
            cases r with
            | nil => cases text
            | cons e r =>
                cases text
                exact triple (by simp [List.isPrefixOf])
      rw [List.cons_append, escapeQuotes, if_neg apart, ih, escapeQuotes, if_neg triple]
      rfl

theorem shift_quote {n : Nat} {t s : Text} (h : shift n t = .char '"' :: s) :
    ∃ r, t = .char '"' :: r ∧ shift n r = s := by
  cases t with
  | nil => cases h
  | cons c t =>
      rw [shift_cons] at h
      split at h
      next break_ =>
        rw [break_] at h
        cases h
      next =>
        cases h
        exact ⟨t, rfl, rfl⟩

theorem escapeQuotes_spaces (n : Nat) (t : Text) :
    escapeQuotes (List.replicate n (.char ' ') ++ t) =
      List.replicate n (.char ' ') ++ escapeQuotes t := by
  induction n with
  | zero => rfl
  | succ n ih =>
      rw [List.replicate_succ, List.cons_append, escapeQuotes_other _ (by decide), ih]
      rfl

theorem escapeQuotes_shift (n : Nat) (t : Text) :
    escapeQuotes (shift n t) = shift n (escapeQuotes t) := by
  induction t using escapeQuotes.induct with
  | case1 =>
      rw [escapeQuotes, shift_nil, escapeQuotes]
  | case2 c r triple ih =>
      obtain ⟨r, rfl, rfl⟩ := exists_triple triple
      simp only [List.drop_succ_cons, List.drop_zero] at ih
      have quote (t : Text) : shift n (.char '"' :: t) = .char '"' :: shift n t := rfl
      have slash (t : Text) : shift n (.char '\\' :: t) = .char '\\' :: shift n t := rfl
      simp only [quote, escapeQuotes_triple, slash, ih]
  | case3 c r triple ih =>
      rw [escapeQuotes, if_neg triple, shift_cons, shift_cons]
      by_cases break_ : c = .char '\n'
      · rw [if_pos break_, List.cons_append, List.cons_append,
          escapeQuotes_other _ (by rw [break_]; decide), escapeQuotes_spaces, ih]
      · rw [if_neg break_]
        have apart : ¬[CodePoint.char '"', .char '"', .char '"'].isPrefixOf
            (c :: shift n r) = true := by
          intro longer
          obtain ⟨s, rfl, text⟩ := exists_triple longer
          obtain ⟨r₁, rfl, text₁⟩ := shift_quote text
          obtain ⟨r₂, rfl, -⟩ := shift_quote text₁
          exact triple (by simp [List.isPrefixOf])
        rw [List.singleton_append, escapeQuotes, if_neg apart, ih]
        rfl

/-! ## Indentation -/

theorem isBlankLine_pad (n : Nat) (l : Text) :
    isBlankLine (pad n l) = isBlankLine l := by
  have spaces : isBlankLine (List.replicate n (.char ' ')) = true := by
    refine List.all_eq_true.mpr fun c among => ?_
    rw [List.eq_of_mem_replicate among]
    rfl
  rw [isBlankLine] at spaces
  rw [isBlankLine, pad, List.all_append, spaces, Bool.true_and]
  rfl

theorem indentation_pad (n : Nat) (l : Text) :
    indentation (pad n l) = n + indentation l := by
  have spaces : ∀ c ∈ List.replicate n (CodePoint.char ' '), isSpace c = true := by
    intro c among
    rw [List.eq_of_mem_replicate among]
    rfl
  rw [indentation, pad, List.takeWhile_append_of_pos spaces, List.length_append,
    List.length_replicate]
  rfl

theorem sharedIndentation_eq {ls : List Text} {n : Nat}
    (least : ∃ l ∈ ls, isBlankLine l = false ∧ indentation l = n)
    (all : ∀ l ∈ ls, isBlankLine l = false → n ≤ indentation l) : sharedIndentation ls = some n := by
  rw [sharedIndentation, List.min?_eq_some_iff]
  obtain ⟨l, among, solid, same⟩ := least
  refine ⟨List.mem_map.mpr ⟨l, List.mem_filter.mpr ⟨among, by simp [solid]⟩, same⟩, ?_⟩
  refine List.forall_mem_map.mpr fun l among => ?_
  obtain ⟨among, solid⟩ := List.mem_filter.mp among
  exact all l among (by simpa using solid)

theorem sharedIndentation_none {ls : List Text} (blank : ∀ l ∈ ls, isBlankLine l = true) :
    sharedIndentation ls = none := by
  rw [sharedIndentation, List.filter_eq_nil_iff.mpr fun l among => by simp [blank l among]]
  rfl

theorem isFlush_solid {l : Text} (flush : IsFlush l) : isBlankLine l = false ∧ indentation l = 0 := by
  obtain ⟨c, r, rfl, other⟩ := flush
  constructor
  · simp [isBlankLine, other]
  · simp [indentation, other]

/-! ## Blank lines at the ends -/

/-- Lines, each beside its dedented form, without the blank ones at both ends. -/
def solidLines (pairs : List (Text × Text)) : List (Text × Text) :=
  ((pairs.dropWhile (isBlankLine ·.1)).reverse.dropWhile (isBlankLine ·.1)).reverse

theorem dropWhile_front {α : Type} {p : α → Bool} {front rest : List α}
    (before : ∀ x ∈ front, p x = true) (first : ∀ x ∈ rest.head?, p x = false) :
    (front ++ rest).dropWhile p = rest := by
  rw [List.dropWhile_append_of_pos before]
  cases rest with
  | nil => rfl
  | cons x rest => rw [List.dropWhile_cons, first x rfl]; rfl

theorem solidLines_eq (front middle back : List (Text × Text))
    (before : ∀ x ∈ front, isBlankLine x.1 = true) (after : ∀ x ∈ back, isBlankLine x.1 = true)
    (some_ : middle ≠ []) (first : ∀ x ∈ middle.head?, isBlankLine x.1 = false)
    (last : ∀ x ∈ middle.getLast?, isBlankLine x.1 = false) :
    solidLines (front ++ (middle ++ back)) = middle := by
  have start : ∀ x ∈ (middle ++ back).head?, isBlankLine x.1 = false := by
    obtain ⟨y, ys, rfl⟩ := List.exists_cons_of_ne_nil some_
    exact first
  rw [solidLines, dropWhile_front before start, List.reverse_append,
    dropWhile_front (fun x among => after x (List.mem_reverse.mp among))
      (by rw [List.head?_reverse]; exact last), List.reverse_reverse]

theorem solidLines_blank {pairs : List (Text × Text)} (blank : ∀ x ∈ pairs, isBlankLine x.1 = true) :
    solidLines pairs = [] := by
  rw [solidLines, List.dropWhile_eq_nil_iff.mpr blank]
  rfl

theorem dedent_cons (first : Text) (rest : List Text) :
    dedent (first :: rest) = (solidLines ((first, first) ::
      rest.map fun l => (l, l.drop ((sharedIndentation rest).getD 0)))).map (·.2) := by
  have pairs (f : Text → Text) : rest.zip (rest.map f) = rest.map fun l => (l, f l) := by
    have same := List.zip_map' (f := id) (g := f) (l := rest)
    rwa [List.map_id] at same
  rw [dedent, solidLines]
  cases sharedIndentation rest with
  | none =>
      have same := pairs id
      rw [List.map_id] at same
      simp only [List.zip_cons_cons, same, Option.getD_none, List.drop_zero]
      rfl
  | some n =>
      simp only [List.zip_cons_cons, pairs, Option.getD_some]

/-- Lines on their own between the quotes come back, whatever the indentation. -/
theorem dedent_padded {ls : List Text} (n : Nat) (first : ∀ l ∈ ls.head?, isBlankLine l = false)
    (last : ∀ l ∈ ls.getLast?, isBlankLine l = false) (flush : ∃ l ∈ ls, IsFlush l) :
    dedent ([] :: (ls ++ [[]]).map (pad n)) = ls := by
  obtain ⟨l, among, flush⟩ := flush
  have shared : sharedIndentation ((ls ++ [[]]).map (pad n)) = some n := by
    refine sharedIndentation_eq ⟨pad n l, ?_, ?_, ?_⟩ ?_
    · exact List.mem_map_of_mem (List.mem_append_left _ among)
    · rw [isBlankLine_pad, (isFlush_solid flush).1]
    · rw [indentation_pad, (isFlush_solid flush).2]
      rfl
    · refine List.forall_mem_map.mpr fun l _ _ => ?_
      rw [indentation_pad]
      exact Nat.le_add_right _ _
  have kept := solidLines_eq [([], [])] (ls.map fun l => (pad n l, l)) [(pad n [], [])]
    (by simp [isBlankLine]) (List.forall_mem_singleton.mpr (isBlankLine_pad n []))
    (by simpa using List.ne_nil_of_mem among)
    (by simpa [List.head?_map, isBlankLine_pad] using first)
    (by simpa [List.getLast?_map, isBlankLine_pad] using last)
  have dropped : ((ls ++ [[]]).map (pad n)).map (fun l => (l, l.drop n)) =
      ls.map (fun l => (pad n l, l)) ++ [(pad n [], [])] := by
    simp [pad]
  rw [dedent_cons, shared, Option.getD_some, dropped]
  exact (congrArg _ kept).trans (List.map_map.trans (List.map_id' ls))

/-- A single line between the quotes comes back, and so it does with a line break after it. -/
theorem dedent_single {l : Text} (solid : isBlankLine l = false) {after : List Text}
    (blank : ∀ m ∈ after, isBlankLine m = true) : dedent (l :: after) = [l] := by
  have kept := solidLines_eq [] [(l, l)] (after.map fun m => (m, m)) (List.forall_mem_nil _)
    (List.forall_mem_map.mpr blank) (List.cons_ne_nil _ _) (by simpa using solid)
    (by simpa using solid)
  rw [dedent_cons, sharedIndentation_none blank]
  simp only [Option.getD_none, List.drop_zero]
  exact congrArg _ kept

/-! ## What is read -/

theorem solidLines_subset (pairs : List (Text × Text)) : solidLines pairs ⊆ pairs := by
  intro x among
  have inner := (List.dropWhile_sublist _).subset (List.mem_reverse.mp among)
  exact (List.dropWhile_sublist _).subset (List.mem_reverse.mp inner)

theorem mem_dropWhile {α : Type} {p : α → Bool} {xs : List α} {x : α} (among : x ∈ xs)
    (stays : p x = false) : x ∈ xs.dropWhile p := by
  rw [← List.takeWhile_append_dropWhile (p := p) (l := xs)] at among
  refine (List.mem_append.mp among).resolve_left fun gone => ?_
  exact Bool.false_ne_true (stays.symm.trans (List.mem_takeWhile_imp gone))

theorem mem_solidLines {pairs : List (Text × Text)} {x : Text × Text} (among : x ∈ pairs)
    (solid : isBlankLine x.1 = false) : x ∈ solidLines pairs :=
  List.mem_reverse.mpr (mem_dropWhile (List.mem_reverse.mpr (mem_dropWhile among solid)) solid)

theorem dropWhile_head {α : Type} (p : α → Bool) (xs : List α) :
    ∀ x ∈ (xs.dropWhile p).head?, p x = false := by
  have here := List.head?_dropWhile_not p xs
  intro x first
  rw [first] at here
  exact here

theorem solidLines_last (pairs : List (Text × Text)) :
    ∀ x ∈ (solidLines pairs).getLast?, isBlankLine x.1 = false := by
  rw [solidLines, List.getLast?_reverse]
  exact dropWhile_head (fun x : Text × Text => isBlankLine x.1) _

theorem solidLines_head (pairs : List (Text × Text)) :
    ∀ x ∈ (solidLines pairs).head?, isBlankLine x.1 = false := by
  intro x first
  refine dropWhile_head (fun x : Text × Text => isBlankLine x.1) pairs x ?_
  obtain ⟨back, same⟩ : ∃ back, solidLines pairs ++ back = pairs.dropWhile (isBlankLine ·.1) := by
    refine ⟨((pairs.dropWhile (isBlankLine ·.1)).reverse.takeWhile (isBlankLine ·.1)).reverse, ?_⟩
    rw [solidLines, ← List.reverse_append, List.takeWhile_append_dropWhile, List.reverse_reverse]
  rw [← same, List.head?_append, first]
  rfl

theorem drop_indentation (l : Text) : l.drop (indentation l) = l.dropWhile isSpace := by
  have parts : (l.takeWhile isSpace ++ l.dropWhile isSpace).drop (indentation l) =
      l.dropWhile isSpace := List.drop_left
  rwa [List.takeWhile_append_dropWhile] at parts

theorem isFlush_drop {l : Text} (solid : isBlankLine l = false) :
    IsFlush (l.drop (indentation l)) := by
  rw [drop_indentation]
  cases h : l.dropWhile isSpace with
  | nil =>
      rw [List.dropWhile_eq_nil_iff] at h
      exact absurd (List.all_eq_true.mpr h) (Bool.eq_false_iff.mp solid)
  | cons c r => exact ⟨c, r, rfl, dropWhile_head isSpace l c (by rw [h]; rfl)⟩

theorem isBlankLine_drop {l : Text} {n : Nat} (solid : isBlankLine l = false)
    (short : n ≤ indentation l) : isBlankLine (l.drop n) = false := by
  obtain ⟨c, r, flush, other⟩ := isFlush_drop solid
  have sub : c ∈ l.drop n := by
    have later : c ∈ l.drop (indentation l) := by
      rw [flush]
      exact List.mem_cons_self
    exact (List.drop_sublist_drop_left l short).subset later
  exact Bool.eq_false_iff.mpr fun blank =>
    Bool.eq_false_iff.mp other (List.all_eq_true.mp blank c sub)

theorem shared_le {ls : List Text} {l : Text} (among : l ∈ ls) (solid : isBlankLine l = false) :
    (sharedIndentation ls).getD 0 ≤ indentation l := by
  cases h : sharedIndentation ls with
  | none => exact Nat.zero_le _
  | some n =>
      rw [sharedIndentation, List.min?_eq_some_iff] at h
      refine h.2 _ (List.mem_map_of_mem (List.mem_filter.mpr ⟨among, ?_⟩))
      rw [solid]
      rfl

theorem shared_reached {ls : List Text} {l : Text} (among : l ∈ ls) (solid : isBlankLine l = false) :
    ∃ m ∈ ls, isBlankLine m = false ∧ IsFlush (m.drop ((sharedIndentation ls).getD 0)) := by
  have counted : indentation l ∈ (ls.filter (!isBlankLine ·)).map indentation := by
    refine List.mem_map_of_mem (List.mem_filter.mpr ⟨among, ?_⟩)
    rw [solid]
    rfl
  obtain ⟨n, least⟩ : ∃ n, sharedIndentation ls = some n := by
    cases h : sharedIndentation ls with
    | none =>
        rw [sharedIndentation, List.min?_eq_none_iff] at h
        rw [h] at counted
        cases counted
    | some n => exact ⟨n, rfl⟩
  have reached := least
  rw [sharedIndentation, List.min?_eq_some_iff] at reached
  obtain ⟨m, among, rfl⟩ := List.mem_map.mp reached.1
  obtain ⟨among, solid⟩ := List.mem_filter.mp among
  have solid : isBlankLine m = false := by simpa using solid
  rw [least]
  exact ⟨m, among, solid, isFlush_drop solid⟩

/-- Each pair that is kept of lines beside their dedented forms. -/
theorem dedented_pair {first : Text} {rest : List Text} {x : Text × Text}
    (among : x ∈ (first, first) :: rest.map fun l => (l, l.drop ((sharedIndentation rest).getD 0))) :
    x.1 ∈ first :: rest ∧ x.2 ⊆ x.1 ∧ (isBlankLine x.1 = false → isBlankLine x.2 = false) := by
  obtain rfl | among := List.mem_cons.mp among
  · exact ⟨List.mem_cons_self, List.Subset.refl _, id⟩
  · obtain ⟨l, inside, rfl⟩ := List.mem_map.mp among
    exact ⟨List.mem_cons_of_mem _ inside, List.drop_subset _ _,
      fun solid => isBlankLine_drop solid (shared_le inside solid)⟩

theorem IsPlain.of_subset {s t : Text} (h : IsPlain t) (sub : s ⊆ t) : IsPlain s :=
  ⟨h.scalar.of_subset sub, fun among => h.noReturn (sub among), fun among => h.oneLine (sub among)⟩

theorem isPlain_nil : IsPlain [] :=
  ⟨Text.scalar_nil, List.not_mem_nil, List.not_mem_nil⟩

theorem isPlain_append {s t : Text} (first : IsPlain s) (second : IsPlain t) : IsPlain (s ++ t) :=
  ⟨Text.scalar_append.mpr ⟨first.scalar, second.scalar⟩,
    fun among => (List.mem_append.mp among).elim first.noReturn second.noReturn,
    fun among => (List.mem_append.mp among).elim first.oneLine second.oneLine⟩

/-- What is left of lines without their indentation can be the content of a block string. -/
theorem isContent_dedent {first : Text} {rest : List Text}
    (plain : ∀ l ∈ first :: rest, IsPlain l) :
    IsContent (Text.join [.char '\n'] (dedent (first :: rest))) := by
  have kept : ∀ l ∈ dedent (first :: rest), IsPlain l := by
    rw [dedent_cons]
    refine List.forall_mem_map.mpr fun x among => ?_
    obtain ⟨raw, sub, -⟩ := dedented_pair (solidLines_subset _ among)
    exact (plain x.1 raw).of_subset sub
  refine ⟨Text.scalar_join (by simp) fun l among => (kept l among).scalar, ?_, _, rfl,
    fun l among => (kept l among).oneLine, ?_, ?_, ?_⟩
  · intro among
    obtain newline | ⟨l, inside, here⟩ := Text.mem_join among
    · cases List.mem_singleton.mp newline
    · exact (kept l inside).noReturn here
  · rw [dedent_cons, List.head?_map]
    rintro l front
    obtain ⟨x, among, rfl⟩ := Option.map_eq_some_iff.mp front
    exact (dedented_pair (solidLines_subset _ (List.mem_of_mem_head? among))).2.2
      (solidLines_head _ x among)
  · rw [dedent_cons, List.getLast?_map]
    rintro l back
    obtain ⟨x, among, rfl⟩ := Option.map_eq_some_iff.mp back
    exact (dedented_pair (solidLines_subset _ (List.mem_of_mem_getLast? among))).2.2
      (solidLines_last _ x among)
  · by_cases blank : ∀ l ∈ rest, isBlankLine l = true
    · left
      by_cases solid : isBlankLine first = false
      · rw [dedent_single solid blank]
        exact Nat.le_refl 1
      · rw [dedent_cons, solidLines_blank (List.forall_mem_cons.mpr
          ⟨Bool.not_eq_false _ ▸ solid, List.forall_mem_map.mpr blank⟩)]
        exact Nat.zero_le 1
    · right
      obtain ⟨l, among, solid⟩ : ∃ l ∈ rest, isBlankLine l = false := by simpa using blank
      obtain ⟨m, among, solid, flush⟩ := shared_reached among solid
      rw [dedent_cons]
      exact ⟨_, List.mem_map_of_mem (mem_solidLines
        (List.mem_cons_of_mem _ (List.mem_map_of_mem among)) solid), flush⟩

theorem blockLines_ok {s first : Text} {rest : List Text} {n : Nat}
    (h : Literal.blockLines s = .ok (first, rest, n)) : ∀ l ∈ first :: rest, IsPlain l := by
  fun_induction Literal.blockLines s generalizing first rest n with
  | case1 => cases h
  | case2 =>
      cases h
      exact List.forall_mem_singleton.mpr isPlain_nil
  | case3 c r _ _ l ls m read ih =>
      cases h
      obtain ⟨here, later⟩ := List.forall_mem_cons.mp (ih read)
      have quotes : IsPlain Literal.tripleQuote :=
        ⟨by simp [Literal.tripleQuote], by decide, by decide⟩
      exact List.forall_mem_cons.mpr ⟨isPlain_append quotes here, later⟩
  | case5 c r _ _ _ l ls m read ih | case7 c r _ _ _ _ l ls m read ih =>
      cases h
      exact List.forall_mem_cons.mpr ⟨isPlain_nil, ih read⟩
  | case10 r c l ls m read _ _ _ noBreak ih =>
      cases h
      obtain ⟨here, later⟩ := List.forall_mem_cons.mp (ih read)
      have other (d : CodePoint) (newline : Literal.isNewline d = true) : d ∉ [CodePoint.char c] :=
        fun among => noBreak (List.mem_singleton.mp among ▸ newline)
      have letter : IsPlain [.char c] := ⟨by simp, other _ (by decide), other _ (by decide)⟩
      exact List.forall_mem_cons.mpr ⟨isPlain_append letter here, later⟩
  | case4 | case6 | case8 | case9 | case11 => cases h

/-- What a block string stands for can be its content. -/
theorem blockString_ok {s content : Text} {n : Nat} (h : Literal.blockString s = .ok (content, n)) :
    IsContent content := by
  rw [Literal.blockString] at h
  split at h
  next first rest m read =>
    cases h
    exact isContent_dedent (blockLines_ok read)
  next => cases h

/-! ## What is written -/

/-- A content between triple quotes, with something after the opening and before the closing ones. -/
def quoted (before content after : Text) : Text :=
  Literal.tripleQuote ++ before ++ escapeQuotes content ++ after ++ Literal.tripleQuote

/-- Are these the line breaks that a content is written with, after the opening quotes and before
    the closing ones? -/
inductive Framed (content : Text) : Text → Text → Prop where
  | inline (single : .char '\n' ∉ content) (solid : content = [] ∨ isBlankLine content = false)
    (closed : Closed content) : Framed content [] []
  | below (single : .char '\n' ∉ content) (solid : isBlankLine content = false) :
    Framed content [] [.char '\n']
  | apart {ls : List Text} (text : Text.join [.char '\n'] ls = content)
    (plain : ∀ l ∈ ls, .char '\n' ∉ l) (first : ∀ l ∈ ls.head?, isBlankLine l = false)
    (last : ∀ l ∈ ls.getLast?, isBlankLine l = false) (flush : ∃ l ∈ ls, IsFlush l) :
    Framed content [.char '\n'] [.char '\n']

theorem mem_shift {n : Nat} {t : Text} {p : CodePoint} (among : p ∈ shift n t) :
    p ∈ t ∨ p = .char ' ' := by
  obtain ⟨q, inside, here⟩ := List.mem_flatMap.mp among
  split at here
  next =>
    obtain rfl | space := List.mem_cons.mp here
    · exact .inl inside
    · exact .inr (List.eq_of_mem_replicate space)
  next =>
    obtain rfl := List.mem_singleton.mp here
    exact .inl inside

theorem closed_append {s t : Text} (some_ : t ≠ [])
    (h : ∀ c ∈ t, c ≠ .char '"' ∧ c ≠ .char '\\') : Closed (s ++ t) := by
  intro c last
  rw [List.getLast?_append] at last
  cases back : t.getLast? with
  | none => exact absurd (List.getLast?_eq_none_iff.mp back) some_
  | some d =>
      rw [back] at last
      cases last
      exact h c (List.mem_of_getLast? back)

theorem closed_shift (n : Nat) (t : Text) : Closed (shift n (t ++ [.char '\n'])) := by
  rw [shift_append]
  refine closed_append (List.cons_ne_nil _ _) fun c among => ?_
  obtain newline | rfl := mem_shift among
  · rw [List.mem_singleton.mp newline]
    decide
  · decide

namespace Framed

variable {content before after : Text}

theorem closed (h : Framed content before after) (n : Nat) :
    Closed (shift n (before ++ content ++ after)) := by
  cases h with
  | inline single _ closed =>
      rw [List.nil_append, List.append_nil, shift_flat single]
      exact closed
  | below => exact closed_shift n _
  | apart => exact closed_shift n _

/-- The lines of a framed content stand for the content. -/
theorem dedent_lines (h : Framed content before after) (n : Nat) :
    Text.join [.char '\n'] (dedent (splitOn (.char '\n') (shift n (before ++ content ++ after)))) =
      content := by
  cases h with
  | inline single solid _ =>
      rw [List.nil_append, List.append_nil, shift_flat single, Text.splitOn_single single]
      obtain rfl | solid := solid
      · rfl
      · rw [dedent_single solid (List.forall_mem_nil _)]
        rfl
  | below single solid =>
      have two : splitOn (.char '\n') (content ++ [.char '\n']) = [content, []] := by
        rw [Text.splitOn_append, Text.splitOn_single single]
        rfl
      rw [List.nil_append, splitOn_shift n two, List.map_singleton,
        dedent_single solid (List.forall_mem_singleton.mpr (isBlankLine_pad n []))]
      rfl
  | @apart ls text plain first last flush =>
      obtain ⟨l, among, -⟩ := id flush
      have split_ : splitOn (.char '\n') (.char '\n' :: (content ++ [.char '\n'])) =
          [] :: (ls ++ [[]]) := by
        rw [splitOn, if_pos rfl, Text.splitOn_append, ← text,
          Text.splitOn_join (List.ne_nil_of_mem among) plain]
        rfl
      rw [List.append_assoc, List.singleton_append, splitOn_shift n split_,
        dedent_padded n first last flush, text]

theorem escaped (h : Framed content before after) :
    escapeQuotes (before ++ content ++ after) = before ++ escapeQuotes content ++ after := by
  cases h with
  | inline => rw [List.nil_append, List.append_nil, List.nil_append, List.append_nil]
  | below => rw [List.nil_append, escapeQuotes_append_newline, List.nil_append]
  | apart =>
      rw [List.append_assoc, List.singleton_append, escapeQuotes_newline,
        escapeQuotes_append_newline]
      rfl

theorem frame (h : Framed content before after) (p : CodePoint)
    (among : p ∈ before ++ content ++ after) : p ∈ content ∨ p = .char '\n' := by
  cases h with
  | inline => exact .inl (by simpa using among)
  | below => simpa using among
  | apart => simpa [or_comm, or_left_comm] using among

/-- The text of a framed content stands for the content, however far it is indented. -/
theorem read (h : Framed content before after) (scalar : content.Scalar)
    (noReturn : .char '\r' ∉ content) (n : Nat) (rest : Text) :
    Literal.blockString (escapeQuotes (shift n (before ++ content ++ after)) ++
      (Literal.tripleQuote ++ rest)) =
      .ok (content, (escapeQuotes (shift n (before ++ content ++ after))).length + 3) := by
  obtain ⟨l, ls, lines⟩ := splitOn_newline (shift n (before ++ content ++ after))
  have all {p : CodePoint} (among : p ∈ shift n (before ++ content ++ after)) :
      p ∈ content ∨ p = .char '\n' ∨ p = .char ' ' := by
    obtain inside | space := mem_shift among
    · exact (h.frame p inside).imp_right .inl
    · exact .inr (.inr space)
  have scalars : Text.Scalar (shift n (before ++ content ++ after)) := by
    intro p among
    obtain inside | rfl | rfl := all among
    · exact scalar p inside
    · rfl
    · rfl
  have noReturns : .char '\r' ∉ shift n (before ++ content ++ after) := by
    intro among
    obtain inside | same | same := all among
    · exact noReturn inside
    · cases same
    · cases same
  rw [Literal.blockString, blockLines_escaped scalars noReturns (h.closed n) lines]
  dsimp only
  rw [← lines, h.dedent_lines n]

theorem lexes (h : Framed content before after) (scalar : content.Scalar)
    (noReturn : .char '\r' ∉ content) (n : Nat) :
    Lexes (shift n (quoted before content after)) (.string true content) := by
  have quotes : shift n Literal.tripleQuote = Literal.tripleQuote := rfl
  have text : shift n (quoted before content after) = Literal.tripleQuote ++
      (escapeQuotes (shift n (before ++ content ++ after)) ++ Literal.tripleQuote) := by
    rw [quoted, escapeQuotes_shift, h.escaped]
    simp only [shift_append, quotes, List.append_assoc]
  have read := h.read scalar noReturn n
  rw [text]
  generalize escapeQuotes (shift n (before ++ content ++ after)) = body at read
  refine lexes_of_tokenAt (by decide) (by decide) fun rest _ => ?_
  change Lexed.tokenAt (.char '"')
    (.char '"' :: .char '"' :: ((body ++ Literal.tripleQuote) ++ rest)) = _
  have opens : Text.startsWith (.char '"' :: .char '"' :: ((body ++ Literal.tripleQuote) ++ rest))
      [.char '"', .char '"'] = true := rfl
  rw [Lexed.tokenAt, if_pos rfl, if_pos opens, List.drop_succ_cons, List.drop_succ_cons,
    List.drop_zero, List.append_assoc, read rest]
  simp [Literal.after, Word.string, Literal.tripleQuote, bind, Except.bind, pure, Except.pure]

end Framed

/-! ## Lines for the purpose of layout -/

theorem lines_plain {c : CodePoint} {t : Text} (noBreak : c.isLineBreak = false) :
    (lines (c :: t)).length = max 1 (lines t).length := by
  rw [lines, if_neg (Bool.eq_false_iff.mp noBreak)]
  cases lines t with
  | nil => rfl
  | cons l ls => exact (Nat.max_eq_right (Nat.le_add_left 1 _)).symm

theorem lines_break {c : CodePoint} {t : Text} (break_ : c.isLineBreak = true)
    (noReturn : c ≠ .char '\r') : (lines (c :: t)).length = (lines t).length + 1 := by
  rw [lines, if_pos break_, if_neg fun both => noReturn both.1]
  rfl

theorem length_lines_cons {c : CodePoint} {s t : Text} (noReturn : c ≠ .char '\r')
    (same : (lines s).length = (lines t).length) :
    (lines (c :: s)).length = (lines (c :: t)).length := by
  by_cases break_ : c.isLineBreak = true
  · rw [lines_break break_ noReturn, lines_break break_ noReturn, same]
  · have noBreak := Bool.eq_false_iff.mpr break_
    rw [lines_plain noBreak, lines_plain noBreak, same]

/-- Escaping quotes adds no lines. -/
theorem length_lines_escaped {t : Text} (noReturn : .char '\r' ∉ t) :
    (lines (escapeQuotes t)).length = (lines t).length := by
  induction t using escapeQuotes.induct with
  | case1 => rw [escapeQuotes]
  | case2 c r triple ih =>
      obtain ⟨r, rfl, rfl⟩ := exists_triple triple
      simp only [List.drop_succ_cons, List.drop_zero] at ih
      have slash (t : Text) : (lines (.char '\\' :: .char '"' :: t)).length =
          (lines (.char '"' :: t)).length := by
        rw [lines_plain (c := .char '\\') (by decide), lines_plain (c := .char '"') (by decide)]
        omega
      rw [escapeQuotes_triple, slash]
      have rest := ih fun among => noReturn (by simp [among])
      exact length_lines_cons (by decide)
        (length_lines_cons (by decide) (length_lines_cons (by decide) rest))
  | case3 c r triple ih =>
      rw [escapeQuotes, if_neg triple]
      exact length_lines_cons (fun same => noReturn (same ▸ List.mem_cons_self))
        (ih fun among => noReturn (List.mem_cons_of_mem c among))

theorem two_le_lines {t : Text} (noReturn : .char '\r' ∉ t) (several : .char '\n' ∈ t)
    (last : t.getLast? ≠ some (.char '\n')) : 2 ≤ (lines t).length := by
  induction t with
  | nil => cases several
  | cons c r ih =>
      obtain ⟨other, later⟩ := not_or.mp fun h => noReturn (List.mem_cons.mpr h)
      obtain ⟨d, r, rfl⟩ : ∃ d s, r = d :: s := by
        refine List.exists_cons_of_ne_nil ?_
        rintro rfl
        exact last (congrArg some (List.mem_singleton.mp several).symm)
      have some_ : 1 ≤ (lines (d :: r)).length := by
        by_cases break_ : d.isLineBreak = true
        · rw [lines_break break_ fun same => later (same ▸ List.mem_cons_self)]
          omega
        · rw [lines_plain (Bool.eq_false_iff.mpr break_)]
          exact Nat.le_max_left 1 _
      by_cases break_ : c.isLineBreak = true
      · rw [lines_break break_ (Ne.symm other)]
        omega
      · have inside : CodePoint.char '\n' ∈ d :: r := by
          refine (List.mem_cons.mp several).resolve_left ?_
          rintro rfl
          exact break_ (by decide)
        rw [lines_plain (Bool.eq_false_iff.mpr break_)]
        exact Nat.le_trans (ih later inside last) (Nat.le_max_right 1 _)

theorem closed_of_spread {value : Text} {a b d e : Bool}
    (h : (a || b || (value.getLast? = some (.char '"') && !e ||
      value.getLast? = some (.char '\\')) || d || e) = false) : Closed value := by
  simp only [Bool.or_eq_false_iff, Bool.and_eq_false_iff, Bool.not_eq_false',
    decide_eq_false_iff_not] at h
  obtain ⟨⟨⟨-, quote, slash⟩, -⟩, noTriple⟩ := h
  intro c last
  constructor
  · rintro rfl
    obtain other | triple := quote
    · exact other last
    · exact Bool.false_ne_true (noTriple.symm.trans triple)
  · rintro rfl
    exact slash last

/-- A content is written on lines of its own unless it is short and can be closed where it ends. A
    single line that begins with a blank stays behind the opening quotes. -/
theorem render_eq (value : Text) : ∃ single spread indented : Bool,
    (single = true ↔ (lines (escapeQuotes value)).length ≤ 1) ∧ (single = true → indented = false) ∧
    (spread = false → single = true ∧ Closed value) ∧
    render value = quoted
      (if (spread && !(single && value.head?.any isSpace)) || indented then [.char '\n'] else [])
      value (if spread then [.char '\n'] else []) := by
  have absorb (a b c d e : Bool) : (a || b || c || d || e || c) = (a || b || c || d || e) := by
    revert a b c d e
    decide
  have flat {a b c d e : Bool} (h : (!a || b || c || d || e) = false) : a = true := by
    revert a b c d e
    decide
  cases h : lines (escapeQuotes value)
  all_goals
    simp only [render, h, absorb]
    refine ⟨_, _, _, ?_, ?_, fun inline => ⟨flat inline, closed_of_spread inline⟩, rfl⟩
  · simp
  · simp
  · simp
  · simp +contextual

theorem render_nil : render [] = quoted [] [] [] := by
  simp [render, quoted, escapeQuotes, lines, Text.endsWith, Literal.tripleQuote]
  decide

theorem isFlush_of_head {l : Text} (solid : isBlankLine l = false)
    (head : l.head?.any isSpace = false) : IsFlush l := by
  cases l with
  | nil => cases solid
  | cons c r => exact ⟨c, r, rfl, head⟩

theorem several_lines {l m : Text} {ms : List Text} (plain : ∀ n ∈ l :: m :: ms, .char '\n' ∉ n)
    (last : ∀ n ∈ (l :: m :: ms).getLast?, isBlankLine n = false)
    (noReturn : .char '\r' ∉ Text.join [.char '\n'] (l :: m :: ms)) :
    2 ≤ (lines (Text.join [.char '\n'] (l :: m :: ms))).length := by
  refine two_le_lines noReturn ?_ fun back => ?_
  · simp [Text.join]
  · obtain ⟨front, text⟩ := List.getLast?_eq_some_iff.mp back
    have same := Text.splitOn_join (List.cons_ne_nil _ _) plain
    rw [text, Text.splitOn_append] at same
    have empty : (l :: m :: ms).getLast? = some [] := by
      rw [← same]
      exact List.getLast?_concat
    exact Bool.false_ne_true ((last [] empty).symm.trans rfl)

/-- A content that can come from a block string is framed by the line breaks that it is written
    with. -/
theorem render_framed {content : Text} (h : IsContent content) (steady : IsSteady content) :
    ∃ before after, Framed content before after ∧ render content = quoted before content after := by
  obtain ⟨single, spread, indented, one, flat, inline, text⟩ := render_eq content
  rw [length_lines_escaped h.noReturn] at one
  obtain ⟨ls, rfl, plain, first, last, flush⟩ := h.lines
  cases ls with
  | nil => exact ⟨[], [], .inline List.not_mem_nil (.inl rfl) closed_nil, render_nil⟩
  | cons l ls =>
      have solid := first l rfl
      refine ⟨_, _, ?_, text⟩
      cases ls with
      | nil =>
          have oneLine := plain l List.mem_cons_self
          change Framed l _ _
          -- With blanks in front, the line must stay behind the quotes, and so it does if it is
          -- the only one for the purpose of layout.
          cases spread with
          | false =>
              obtain ⟨rfl, closed⟩ := inline rfl
              rw [flat rfl]
              exact .inline oneLine (.inr solid) closed
          | true =>
              cases head : (Text.join [CodePoint.char '\n'] [l]).head?.any isSpace with
              | true =>
                  obtain rfl := one.mpr (steady oneLine head)
                  rw [flat rfl]
                  exact .below oneLine solid
              | false =>
                  rw [Bool.and_false, Bool.not_false]
                  have flush := isFlush_of_head solid head
                  exact .apart rfl plain first last ⟨l, List.mem_cons_self, flush⟩
      | cons m ms =>
          have several := several_lines plain last h.noReturn
          obtain rfl : single = false := Bool.eq_false_iff.mpr fun same =>
            Nat.not_succ_le_self 1 (Nat.le_trans several (one.mp same))
          obtain rfl : spread = true := by
            cases spread with
            | false => cases (inline rfl).1
            | true => rfl
          exact .apart rfl plain first last (flush.resolve_left (by simp))

theorem render_lexes {content : Text} (h : IsContent content) (steady : IsSteady content) (n : Nat) :
    Lexes (shift n (render content)) (.string true content) := by
  obtain ⟨before, after, framed, text⟩ := render_framed h steady
  rw [text]
  exact framed.lexes h.scalar h.noReturn n

end BlockString

end GraphQL

end ApprovedOps
